import Ext2Fs.Reasoning.Runs
import Ext2Fs.Spec.DiskSim

/-!
# The simulator behind the disk interface

The file system is modelled on an array of sectors.  The simulator that the shell opens answers
every sequence of requests as that array does.
-/

open Reasoning

namespace Ext2Fs

/-- A transfer of one sector between the disk and a buffer. -/
inductive DiskRequest where
  | read (sector : UInt32) (buffer : Sector)
  | write (sector : UInt32) (data : Sector)

/-- `read_sector` and `write_sector` of the simulator: the return code and the buffer afterwards. -/
def DiskSim.serve (this : DiskSim) : DiskRequest → Exec ((Int × List UInt8) × DiskSim)
  | .read sector buffer => do
    let (status, data) ← disksimRead this sector buffer.toList
    return ((status, data), this)
  | .write sector data => do
    let (status, this) ← disksimWrite this sector data.toList
    return ((status, data.toList), this)

/-- And those of the interface. -/
def DiskOperations.serve (disk : DiskOperations) :
    DiskRequest → Exec ((Int × List UInt8) × DiskOperations)
  | .read sector buffer =>
    let (status, data) := disk.readSector sector (some buffer)
    .ok ((status, (data.getD buffer).toList), disk)
  | .write sector data =>
    .ok ((if sector < disk.numberOfSectors then 0 else -1, data.toList),
      disk.writeSector sector data)

/-- The simulator holds the sectors of the disk in its area. -/
def DiskSim.Holds (n : UInt32) (this : DiskSim) (disk : DiskOperations) : Prop :=
  ∃ area, this.Opened n 512 area ∧ disk = areaDisk n area

section Serve

variable {this : DiskSim} {n : UInt32} {disk : DiskOperations}

theorem disksimWrite_status {sector : UInt32} {area data : List UInt8} (h : this.Opened n 512 area)
    {r : Int} {this' : DiskSim} (hwrite : disksimWrite this sector data = .ok (r, this')) :
    r = if sector < n then 0 else -1 := by
  by_cases hsector : sector < n
  · rw [disksimWrite_eq h hsector] at hwrite
    rcases bind_eq_ok.mp hwrite with ⟨bytes, -, hwrite⟩
    rcases bind_eq_ok.mp hwrite with ⟨area', -, hwrite⟩
    rw [Except.ok.injEq, Prod.mk.injEq] at hwrite
    rw [if_pos hsector, hwrite.1]
  · rw [disksimWrite_refused h (UInt32.not_lt.mp hsector), Except.ok.injEq, Prod.mk.injEq] at hwrite
    rw [if_neg hsector, hwrite.1]

-- A read fills the buffer, or leaves what was in it.
theorem readSector_getD (disk : DiskOperations) (sector : UInt32) (buffer : Sector) :
    disk.readSector sector (some buffer) =
      ((disk.readSector sector none).1, some ((disk.readSector sector none).2.getD buffer)) := by
  unfold DiskOperations.readSector
  cases disk.sectors.read? sector.toNat <;> rfl

-- One request.
theorem DiskSim.Holds.serve (h : DiskSim.Holds n this disk) (hfits : n.toNat * 512 < 4294967296)
    (request : DiskRequest) :
    ∃ answer this' disk', this.serve request = .ok (answer, this') ∧
      disk.serve request = .ok (answer, disk') ∧ DiskSim.Holds n this' disk' := by
  rcases h with ⟨area, hopened, rfl⟩
  cases request with
  | read sector buffer =>
    refine ⟨(((areaDisk n area).readSector sector none).1,
      (((areaDisk n area).readSector sector none).2.getD buffer).toList), this, areaDisk n area,
      ?_, ?_, area, hopened, rfl⟩
    · unfold DiskSim.serve
      dsimp only
      rw [disksimRead_areaDisk hopened hfits Vector.length_toList, ok_bind]
      cases ((areaDisk n area).readSector sector none).2 <;> rfl
    · unfold DiskOperations.serve
      dsimp only
      rw [readSector_getD]
      rfl
  | write sector data =>
    have hwritten : ∃ r this' area', disksimWrite this sector data.toList = .ok (r, this') ∧
        this'.Opened n 512 area' ∧
        areaDisk n area' = (areaDisk n area).writeSector sector data :=
      disksimWrite_areaDisk hopened hfits data
    rcases hwritten with ⟨r, this', area', hwrite, hopened', hdisk⟩
    have hstatus := disksimWrite_status hopened hwrite
    refine ⟨(r, data.toList), this', areaDisk n area', ?_, ?_, area', hopened', rfl⟩
    · unfold DiskSim.serve
      dsimp only
      rw [hwrite, ok_bind]
      rfl
    · unfold DiskOperations.serve
      dsimp only
      rw [hstatus, hdisk, numberOfSectors_areaDisk]

end Serve

/-- A disk of sectors of 512 bytes, less than 4 GiB in all, is opened, and any requests are made of
it: every return code and every byte is that of an array of sectors, which starts with what the new
area holds. -/
theorem disksim_refines {malloc : Nat → Option (List UInt8)}
    (hmalloc : ∀ size, ∃ area, malloc size = some area ∧ area.length = size) {n : UInt32}
    (hfits : n.toNat * 512 < 4294967296) (disk : DiskSim) :
    ∃ this area, disksimInit malloc n 512 (some disk) = (0, some this) ∧
      ∀ requests, ∃ answers this' disk',
        serveAll DiskSim.serve this requests = .ok (answers, this') ∧
        serveAll DiskOperations.serve (areaDisk n area) requests = .ok (answers, disk') := by
  rcases disksimInit_opened hmalloc n 512 disk with ⟨this, area, hinit, hopened⟩
  refine ⟨this, area, hinit, fun requests ↦ ?_⟩
  rcases serveAll_simulates (DiskSim.Holds n) (fun s t request h ↦ h.serve hfits request) requests
    ⟨area, hopened, rfl⟩ with ⟨answers, this', disk', hrun, hspec, -⟩
  exact ⟨answers, this', disk', hrun, hspec⟩

/-- The disk of the shell, with its 524288 sectors, in an area that is zeroed. -/
theorem disksim_refines_zeroed : ∃ this area,
    disksimInit (fun size ↦ some (List.replicate size 0)) 524288 512 (some ⟨0, 0, none⟩) =
      (0, some this) ∧
    ∀ requests, ∃ answers this' disk',
      serveAll DiskSim.serve this requests = .ok (answers, this') ∧
      serveAll DiskOperations.serve (areaDisk 524288 area) requests = .ok (answers, disk') :=
  disksim_refines (fun size ↦ ⟨List.replicate size 0, rfl, List.length_replicate⟩) (by decide) _

end Ext2Fs
