import Ext2Fs.Model.DiskSim
import Ext2Fs.Spec.Geometry

/-!
# The disk simulator as an array of sectors

The area that `disksim_init` allocates holds the sectors one after the other as long as the products
of the geometry fit in 32 bits.
-/

open Reasoning

namespace Ext2Fs

/-! ## The arithmetic of a geometry -/

/-- The disk has the geometry it was opened with, and the area is the one allocated for it. -/
structure DiskSim.Opened (this : DiskSim) (numberOfSectors bytesPerSector : UInt32)
    (area : List UInt8) : Prop where
  numberOfSectors_eq : this.numberOfSectors = numberOfSectors
  bytesPerSector_eq : this.bytesPerSector = bytesPerSector.toInt32
  pdata_eq : this.pdata = some ⟨some area⟩
  length_eq : area.length = bytesPerSector.toNat * numberOfSectors.toNat % 4294967296

namespace DiskSim.Opened

variable {this : DiskSim} {n b sector : UInt32} {area area' : List UInt8}

theorem offset_eq (h : this.Opened n b area) (sector : UInt32) :
    this.offset sector = sector.toNat * b.toNat % 4294967296 := by
  rw [DiskSim.offset, h.bytesPerSector_eq, UInt32.toUInt32_toInt32, UInt32.toNat_mul]

theorem toNat_copySize (h : this.Opened n b area) :
    this.copySize = b.toNat + if b.toNat < 2147483648 then 0 else 18446744069414584320 := by
  have hsign : (b.toBitVec.signExtend 64).toNat =
      b.toNat + if b.toBitVec.msb then 18446744069414584320 else 0 := by
    have hlt := b.toNat_lt
    rw [BitVec.toNat_signExtend, BitVec.toNat_setWidth, UInt32.toNat_toBitVec,
      Nat.mod_eq_of_lt (by omega)]
  have hmsb : b.toBitVec.msb = decide (2147483648 ≤ b.toNat) := by
    rw [BitVec.msb_eq_decide]
    rfl
  rw [DiskSim.copySize, h.bytesPerSector_eq]
  change (b.toBitVec.signExtend 64).toNat = _
  rw [hsign, hmsb]
  by_cases hb : b.toNat < 2147483648
  · rw [if_pos hb, decide_eq_false (by omega), if_neg (by decide)]
  · rw [if_neg hb, decide_eq_true (by omega), if_pos rfl]

-- a stored sector leaves the geometry and the size of the area alone
theorem stored (h : this.Opened n b area) (hlen : area'.length = area.length) :
    DiskSim.Opened { this with pdata := some ⟨some area'⟩ } n b area' where
  numberOfSectors_eq := h.numberOfSectors_eq
  bytesPerSector_eq := h.bytesPerSector_eq
  pdata_eq := rfl
  length_eq := hlen.trans h.length_eq

end DiskSim.Opened

theorem disksimInit_opened {malloc : Nat → Option (List UInt8)}
    (hmalloc : ∀ size, ∃ area, malloc size = some area ∧ area.length = size)
    (numberOfSectors bytesPerSector : UInt32) (disk : DiskSim) :
    ∃ this area, disksimInit malloc numberOfSectors bytesPerSector (some disk) = (0, some this) ∧
      this.Opened numberOfSectors bytesPerSector area := by
  rcases hmalloc diskMemorySize with ⟨memory, hmemory, -⟩
  rcases hmalloc (bytesPerSector * numberOfSectors).toNat with ⟨area, harea, hlen⟩
  refine ⟨⟨numberOfSectors, bytesPerSector.toInt32, some ⟨some area⟩⟩, area, ?_, rfl, rfl, rfl, ?_⟩
  · unfold disksimInit
    simp only [hmemory, harea]
  · rw [hlen, UInt32.toNat_mul]

/-! ## The two transfers -/

section Transfer

variable {this : DiskSim} {n b sector : UInt32} {area : List UInt8} (h : this.Opened n b area)

include h

theorem disksimRead_refused (hsector : n ≤ sector) (data : List UInt8) :
    disksimRead this sector data = .ok (-1, data) := by
  simp only [disksimRead, h.pdata_eq, h.numberOfSectors_eq]
  exact if_pos hsector

theorem disksimWrite_refused (hsector : n ≤ sector) (data : List UInt8) :
    disksimWrite this sector data = .ok (-1, this) := by
  simp only [disksimWrite, h.pdata_eq, h.numberOfSectors_eq]
  exact if_pos hsector

theorem disksimRead_eq (hsector : sector < n) (data : List UInt8) :
    disksimRead this sector data =
      loadRange area (this.offset sector) this.copySize >>= fun bytes ↦
        storeRange data 0 bytes >>= fun data ↦ .ok (0, data) := by
  simp only [disksimRead, h.pdata_eq, h.numberOfSectors_eq]
  exact if_neg (UInt32.not_le.mpr hsector)

theorem disksimWrite_eq (hsector : sector < n) (data : List UInt8) :
    disksimWrite this sector data =
      loadRange data 0 this.copySize >>= fun bytes ↦
        storeRange area (this.offset sector) bytes >>= fun area ↦
          .ok (0, { this with pdata := some ⟨some area⟩ }) := by
  simp only [disksimWrite, h.pdata_eq, h.numberOfSectors_eq]
  exact if_neg (UInt32.not_le.mpr hsector)

-- A write keeps the geometry, whatever it returns.
theorem disksimWrite_opened {data : List UInt8} {r : Int} {this' : DiskSim}
    (hwrite : disksimWrite this sector data = .ok (r, this')) :
    ∃ area', this'.Opened n b area' := by
  by_cases hsector : sector < n
  · rw [disksimWrite_eq h hsector] at hwrite
    rcases bind_eq_ok.mp hwrite with ⟨bytes, -, hwrite⟩
    rcases bind_eq_ok.mp hwrite with ⟨area', hstore, hwrite⟩
    rw [Except.ok.injEq, Prod.mk.injEq] at hwrite
    rw [← hwrite.2]
    exact ⟨area', h.stored (length_of_storeRange hstore)⟩
  · rw [disksimWrite_refused h (UInt32.not_lt.mp hsector), Except.ok.injEq, Prod.mk.injEq] at hwrite
    rw [← hwrite.2]
    exact ⟨area, h⟩

section Fits

/-! ### Geometries without wraparound -/

variable (hb : b.toNat < 2147483648) (hfits : n.toNat * b.toNat < 4294967296)

include hb hfits

omit hfits in
theorem copySize_of_fits : this.copySize = b.toNat := by
  rw [h.toNat_copySize, if_pos hb, Nat.add_zero]

-- The sectors lie one after the other inside the area.
theorem offset_of_fits (hsector : sector < n) :
    this.offset sector = sector.toNat * b.toNat ∧
      sector.toNat * b.toNat + b.toNat ≤ area.length := by
  have hlt : sector.toNat + 1 ≤ n.toNat := UInt32.lt_iff_toNat_lt.mp hsector
  have hend := Nat.mul_le_mul_right b.toNat hlt
  rw [Nat.add_mul, Nat.one_mul] at hend
  have hlen := h.length_eq
  rw [Nat.mul_comm b.toNat, Nat.mod_eq_of_lt hfits] at hlen
  rw [h.offset_eq]
  exact ⟨Nat.mod_eq_of_lt (by omega), by omega⟩

theorem disksimRead_of_fits (hsector : sector < n) {data : List UInt8}
    (hdata : data.length = b.toNat) :
    disksimRead this sector data =
      .ok (0, (area.drop (sector.toNat * b.toNat)).take b.toNat) := by
  have hin := offset_of_fits h hb hfits hsector
  rw [disksimRead_eq h hsector, copySize_of_fits h hb, hin.1, loadRange_of_le hin.2, ok_bind,
    storeRange_all (by simp; omega), ok_bind]

theorem disksimWrite_of_fits (hsector : sector < n) {data : List UInt8}
    (hdata : data.length = b.toNat) :
    ∃ area', storeRange area (sector.toNat * b.toNat) data = .ok area' ∧
      disksimWrite this sector data = .ok (0, { this with pdata := some ⟨some area'⟩ }) := by
  have hin := offset_of_fits h hb hfits hsector
  refine ⟨_, storeRange_of_le (by omega), ?_⟩
  rw [disksimWrite_eq h hsector, copySize_of_fits h hb, hin.1, loadRange_all hdata, ok_bind,
    storeRange_of_le (by omega), ok_bind]

end Fits

end Transfer

/-! ## The disk that the file system sees -/

/-- Sector `x` of an area of 512-byte sectors. -/
def sectorAt (area : List UInt8) (x : Nat) : Sector :=
  Vector.ofFn fun i ↦ area.getD (x * 512 + i.val) 0

/-- The disk interface over such an area. -/
def areaDisk (numberOfSectors : UInt32) (area : List UInt8) : DiskOperations :=
  DiskOperations.ofContents numberOfSectors (sectorAt area)

@[simp] theorem numberOfSectors_areaDisk (n : UInt32) (area : List UInt8) :
    (areaDisk n area).numberOfSectors = n := rfl

theorem getElem_sectorAt (area : List UInt8) (x : Nat) {i : Nat} (hi : i < 512) :
    (sectorAt area x)[i] = area[x * 512 + i]?.getD 0 := by
  simp [sectorAt]

theorem toList_sectorAt {area : List UInt8} {x : Nat} (h : x * 512 + 512 ≤ area.length) :
    (sectorAt area x).toList = (area.drop (x * 512)).take 512 := by
  apply List.ext_getElem
  · simp
    omega
  · intro i hi hi'
    rw [Vector.length_toList] at hi
    rw [Vector.getElem_toList, getElem_sectorAt area x hi, List.getElem_take, List.getElem_drop,
      List.getElem?_eq_getElem (by omega), Option.getD_some]

-- A sector stored into the area is a sector written to the disk.
theorem areaDisk_storeRange {n sector : UInt32} {area area' : List UInt8} {data : Sector}
    (hstore : storeRange area (sector.toNat * 512) data.toList = .ok area')
    (hlt : sector.toNat < n.toNat) :
    areaDisk n area' = (areaDisk n area).writeSector sector data := by
  apply DiskOperations.ext_content (by simp)
  intro x
  rw [DiskOperations.content_writeSector data (by exact hlt)]
  apply Vector.ext
  intro i hi
  -- the byte is one of the range stored, or lies in another sector
  have hbyte := getElem?_of_storeRange hstore (x * 512 + i)
  rw [Vector.length_toList] at hbyte
  change (sectorAt area' x)[i] = _
  rw [getElem_sectorAt area' x hi, hbyte]
  by_cases hx : x = sector.toNat
  · rw [if_pos (by omega), hx, Nat.add_sub_cancel_left]
    simp [hi]
  · rw [if_neg (by omega)]
    simp only [if_neg hx]
    exact (getElem_sectorAt area x hi).symm

theorem areaDisk_writeSector_of_ge {n sector : UInt32} {area : List UInt8} {data : Sector}
    (hge : n.toNat ≤ sector.toNat) :
    (areaDisk n area).writeSector sector data = areaDisk n area := by
  apply DiskOperations.ext_content (by simp)
  intro x
  change ((areaDisk n area).sectors.write sector.toNat data).cell x = _
  rw [Store.cell_write, if_neg (fun hx ↦ absurd hx.2 (by exact Nat.not_lt.mpr hge))]

section AreaDisk

variable {this : DiskSim} {n sector : UInt32} {area : List UInt8} (h : this.Opened n 512 area)
  (hfits : n.toNat * 512 < 4294967296)

include h hfits

theorem sector_le_area (hsector : sector < n) :
    sector.toNat * 512 + 512 ≤ area.length :=
  (offset_of_fits h (by decide) hfits hsector).2

-- `disksim_read` is the read of the interface.
theorem disksimRead_areaDisk {data : List UInt8} (hdata : data.length = 512) :
    disksimRead this sector data = .ok (((areaDisk n area).readSector sector none).1,
      (((areaDisk n area).readSector sector none).2.map Vector.toList).getD data) := by
  by_cases hsector : sector < n
  · rw [disksimRead_of_fits h (by decide) hfits hsector hdata,
      DiskOperations.readSector_of_lt none (UInt32.lt_iff_toNat_lt.mp hsector)]
    have hbytes := toList_sectorAt (sector_le_area h hfits hsector)
    rw [show ((512 : UInt32).toNat) = 512 from rfl, ← hbytes]
    rfl
  · rw [disksimRead_refused h (UInt32.not_lt.mp hsector),
      DiskOperations.readSector_of_ge none (UInt32.le_iff_toNat_le.mp (UInt32.not_lt.mp hsector))]
    rfl

-- `disksim_write` is the write of the interface.
theorem disksimWrite_areaDisk (data : Sector) :
    ∃ r this' area', disksimWrite this sector data.toList = .ok (r, this') ∧
      this'.Opened n 512 area' ∧ areaDisk n area' = (areaDisk n area).writeSector sector data := by
  by_cases hsector : sector < n
  · rcases disksimWrite_of_fits h (by decide) hfits hsector
      (show data.toList.length = (512 : UInt32).toNat by simp) with
      ⟨area', hstore, hwrite⟩
    have hlen := length_of_storeRange hstore
    refine ⟨0, _, area', hwrite, h.stored hlen, ?_⟩
    exact areaDisk_storeRange hstore (UInt32.lt_iff_toNat_lt.mp hsector)
  · refine ⟨-1, this, area, disksimWrite_refused h (UInt32.not_lt.mp hsector) _, h, ?_⟩
    exact (areaDisk_writeSector_of_ge (UInt32.le_iff_toNat_le.mp (UInt32.not_lt.mp hsector))).symm

end AreaDisk

end Ext2Fs
