import Ext2Fs.Model.Mount

/-!
# Group geometry and sector writes

A block group spans 262144 sectors, so a sector number is `262144 * g + c` for a group `g` and a
position `c`.  The loops that refresh a structure in every group write the sectors of one position.
-/

open Reasoning

namespace Ext2Fs

-- A number returned as an `int` and stored in an `unsigned int`.
theorem ofInt_natCast (n : Nat) : UInt32.ofInt (n : Int) = UInt32.ofNat n := by
  have hmod : ((n : Int) % 2 ^ 32).toNat = n % 2 ^ 32 := by omega
  apply UInt32.toNat_inj.mp
  rw [UInt32.ofInt, hmod]
  simp

theorem ofInt_natCast_toNat {n : Nat} (hn : n < 4294967296) :
    (UInt32.ofInt (n : Int)).toNat = n := by
  rw [ofInt_natCast]
  simp
  omega

-- The group that a node or an inode number belongs to.
theorem groupNum_toNat {n : UInt32} {g : Nat} (h : n.toNat / 1024 = g) :
    (n / inodesPerGroup).toNat = g := by
  rw [← h]
  simp

/-! ## Sector numbers -/

theorem blockSector_toNat {block : UInt32} (hblock : block.toNat < 2000) :
    (block * sectorsPerBlock).toNat = 8 * block.toNat := by
  simp
  omega

theorem sectorOfBlock_toNat {block : UInt32} (hblock : block.toNat < 2000) {i : Nat} (hi : i < 8) :
    (UInt32.ofNat i + block * sectorsPerBlock).toNat = 8 * block.toNat + i := by
  rw [UInt32.toNat_add, blockSector_toNat hblock, UInt32.toNat_ofNat']
  omega

theorem descSector_toNat {spb : Ext2SuperBlock} (h0 : spb.sFirstDataBlock = 0) :
    ((spb.sFirstDataBlock + 1) * sectorsPerBlock).toNat = 8 := by
  rw [h0]
  rfl

/-! ## Reading and writing one sector -/

namespace DiskOperations

/-- What a sector holds. -/
abbrev content (disk : DiskOperations) (x : Nat) : Sector := disk.sectors.cell x

variable {disk : DiskOperations} {sector : UInt32}

theorem readSector_of_lt (data : Option Sector)
    (h : sector.toNat < disk.numberOfSectors.toNat) :
    disk.readSector sector data = (0, some (disk.content sector.toNat)) := by
  rw [← disk.size_eq] at h
  rw [readSector, Store.read?_of_lt h]

theorem readSector_of_ge (data : Option Sector)
    (h : disk.numberOfSectors.toNat ≤ sector.toNat) : disk.readSector sector data = (-1, data) := by
  rw [← disk.size_eq] at h
  rw [readSector, Store.read?_of_ge h]

theorem readSector_eq {x : Nat} {s : Sector} (data : Option Sector) (hx : sector.toNat = x)
    (hlt : x < disk.numberOfSectors.toNat) (hs : disk.content x = s) :
    (disk.readSector sector data).2 = some s := by
  subst hx hs
  rw [readSector_of_lt data hlt]

-- A buffer that was never filled holds the sector that was read.
theorem readSector_eq_some {s : Sector} (h : (disk.readSector sector none).2 = some s) :
    sector.toNat < disk.numberOfSectors.toNat ∧ s = disk.content sector.toNat := by
  rcases Nat.lt_or_ge sector.toNat disk.numberOfSectors.toNat with hlt | hge
  · rw [readSector_of_lt none hlt, Option.some.injEq] at h
    exact ⟨hlt, h.symm⟩
  · rw [readSector_of_ge none hge] at h
    cases h

theorem readSector_congr {disk' : DiskOperations}
    (hn : disk'.numberOfSectors = disk.numberOfSectors)
    (hc : disk'.sectors.cell sector.toNat = disk.sectors.cell sector.toNat) (data : Option Sector) :
    disk'.readSector sector data = disk.readSector sector data := by
  have hsize : disk'.sectors.size = disk.sectors.size := by
    rw [disk'.size_eq, disk.size_eq, hn]
  rw [readSector, readSector, Store.read?, Store.read?, hsize, hc]

@[simp] theorem numberOfSectors_writeSector (data : Sector) :
    (disk.writeSector sector data).numberOfSectors = disk.numberOfSectors := by
  rw [writeSector]

@[simp] theorem bytesPerSector_writeSector (data : Sector) :
    (disk.writeSector sector data).bytesPerSector = disk.bytesPerSector := by
  rw [writeSector]

@[simp] theorem groupCount_writeSector (data : Sector) :
    (disk.writeSector sector data).groupCount = disk.groupCount := by
  rw [groupCount, groupCount, numberOfSectors_writeSector, bytesPerSector_writeSector]

theorem content_writeSector {x : Nat} (data : Sector)
    (h : sector.toNat < disk.numberOfSectors.toNat) :
    (disk.writeSector sector data).content x =
      if x = sector.toNat then data else disk.content x := by
  rw [← disk.size_eq] at h
  rw [content, writeSector, Store.cell_write]
  simp [h]

theorem content_writeSector_of_ne {x : Nat} (data : Sector) (hx : x ≠ sector.toNat) :
    (disk.writeSector sector data).content x = disk.content x :=
  Store.cell_write_of_ne data hx

-- Two disks of the same geometry with the same sectors are the same disk.
theorem ext_content {d₁ d₂ : DiskOperations} (hn : d₁.numberOfSectors = d₂.numberOfSectors)
    (hc : ∀ x, d₁.content x = d₂.content x) : d₁ = d₂ := by
  obtain ⟨n₁, b₁, ⟨z₁, c₁⟩, hb₁, hz₁⟩ := d₁
  obtain ⟨n₂, b₂, ⟨z₂, c₂⟩, hb₂, hz₂⟩ := d₂
  simp only [content] at hn hc hb₁ hb₂ hz₁ hz₂
  subst hn hb₁ hb₂ hz₁ hz₂
  rw [funext hc]

end DiskOperations

/-! ## One sector value at many addresses -/

section WriteMany

variable (addr : Nat → UInt32) (data : Sector) (is : List Nat) (disk : DiskOperations)

theorem writeEach_cons {δ : Type} [Disk δ] (i : Nat) (disk : δ) :
    writeEach addr data (i :: is) disk =
      writeEach addr data is (Disk.writeSector disk (addr i) data) := rfl

theorem sectors_writeEach :
    (writeEach addr data is disk).sectors =
      disk.sectors.writeAll data (is.map fun i ↦ (addr i).toNat) := by
  induction is generalizing disk with
  | nil => rfl
  | cons i is ih =>
    rw [writeEach_cons, ih, List.map_cons, Store.writeAll_cons]
    rfl

theorem numberOfSectors_writeEach :
    (writeEach addr data is disk).numberOfSectors = disk.numberOfSectors := by
  induction is generalizing disk with
  | nil => rfl
  | cons i is ih =>
    rw [writeEach_cons, ih, Disk.writeSector_eq, DiskOperations.numberOfSectors_writeSector]

theorem content_writeEach_of_mem {i : Nat} (hi : i ∈ is)
    (h : (addr i).toNat < disk.numberOfSectors.toNat) :
    (writeEach addr data is disk).content (addr i).toNat = data := by
  rw [DiskOperations.content, sectors_writeEach]
  exact Store.cell_writeAll_of_mem (List.mem_map.mpr ⟨i, hi, rfl⟩) (by rw [disk.size_eq]; exact h)

theorem content_writeEach_of_notMem {x : Nat} (h : ∀ i ∈ is, (addr i).toNat ≠ x) :
    (writeEach addr data is disk).content x = disk.content x := by
  rw [DiskOperations.content, sectors_writeEach]
  apply Store.cell_writeAll_of_notMem
  rw [List.mem_map]
  rintro ⟨i, hi, hx⟩
  exact h i hi hx

end WriteMany

/-! ## Group count -/

namespace DiskOperations

variable (disk : DiskOperations)

/-- The number of block groups, as a natural number. -/
def groups : Nat := disk.groupCount.toNat

theorem groups_eq : disk.groups = disk.numberOfSectors.toNat * 512 % 4294967296 / 134217728 := by
  unfold groups groupCount
  rw [disk.bytesPerSector_eq]
  simp

theorem groups_le : disk.groups ≤ 31 := by
  rw [groups_eq]
  omega

theorem groups_fit : disk.groups * 262144 ≤ disk.numberOfSectors.toNat := by
  rw [groups_eq]
  omega

-- Every position of every group is a sector of the disk.
theorem sector_lt {g c : Nat} (hg : g < disk.groups) (hc : c < 262144) :
    262144 * g + c < disk.numberOfSectors.toNat := by
  have h := disk.groups_fit
  omega

@[simp] theorem groups_writeSector {sector : UInt32} (data : Sector) :
    (disk.writeSector sector data).groups = disk.groups := by
  rw [groups, groups, groupCount_writeSector]

end DiskOperations

theorem groups_congr {d₁ d₂ : DiskOperations} (h : d₁.numberOfSectors = d₂.numberOfSectors) :
    d₁.groups = d₂.groups := by
  rw [d₁.groups_eq, d₂.groups_eq, h]

theorem groupCount_congr {d₁ d₂ : DiskOperations} (h : d₁.numberOfSectors = d₂.numberOfSectors) :
    d₁.groupCount = d₂.groupCount := UInt32.toNat_inj.mp (groups_congr h)

theorem descBlockCount_eq {n : UInt32} (hpos : 1 ≤ n.toNat) (hle : n.toNat ≤ 31) :
    descBlockCount n = 1 := by
  have hsize : (n.toUInt64 * 32).toNat = n.toNat * 32 := by
    simp
    omega
  have hmod : n.toUInt64 * 32 % 4096 ≠ 0 := by
    intro h
    have h' := congrArg UInt64.toNat h
    rw [UInt64.toNat_mod, hsize] at h'
    simp at h'
    omega
  unfold descBlockCount
  rw [if_pos hmod]
  apply UInt32.toNat_inj.mp
  simp
  omega

/-! ## The same sectors of a block, or of every group -/

section Copies

variable {disk : DiskOperations} {spb : Ext2SuperBlock}

-- A sector value written to `n` consecutive sectors.
theorem content_writeEach_run (addr : Nat → UInt32) (data : Sector) {n base : Nat}
    (haddr : ∀ i, i < n → (addr i).toNat = base + i)
    (hfit : base + n ≤ disk.numberOfSectors.toNat) (x : Nat) :
    (writeEach addr data (List.range n) disk).content x =
      if base ≤ x ∧ x < base + n then data else disk.content x := by
  split
  · rename_i h
    have hx : (addr (x - base)).toNat = x := by
      rw [haddr _ (by omega)]
      omega
    have hw := content_writeEach_of_mem addr data (List.range n) disk
      (i := x - base) (List.mem_range.mpr (by omega)) (by omega)
    rwa [hx] at hw
  · rename_i h
    apply content_writeEach_of_notMem
    intro i hi hx
    rw [List.mem_range] at hi
    rw [haddr i hi] at hx
    omega

-- A sector value written to position `c` of the groups from `first` on.
theorem content_writeEach_copies (addr : Nat → UInt32) (data : Sector) {c : Nat} (hc : c < 262144)
    (haddr : ∀ i, i < disk.groups → (addr i).toNat = 262144 * i + c) (first x : Nat) :
    (writeEach addr data (List.range' first (disk.groupCount.toNat - first)) disk).content x =
      if x % 262144 = c ∧ first ≤ x / 262144 ∧ x / 262144 < disk.groups then data
      else disk.content x := by
  have hgroups : disk.groupCount.toNat = disk.groups := rfl
  split
  · rename_i h
    obtain ⟨hmod, hfirst, hlt⟩ := h
    have hx : (addr (x / 262144)).toNat = x := by
      rw [haddr _ hlt]
      omega
    have hmem : x / 262144 ∈ List.range' first (disk.groupCount.toNat - first) := by
      rw [List.mem_range'_1]
      omega
    have hin := disk.sector_lt hlt hc
    have hw := content_writeEach_of_mem addr data _ disk hmem (by omega)
    rwa [hx] at hw
  · rename_i h
    apply content_writeEach_of_notMem
    intro i hi hx
    rw [List.mem_range'_1] at hi
    rw [haddr i (by omega)] at hx
    omega

@[simp] theorem numberOfSectors_writeSuperBlocks (first : Nat) :
    (writeSuperBlocks disk spb first).numberOfSectors = disk.numberOfSectors :=
  numberOfSectors_writeEach ..

@[simp] theorem numberOfSectors_writeDescSectors (sector : Sector) :
    (writeDescSectors disk spb sector).numberOfSectors = disk.numberOfSectors :=
  numberOfSectors_writeEach ..

theorem content_writeSuperBlocks (h0 : spb.sFirstDataBlock = 0) (first x : Nat) :
    (writeSuperBlocks disk spb first).content x =
      if x % 262144 = 0 ∧ first ≤ x / 262144 ∧ x / 262144 < disk.groups then
        asSuperBlock.symm spb
      else disk.content x := by
  have hle := disk.groups_le
  refine @content_writeEach_copies disk _ _ 0 (by decide) (fun i hi ↦ ?_) first x
  rw [h0]
  simp
  omega

theorem content_writeDescSectors (h0 : spb.sFirstDataBlock = 0) (sector : Sector) (x : Nat) :
    (writeDescSectors disk spb sector).content x =
      if x % 262144 = 8 ∧ x / 262144 < disk.groups then sector else disk.content x := by
  have hle := disk.groups_le
  have haddr : ∀ i, i < disk.groups → ((spb.sFirstDataBlock + 1) * sectorsPerBlock +
      UInt32.ofNat i * blockPerGroup * sectorsPerBlock).toNat = 262144 * i + 8 := by
    intro i hi
    rw [h0]
    simp
    omega
  have hw := content_writeEach_copies _ sector (by decide) haddr 0 x
  rw [Nat.sub_zero, ← List.range_eq_range'] at hw
  rw [writeDescSectors, Disk.operations_eq, hw]
  simp

end Copies

end Ext2Fs
