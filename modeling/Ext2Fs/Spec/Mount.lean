import Ext2Fs.Spec.CreateRoot

/-!
# A mounted file system

The descriptors that `read_desc` finds, and the state in which `fs_format` followed by `fs_mount`
leaves a disk.
-/

open Reasoning

namespace Ext2Fs

/-! ## read_desc -/

/-- The descriptors in the first descriptor sector. -/
def Ext2Filesystem.descs (fs : Ext2Filesystem) : Vector Ext2GroupDesc 16 :=
  asDescs (fs.disk.content 8)

@[simp] theorem copyDesc_bgBlockBitmap (desc : Ext2GroupDesc) :
    (copyDesc desc).bgBlockBitmap = desc.bgBlockBitmap := rfl

@[simp] theorem copyDesc_bgInodeBitmap (desc : Ext2GroupDesc) :
    (copyDesc desc).bgInodeBitmap = desc.bgInodeBitmap := rfl

@[simp] theorem copyDesc_bgInodeTable (desc : Ext2GroupDesc) :
    (copyDesc desc).bgInodeTable = desc.bgInodeTable := rfl

section ReadDesc

variable (fs : Ext2Filesystem) {g : UInt32}

theorem readSector_descs (h0 : fs.spb.sFirstDataBlock = 0) (hpos : 1 ≤ fs.disk.groups)
    (data : Option Sector) :
    (fs.disk.readSector ((fs.spb.sFirstDataBlock + 1) * sectorsPerBlock) data).2 =
      some (fs.disk.content 8) := by
  have hfit := fs.disk.groups_fit
  refine DiskOperations.readSector_eq data ?_ (show 8 < _ by omega) rfl
  rw [h0]
  rfl

theorem readDesc_of_sectors (h0 : fs.spb.sFirstDataBlock = 0)
    (hin : 8 < fs.disk.numberOfSectors.toNat) {k : Nat} (hg : g.toNat = k) (hk : k < 16) :
    readDesc fs g = some (copyDesc fs.descs[k]) := by
  subst hg
  rw [readDesc, DiskOperations.readSector_eq none (descSector_toNat h0) hin rfl,
    Option.bind_eq_bind, Option.bind_some, loadAt_of_lt _ hk]
  rfl

theorem readDesc_of_lt (h0 : fs.spb.sFirstDataBlock = 0) (hpos : 1 ≤ fs.disk.groups) {k : Nat}
    (hg : g.toNat = k) (hk : k < 16) : readDesc fs g = some (copyDesc fs.descs[k]) := by
  have hfit := fs.disk.groups_fit
  exact readDesc_of_sectors fs h0 (by omega) hg hk

-- Past the sixteenth group the descriptor is read from outside the sector buffer.
theorem readDesc_of_ge (hg : 16 ≤ g.toNat) : readDesc fs g = none := by
  rw [readDesc]
  cases (fs.disk.readSector ((fs.spb.sFirstDataBlock + 1) * sectorsPerBlock) none).2 with
  | none => rfl
  | some sector =>
    rw [Option.bind_eq_bind, Option.bind_some, loadAt_of_ge _ hg]
    rfl

end ReadDesc

/-! ## Formatting and mounting -/

/-- `fs` and `root` are what formatting and mounting the disk gives. -/
def Mounted (disk : DiskOperations) (fs : Ext2Filesystem) (root : Ext2Node) : Prop :=
  formatAndMount disk = .ok (some (fs, root))

/-- The node of the root directory after a mount. -/
def rootNode : Ext2Node where
  entry := { dirEntry 2 slashName with name := blankName (dirEntry 2 slashName).name }
  inodeNum := 2

-- What a mount that succeeds gives: the disk as it is.
theorem ext2ReadSuperblock_ok {disk : DiskOperations} {fs : Ext2Filesystem} {root : Ext2Node}
    (h : ext2ReadSuperblock disk = .ok (some (fs, root))) :
    fs.disk = disk ∧ root.inodeNum = 2 := by
  unfold ext2ReadSuperblock at h
  split at h
  · rcases bind_eq_ok.mp h with ⟨desc, -, h⟩
    rcases bind_eq_ok.mp h with ⟨sector, -, h⟩
    rcases bind_eq_ok.mp h with ⟨entry, -, h⟩
    cases h
    exact ⟨rfl, rfl⟩
  · cases h

-- Mounting a disk whose root directory sector is at the place that descriptor 0 gives.
theorem ext2ReadSuperblock_eq (disk : DiskOperations) (hpos : 1 ≤ disk.groups)
    (h0 : (asSuperBlock (disk.content 0)).sFirstDataBlock = 0)
    (hper : (asSuperBlock (disk.content 0)).sInodesPerGroup = 1024)
    (htable : (getElem (asDescs (disk.content 8)) 0 firstRecord_lt).bgInodeTable.toNat < 1000)
    (hdir : disk.content
      (8 * ((getElem (asDescs (disk.content 8)) 0 firstRecord_lt).bgInodeTable.toNat + 32)) =
      asEntries.symm rootEntries) :
    ext2ReadSuperblock disk =
      .ok (some ({ spb := asSuperBlock (disk.content 0), disk := disk }, rootNode)) := by
  have hfit := disk.groups_fit
  have hread : disk.readSector 0 none = (0, some (disk.content 0)) :=
    DiskOperations.readSector_of_lt none (by rw [UInt32.toNat_zero]; omega)
  have hdesc : readDesc ⟨asSuperBlock (disk.content 0), disk⟩ 0 =
      some (copyDesc (asDescs (disk.content 8))[0]) :=
    readDesc_of_lt ⟨asSuperBlock (disk.content 0), disk⟩ h0 hpos UInt32.toNat_zero (by decide)
  have hroot : (disk.readSector (((asSuperBlock (disk.content 0)).sFirstDataBlock +
      (asDescs (disk.content 8))[0].bgInodeTable + inodeTableBlocks (asSuperBlock (disk.content 0)))
        * sectorsPerBlock) none).2 = some (asEntries.symm rootEntries) := by
    refine DiskOperations.readSector_eq none ?_ ?_ hdir
    · rw [h0, inodeTableBlocks_eq hper]
      simp
      omega
    · omega
  have hload : loadAt asEntries (asEntries.symm rootEntries) 0 = some (dirEntry 2 slashName) := by
    rw [loadAt_of_lt _ (by decide), Equiv.apply_symm_apply, rootEntries,
      getElem_entriesOf _ (by decide)]
    rfl
  unfold ext2ReadSuperblock
  rw [hread]
  simp only [hdesc, determinate_some, ok_bind, copyDesc_bgInodeTable, hroot, hload]
  rfl

theorem mounted_of_formatted {disk disk' : DiskOperations} {r : Int}
    (hformat : ext2Format disk = .ok (r, disk')) {fs : Ext2Filesystem} {root : Ext2Node}
    (hmount : ext2ReadSuperblock disk' = .ok (some (fs, root))) : Mounted disk fs root := by
  rw [Mounted, formatAndMount, hformat, ok_bind]
  exact hmount

theorem mounted_unique {disk : DiskOperations} {fs₁ fs₂ : Ext2Filesystem} {root₁ root₂ : Ext2Node}
    (h₁ : Mounted disk fs₁ root₁) (h₂ : Mounted disk fs₂ root₂) : fs₁ = fs₂ ∧ root₁ = root₂ := by
  rw [Mounted, h₁] at h₂
  cases h₂
  exact ⟨rfl, rfl⟩

/-- The file system that mounting a formatted disk of at most sixteen groups gives. -/
def newFs (old disk : DiskOperations) : Ext2Filesystem where
  spb := countRootSb old.newSb
  disk := disk

@[simp] theorem newFs_disk (old disk : DiskOperations) : (newFs old disk).disk = disk := rfl

theorem newFs_groups {old disk : DiskOperations} (h : Formatted old disk) :
    (newFs old disk).disk.groups = old.groups := groups_congr h.sectors_eq

theorem newFs_descs {old disk : DiskOperations} (h : Formatted old disk) (hpos : 1 ≤ old.groups) :
    (newFs old disk).descs = newDescs old.groups := by
  have hd := h.descs 0 hpos
  rw [show 262144 * 0 + 8 = 8 from rfl] at hd
  change asDescs (disk.content 8) = _
  rw [hd, Equiv.apply_symm_apply]

-- Each group has its structures at the blocks of the first one; the entries behind the last group
-- are zeroed.
theorem newFs_desc {old disk : DiskOperations} (h : Formatted old disk) (hpos : 1 ≤ old.groups)
    {g : Nat} (hk : g < 16) : (newFs old disk).descs[g] =
      if g = 0 then countRoot newDesc
      else if g < old.groups then newDesc else Ext2GroupDesc.zero := by
  simp only [newFs_descs h hpos]
  exact getElem_newDescs hk

-- the fields that are the same in the descriptor of the root's group
theorem newFs_field {β : Type} {old disk : DiskOperations} (h : Formatted old disk)
    (hpos : 1 ≤ old.groups) (field : Ext2GroupDesc → β)
    (hkeep : field (countRoot newDesc) = field newDesc) {g : Nat} (hk : g < 16)
    (hg : g < old.groups) : field (newFs old disk).descs[g] = field newDesc := by
  rw [newFs_desc h hpos hk, if_pos hg]
  split
  · exact hkeep
  · rfl

theorem exists_mounted {disk : DiskOperations} (hpos : 1 ≤ disk.groups) (hfew : disk.groups ≤ 16) :
    ∃ disk', Formatted disk disk' ∧ Mounted disk (newFs disk disk') rootNode := by
  obtain ⟨disk', hformat, h⟩ := ext2Format_formatted hpos hfew
  have hsb : asSuperBlock (disk'.content 0) = countRootSb disk.newSb := by
    have hs := h.superBlock 0 hpos
    rw [show 262144 * 0 = 0 from rfl] at hs
    rw [hs, Equiv.apply_symm_apply]
  have hdesc : (asDescs (disk'.content 8))[0] = countRoot newDesc := by
    have hd := h.descs 0 hpos
    rw [show 262144 * 0 + 8 = 8 from rfl] at hd
    rw [hd, Equiv.apply_symm_apply, getElem_newDescs (by decide), if_pos rfl]
  have hmount := ext2ReadSuperblock_eq disk' (by rw [groups_congr h.sectors_eq]; exact hpos)
    (by rw [hsb]; rfl) (by rw [hsb]; rfl) (by rw [hdesc]; decide) (by rw [hdesc]; exact h.rootDir)
  rw [hsb] at hmount
  exact ⟨disk', h, mounted_of_formatted hformat hmount⟩

/-- The file system that mounting a formatted disk of more than sixteen groups gives. -/
def largeFs (old disk : DiskOperations) (count : UInt32) : Ext2Filesystem where
  spb := (countRootSb old.newSb).withBlocksCount count
  disk := disk

@[simp] theorem largeFs_disk (old disk : DiskOperations) (count : UInt32) :
    (largeFs old disk count).disk = disk := rfl

-- On more than sixteen groups the mounted superblock differs from the written one in its block
-- count, and descriptor 0 says that every structure is at block 0.
theorem exists_mounted_large {disk : DiskOperations} (hmany : 16 < disk.groups) :
    ∃ disk' count, FormattedLarge disk disk' ∧
      disk'.content 0 = asSuperBlock.symm (largeFs disk disk' count).spb ∧
      Mounted disk (largeFs disk disk' count) rootNode := by
  obtain ⟨disk', hformat, h⟩ := ext2Format_formattedLarge hmany
  obtain ⟨count, hcount⟩ := superBlock_set (countRootSb disk.newSb)
    ((asSuperBlock.symm (countRootSb disk.newSb))[4] ||| bitMask 0)
  have hbits : disk'.content 0 = asSuperBlock.symm (largeFs disk disk' count).spb := by
    have hset := h.superBlock
    rw [setBit_of_lt (by decide), Except.ok.injEq] at hset
    rw [← hset]
    exact hcount
  have hsb : asSuperBlock (disk'.content 0) = (largeFs disk disk' count).spb := by
    rw [hbits, Equiv.apply_symm_apply]
  have hdesc : (asDescs (disk'.content 8))[0] = countRoot Ext2GroupDesc.zero := by
    have hd := h.descs 0 (by omega)
    rw [show 262144 * 0 + 8 = 8 from rfl] at hd
    rw [hd, Equiv.apply_symm_apply, Vector.getElem_set_self]
  have hmount := ext2ReadSuperblock_eq disk' (by rw [groups_congr h.sectors_eq]; omega)
    (by rw [hsb]; rfl) (by rw [hsb]; rfl) (by rw [hdesc]; decide) (by rw [hdesc]; exact h.rootDir)
  rw [hsb] at hmount
  exact ⟨disk', count, h, hbits, mounted_of_formatted hformat hmount⟩

/-- A disk of zeroed sectors. -/
def zeroedDisk (numberOfSectors : UInt32) : DiskOperations :=
  DiskOperations.ofContents numberOfSectors fun _ ↦ zeroSector

end Ext2Fs
