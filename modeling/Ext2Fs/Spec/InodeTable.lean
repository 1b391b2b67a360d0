import Ext2Fs.Spec.Alloc
import Ext2Fs.Model.Inode

/-!
# Readers and writers of the inode table

`ext2_fill_inode` loads the first sector of a group's table and indexes it by the number within the
group; `insert_inode` loads the sector that it computes from a block and a sector of the table.
-/

open Reasoning

namespace Ext2Fs

/-! ## ext2_fill_inode -/

section Fill

variable {fs : Ext2Filesystem} {n : UInt32} {g : Nat}

theorem fillInodeTableSector_toNat {desc : Ext2GroupDesc} {groupNum : UInt32} {table : Nat}
    (hnum : groupNum.toNat = g) (htable : desc.bgInodeTable.toNat = table)
    (hlt : 262144 * g + 8 * table < 2 ^ 32) :
    (fillInodeTableBlock desc groupNum * sectorsPerBlock).toNat = 262144 * g + 8 * table := by
  rw [fillInodeTableBlock, UInt32.toNat_mul, UInt32.toNat_add, UInt32.toNat_mul, hnum, htable]
  simp
  omega

theorem inodeEntry_of_sectors (h0 : fs.spb.sFirstDataBlock = 0)
    (hdesc : 8 < fs.disk.numberOfSectors.toNat) (hgroup : n.toNat / 1024 = g) (hk : g < 16)
    {table : Nat} (htable : fs.descs[g].bgInodeTable.toNat = table)
    (hin : 262144 * g + 8 * table < fs.disk.numberOfSectors.toNat) :
    inodeEntry fs n =
      loadAt asInodes (fs.disk.content (262144 * g + 8 * table)) (n.toNat % 1024) := by
  have hlt := fs.disk.numberOfSectors.toNat_lt
  have hnum := groupNum_toNat hgroup
  have hcopy : (copyDesc fs.descs[g]).bgInodeTable.toNat = table := by
    rw [copyDesc_bgInodeTable, htable]
  have haddr := fillInodeTableSector_toNat hnum hcopy (by omega)
  have hread := DiskOperations.readSector_eq none haddr hin rfl
  have hslot : (n % inodesPerGroup).toNat = n.toNat % 1024 := by simp
  rw [inodeEntry, readDesc_of_sectors fs h0 hdesc hnum hk, Option.bind_eq_bind, Option.bind_some,
    hread, Option.bind_eq_bind, Option.bind_some, hslot]

theorem inodeEntry_eq (h0 : fs.spb.sFirstDataBlock = 0) (hgroup : n.toNat / 1024 = g)
    (hg : g < fs.disk.groups) (hk : g < 16) (htable : fs.descs[g].bgInodeTable.toNat < 1000) :
    inodeEntry fs n =
      loadAt asInodes (fs.disk.content (262144 * g + 8 * fs.descs[g].bgInodeTable.toNat))
        (n.toNat % 1024) := by
  have hdesc := fs.disk.sector_lt hg (show 8 < 262144 by decide)
  have hin := fs.disk.sector_lt hg (show 8 * fs.descs[g].bgInodeTable.toNat < 262144 by omega)
  exact inodeEntry_of_sectors h0 (by omega) hgroup hk rfl hin

theorem inodeEntry_of_ge (hgroup : 16 ≤ n.toNat / 1024) : inodeEntry fs n = none := by
  have hnum : 16 ≤ (n / inodesPerGroup).toNat := by
    simp
    omega
  unfold inodeEntry
  simp only [readDesc_of_ge fs hnum]
  rfl

-- Behind the first sector of the table the entry is read from outside the buffer.
theorem inodeEntry_of_slot (hslot : 4 ≤ (n % inodesPerGroup).toNat) : inodeEntry fs n = none := by
  rw [inodeEntry, Option.bind_eq_bind, Option.bind_eq_none_iff]
  intro desc _
  rw [Option.bind_eq_bind, Option.bind_eq_none_iff]
  intro sector _
  exact loadAt_of_ge asInodes hslot

-- The entry depends on the place of the table and on the sector there.
theorem inodeEntry_congr {fs' : Ext2Filesystem} (h0 : fs.spb.sFirstDataBlock = 0)
    (h0' : fs'.spb.sFirstDataBlock = 0) (hpos : 1 ≤ fs.disk.groups)
    (hn : fs'.disk.numberOfSectors = fs.disk.numberOfSectors) (hgroup : n.toNat / 1024 = g)
    (hk : g < 16) (htable : fs'.descs[g].bgInodeTable = fs.descs[g].bgInodeTable)
    (hsmall : fs.descs[g].bgInodeTable.toNat < 1000)
    (hcontent : fs'.disk.content (262144 * g + 8 * fs.descs[g].bgInodeTable.toNat) =
      fs.disk.content (262144 * g + 8 * fs.descs[g].bgInodeTable.toNat)) :
    inodeEntry fs' n = inodeEntry fs n := by
  have hnum := groupNum_toNat hgroup
  have hpos' : 1 ≤ fs'.disk.groups := by
    rw [groups_congr hn]
    exact hpos
  have hblock : fillInodeTableBlock (copyDesc fs'.descs[g]) (n / inodesPerGroup) =
      fillInodeTableBlock (copyDesc fs.descs[g]) (n / inodesPerGroup) := by
    unfold fillInodeTableBlock
    rw [copyDesc_bgInodeTable, copyDesc_bgInodeTable, htable]
  have haddr := fillInodeTableSector_toNat hnum (congrArg UInt32.toNat
    (copyDesc_bgInodeTable fs.descs[g])) (by omega)
  rw [← haddr] at hcontent
  have hread := DiskOperations.readSector_congr hn hcontent none
  rw [inodeEntry, readDesc_of_lt fs' h0' hpos' hnum hk, Option.bind_eq_bind, Option.bind_some,
    hblock, hread, inodeEntry, readDesc_of_lt fs h0 hpos hnum hk, Option.bind_eq_bind,
    Option.bind_eq_bind, Option.bind_some]

theorem pointersFilled_pos (blocks : UInt32) : 0 < pointersFilled blocks := by
  unfold pointersFilled
  split
  · rename_i h
    exact UInt32.le_iff_toNat_le.mp h.1
  · split
    · decide
    · split <;> decide

/-- The three fields that are compared below. -/
structure FillsAs (inode : InodeVar) (entry : Ext2Inode) : Prop where
  iMode : inode.iMode = some entry.iMode
  iBlocks : inode.iBlocks = some entry.iBlocks
  iBlock : getElem inode.iBlock 0 pointer_lt = some (getElem entry.iBlock 0 pointer_lt)

theorem ext2FillInode_some {entry : Ext2Inode} (h : inodeEntry fs n = some entry)
    (inode : InodeVar) : FillsAs (ext2FillInode fs inode n) entry := by
  unfold ext2FillInode
  rw [h]
  refine ⟨rfl, rfl, ?_⟩
  simp [pointersFilled_pos]

-- The function never looks at the size.
theorem ext2FillInode_iSize (fs : Ext2Filesystem) (inode : InodeVar) (n : UInt32) :
    (ext2FillInode fs inode n).iSize = inode.iSize := by
  unfold ext2FillInode
  split <;> rfl

-- From outside the buffer nothing definite is filled in.
theorem ext2FillInode_none (h : inodeEntry fs n = none) (inode : InodeVar) :
    ext2FillInode fs inode n =
      { inode with iMode := none, iBlocks := none, iBlock := Vector.replicate 15 none } := by
  unfold ext2FillInode
  rw [h]

end Fill

/-! ## The table as it is laid out -/

/-- Inode `n`: the records of a group stand one after the other, from the block that the descriptor
gives. -/
def tableSlot (fs : Ext2Filesystem) (n : UInt32) : Option Ext2Inode := do
  let desc ← readDesc fs (n / inodesPerGroup)
  let sector ← (fs.disk.readSector (fillInodeTableBlock desc (n / inodesPerGroup) * sectorsPerBlock +
    n % inodesPerGroup / 4) none).2
  loadAt asInodes sector (n % inodesPerGroup % 4).toNat

theorem inodeSlot_lt (n : Nat) : n % 4 < 4 := Nat.mod_lt n (by decide)

/-- The block of the inode table that the descriptor of the group of `n` names. -/
def recordedTable (fs : Ext2Filesystem) (n : UInt32) : Nat :=
  (getElem (asDescs (fs.disk.content (8 + n.toNat / 1024 / 16))) (n.toNat / 1024 % 16)
    (record_lt (n.toNat / 1024))).bgInodeTable.toNat

/-- The record of inode `n` in the table of its group. -/
def recordedInode (fs : Ext2Filesystem) (n : UInt32) : Ext2Inode :=
  getElem (asInodes (fs.disk.content (262144 * (n.toNat / 1024) + 8 * recordedTable fs n +
    n.toNat % 1024 / 4))) (n.toNat % 4) (inodeSlot_lt n.toNat)

-- A record in the first sector of one of the first tables is the one that is looked at.
theorem inodeEntry_recorded {fs : Ext2Filesystem} {n : UInt32} (h0 : fs.spb.sFirstDataBlock = 0)
    (hin : 262144 * (n.toNat / 1024 + 1) ≤ fs.disk.numberOfSectors.toNat)
    (htable : recordedTable fs n + 32 ≤ 32768) (hgroup : n.toNat / 1024 < 16)
    (hslot : n.toNat % 1024 < 4) : inodeEntry fs n = some (recordedInode fs n) := by
  have hsector : 8 + n.toNat / 1024 / 16 = 8 := by omega
  have hindex : n.toNat / 1024 % 16 = n.toNat / 1024 := by omega
  have hdesc : fs.descs[n.toNat / 1024].bgInodeTable.toNat = recordedTable fs n := by
    simp only [recordedTable, Ext2Filesystem.descs, hsector, hindex]
  rw [inodeEntry_of_sectors h0 (by omega) rfl hgroup hdesc (by omega),
    show n.toNat % 1024 = n.toNat % 4 by omega, loadAt_of_lt _ (inodeSlot_lt n.toNat),
    recordedInode]
  simp only [show n.toNat % 1024 / 4 = 0 by omega, Nat.add_zero]

theorem tableSlot_eq {fs : Ext2Filesystem} (h0 : fs.spb.sFirstDataBlock = 0) {n : UInt32} {g : Nat}
    (hgroup : n.toNat / 1024 = g) (hg : g < fs.disk.groups) (hk : g < 16) {table : Nat}
    (htable : fs.descs[g].bgInodeTable.toNat = table) (hsmall : table < 1000) :
    tableSlot fs n = loadAt asInodes
      (fs.disk.content (262144 * g + 8 * table + n.toNat % 1024 / 4)) (n.toNat % 4) := by
  have hin := fs.disk.sector_lt hg (show 8 * table + n.toNat % 1024 / 4 < 262144 by omega)
  have hnum := groupNum_toNat hgroup
  have haddr : (fillInodeTableBlock (copyDesc fs.descs[g]) (n / inodesPerGroup) * sectorsPerBlock +
      n % inodesPerGroup / 4).toNat = 262144 * g + 8 * table + n.toNat % 1024 / 4 := by
    rw [UInt32.toNat_add, fillInodeTableBlock, UInt32.toNat_mul, UInt32.toNat_add, UInt32.toNat_mul,
      hnum, copyDesc_bgInodeTable, htable]
    simp
    omega
  have hread := DiskOperations.readSector_eq none haddr
    (show _ < fs.disk.numberOfSectors.toNat by omega) rfl
  have hslot : (n % inodesPerGroup % 4).toNat = n.toNat % 4 := by simp
  rw [tableSlot, readDesc_of_lt fs h0 (by omega) hnum hk, Option.bind_eq_bind, Option.bind_some,
    hread, Option.bind_eq_bind, Option.bind_some, hslot]

/-! ## insert_inode -/

/-- The sector of slot `n` for `insert_inode`: the block of the table is added to the sector within
the table, not to the sector within the block. -/
def insertSector (table n : Nat) : Nat :=
  262144 * (n / 1024) + 8 * (table + n % 1024 / 32) + n % 1024 / 4

section Insert

variable {fs : Ext2Filesystem} {node : Ext2Node} {n : UInt32} {g : Nat}

theorem insertInodeSector_toNat {desc : Ext2GroupDesc} {table : Nat}
    (htable : desc.bgInodeTable.toNat = table) (hsmall : table < 1000)
    (hgroup : n.toNat / 1024 < 32) :
    (insertInodeSector desc n).toNat = insertSector table n.toNat := by
  subst htable
  unfold insertInodeSector insertInodeTableBlock insertSector
  simp
  omega

theorem insertSector_lt {disk : DiskOperations} {table n : Nat} (hsmall : table < 1000)
    (hg : n / 1024 < disk.groups) : insertSector table n < disk.numberOfSectors.toNat := by
  have hin := disk.sector_lt hg
    (show 8 * (table + n % 1024 / 32) + n % 1024 / 4 < 262144 by omega)
  unfold insertSector
  omega

variable (h0 : fs.spb.sFirstDataBlock = 0) (hgroup : n.toNat / 1024 = g)
  (hg : g < fs.disk.groups) (hk : g < 16) {table : Nat}
  (htable : fs.descs[g].bgInodeTable.toNat = table) (hsmall : table < 1000)

/-- The sector that `insert_inode` writes back when it changes the slot by `f`. -/
def insertedSector (fs : Ext2Filesystem) (table n : Nat) (f : Ext2Inode → Ext2Inode) : Sector :=
  updateAt asInodes (fs.disk.content (insertSector table n)) (n % 4) f

/-- The state `fs₁` with that sector, which was loaded in the state `fs`. -/
def slotWritten (fs fs₁ : Ext2Filesystem) (desc : Ext2GroupDesc) (n : UInt32) (table : Nat)
    (f : Ext2Inode → Ext2Inode) : Ext2Filesystem where
  spb := fs₁.spb
  disk := fs₁.disk.writeSector (insertInodeSector desc n) (insertedSector fs table n.toNat f)

-- not by `rfl`, which leaves the kernel to compare the two disks first
theorem slotWritten_spb (fs fs₁ : Ext2Filesystem) (desc : Ext2GroupDesc) (n : UInt32) (table : Nat)
    (f : Ext2Inode → Ext2Inode) : (slotWritten fs fs₁ desc n table f).spb = fs₁.spb := by
  rw [slotWritten]

theorem slotWritten_disk (fs fs₁ : Ext2Filesystem) (desc : Ext2GroupDesc) (n : UInt32) (table : Nat)
    (f : Ext2Inode → Ext2Inode) : (slotWritten fs fs₁ desc n table f).disk =
      fs₁.disk.writeSector (insertInodeSector desc n) (insertedSector fs table n.toNat f) := rfl

theorem slotWritten_numberOfSectors (fs fs₁ : Ext2Filesystem) (desc : Ext2GroupDesc) (n : UInt32)
    (table : Nat) (f : Ext2Inode → Ext2Inode) :
    (slotWritten fs fs₁ desc n table f).disk.numberOfSectors = fs₁.disk.numberOfSectors := by
  rw [slotWritten_disk, DiskOperations.numberOfSectors_writeSector]

include hgroup hg hk htable hsmall

theorem content_slotWritten {fs₁ : Ext2Filesystem}
    (hn : fs₁.disk.numberOfSectors = fs.disk.numberOfSectors) (f : Ext2Inode → Ext2Inode) (x : Nat) :
    (slotWritten fs fs₁ (copyDesc fs.descs[g]) n table f).disk.content x =
      if x = insertSector table n.toNat then insertedSector fs table n.toNat f
      else fs₁.disk.content x := by
  have hle := fs.disk.groups_le
  have haddr : (insertInodeSector (copyDesc fs.descs[g]) n).toNat = insertSector table n.toNat :=
    insertInodeSector_toNat (by rw [copyDesc_bgInodeTable, htable]) hsmall (by omega)
  have hin := insertSector_lt hsmall (show n.toNat / 1024 < fs.disk.groups by omega)
  rw [slotWritten_disk, DiskOperations.content_writeSector _ (by rw [haddr, hn]; exact hin), haddr]

include h0

theorem insertInode_eq (node : Ext2Node) (mode : UInt16) :
    insertInode fs node n mode =
      if mode = attrArchive then
        .ok (ext2Success, slotWritten fs fs (copyDesc fs.descs[g]) n table initFileInode)
      else do
        let (datablock, fs₁) ← allocFreeBlock fs node
        if datablock = ext2Error then
          return (ext2Error, fs₁)
        else
          return (datablock, slotWritten fs fs₁ (copyDesc fs.descs[g]) n table
            (setDatablock (UInt32.ofInt datablock) ∘ initDirInode)) := by
  have hle := fs.disk.groups_le
  have haddr : (insertInodeSector (copyDesc fs.descs[g]) n).toNat = insertSector table n.toNat :=
    insertInodeSector_toNat (by rw [copyDesc_bgInodeTable, htable]) hsmall (by omega)
  have hin := insertSector_lt hsmall (show n.toNat / 1024 < fs.disk.groups by omega)
  have hread := DiskOperations.readSector_eq none haddr hin rfl
  have hnum := groupNum_toNat hgroup
  have hslot : (n % inodesPerGroup % 4).toNat = n.toNat % 4 := by simp
  have hmod : n.toNat % 4 < 4 := Nat.mod_lt _ (by decide)
  unfold insertInode
  simp only [readDesc_of_lt fs h0 (by omega) hnum hk, determinate_some, ok_bind, hread, hslot]
  by_cases hmode : mode = attrArchive
  · rw [if_pos hmode, if_pos hmode, modifyAt_eq_updateAt _ _ hmod, ok_bind]
    rfl
  · rw [if_neg hmode, if_neg hmode, modifyAt_eq_updateAt _ _ hmod, ok_bind]
    refine bind_congr_ok fun r _ ↦ ?_
    by_cases herr : r.1 = ext2Error
    · simp only [herr, if_true]
    · simp only [herr, if_false]
      rw [modifyAt_eq_updateAt _ _ hmod, ok_bind, updateAt_updateAt]
      rfl

theorem insertInode_archive (node : Ext2Node) :
    ∃ fs', insertInode fs node n attrArchive = .ok (ext2Success, fs') ∧ fs'.spb = fs.spb ∧
      fs'.disk.numberOfSectors = fs.disk.numberOfSectors ∧
      ∀ x, fs'.disk.content x =
        if x = insertSector table n.toNat then insertedSector fs table n.toNat initFileInode
        else fs.disk.content x := by
  have hrun := insertInode_eq h0 hgroup hg hk htable hsmall node attrArchive
  rw [if_pos rfl] at hrun
  exact ⟨_, hrun, slotWritten_spb _ _ _ _ _ _, slotWritten_numberOfSectors _ _ _ _ _ _,
    content_slotWritten hgroup hg hk htable hsmall rfl _⟩

-- A directory gets a block, and the sector loaded before the allocation is written after it.
theorem insertInode_directory {mode : UInt16} (hmode : mode ≠ attrArchive) {block : Nat}
    {fs₁ : Ext2Filesystem} (halloc : allocFreeBlock fs node = .ok ((block : Int), fs₁))
    (hn : fs₁.disk.numberOfSectors = fs.disk.numberOfSectors) :
    ∃ fs', insertInode fs node n mode = .ok ((block : Int), fs') ∧ fs'.spb = fs₁.spb ∧
      fs'.disk.numberOfSectors = fs.disk.numberOfSectors ∧
      ∀ x, fs'.disk.content x =
        if x = insertSector table n.toNat then
          insertedSector fs table n.toNat (setDatablock (UInt32.ofNat block) ∘ initDirInode)
        else fs₁.disk.content x := by
  have hrun := insertInode_eq h0 hgroup hg hk htable hsmall node mode
  have hblock : (block : Int) ≠ ext2Error := by
    rw [ext2Error]
    omega
  rw [if_neg hmode, halloc, ok_bind] at hrun
  simp only [hblock, if_false, ofInt_natCast] at hrun
  exact ⟨_, hrun, slotWritten_spb _ _ _ _ _ _,
    (slotWritten_numberOfSectors _ _ _ _ _ _).trans hn,
    content_slotWritten hgroup hg hk htable hsmall hn _⟩

theorem insertInode_of_allocFreeBlock_error {mode : UInt16} (hmode : mode ≠ attrArchive)
    {u : Undefined} (halloc : allocFreeBlock fs node = .error u) :
    insertInode fs node n mode = .error u := by
  rw [insertInode_eq h0 hgroup hg hk htable hsmall node mode, if_neg hmode, halloc, error_bind]

end Insert

-- Past the sixteenth group the descriptor is outside the buffer, and so undefined.
theorem insertInode_of_ge {fs : Ext2Filesystem} {n : UInt32} (hgroup : 16 ≤ n.toNat / 1024)
    (node : Ext2Node) (mode : UInt16) : insertInode fs node n mode = .error .indeterminate := by
  have hnum : 16 ≤ (n / inodesPerGroup).toNat := by
    simp
    omega
  unfold insertInode
  rw [readDesc_of_ge fs hnum, determinate_none, error_bind]

end Ext2Fs
