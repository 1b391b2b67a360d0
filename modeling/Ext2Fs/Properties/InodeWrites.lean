import Ext2Fs.Properties.FreshMount
import Ext2Fs.Properties.InodeTable
import Ext2Fs.Spec.AllocSteps

/-!
# Where insert_inode writes

The sector that `insert_inode` reads and writes back, for every inode number of a formatted disk.
-/

open Reasoning

namespace Ext2Fs

/-! ## Slots of the inode table -/

/-- The sector that `insert_inode` uses for an inode, and the record in it. -/
def insertSlot (fs : Ext2Filesystem) (inodeNum : UInt32) : Option (Nat × Nat) := do
  let desc ← readDesc fs (inodeNum / inodesPerGroup)
  return ((insertInodeSector desc inodeNum).toNat, (inodeNum % inodesPerGroup % 4).toNat)

/-- Of the sectors only this one changes, and of its records only one. -/
structure SlotChanged (fs fs' : Ext2Filesystem) (sector slot : Nat) : Prop where
  spb_eq : fs'.spb = fs.spb
  written : ∃ f, fs'.disk.content sector = updateAt asInodes (fs.disk.content sector) slot f
  others : ∀ x, x ≠ sector → fs'.disk.content x = fs.disk.content x

/-- `insert_inode` writes one sector and no other; a directory gets its block before that. -/
structure WritesSlot (fs : Ext2Filesystem) (n : UInt32) (sector : Nat) : Prop where
  address : insertSlot fs n = some (sector, n.toNat % 4)
  archive : ∀ node, ∃ fs', insertInode fs node n attrArchive = .ok (ext2Success, fs') ∧
    SlotChanged fs fs' sector (n.toNat % 4)
  directory : ∀ node mode block fs₁, mode ≠ attrArchive →
    allocFreeBlock fs node = .ok (block, fs₁) →
    ∃ fs', insertInode fs node n mode = .ok (block, fs') ∧ (block = ext2Error → fs' = fs₁) ∧
      (block ≠ ext2Error → SlotChanged fs₁ fs' sector (n.toNat % 4))

/-- The sector holds byte `128 * (n % 1024)` of the inode table of the group of `n`, and belongs to
none of the bitmaps and to no block of a directory or file. -/
structure InTable (fs : Ext2Filesystem) (n sector : Nat) : Prop where
  place : sector = 262144 * (n / 1024) +
    8 * (fs.disk.storedDesc 0 (n / 1024)).bgInodeTable.toNat + 128 * (n % 1024) / 512
  inside : sector < 262144 * (n / 1024) +
    8 * ((fs.disk.storedDesc 0 (n / 1024)).bgInodeTable.toNat + 32)
  notBlockBitmap : ∀ g, g < fs.disk.groups →
    sector / 8 % 32768 ≠ (fs.disk.storedDesc 0 g).bgBlockBitmap.toNat
  notInodeBitmap : ∀ g, g < fs.disk.groups →
    sector / 8 % 32768 ≠ (fs.disk.storedDesc 0 g).bgInodeBitmap.toNat
  notData : sector / 8 % 32768 < (firstDirBlock fs).toNat

def InodeWriteStays (fs : Ext2Filesystem) (n : UInt32) : Prop :=
  ∃ sector, WritesSlot fs n sector ∧ InTable fs n.toNat sector ∧
    ∀ m : UInt32, m.toNat < 1024 * fs.disk.groups → insertSlot fs m = insertSlot fs n → m = n

/-! ## The sector that is computed -/

section Address

variable {fs : Ext2Filesystem} {table : Nat}

theorem TableAt.insertSlot_eq (h : TableAt fs table) {n : UInt32}
    (hn : n.toNat < 1024 * fs.disk.groups) (hk : n.toNat < 16384) :
    insertSlot fs n = some (insertSector table n.toNat, n.toNat % 4) := by
  have hslot : (n % inodesPerGroup % 4).toNat = n.toNat % 4 := by simp
  rcases h.readDesc_insert hn hk with ⟨desc, hdesc, haddr⟩
  rw [insertSlot, hdesc, Option.bind_eq_bind, Option.bind_some, haddr, hslot]
  rfl

theorem insertSlot_of_ge {n : UInt32} (hn : 16384 ≤ n.toNat) : insertSlot fs n = none := by
  have hnum : 16 ≤ (n / inodesPerGroup).toNat := by
    simp
    omega
  rw [insertSlot, readDesc_of_ge fs hnum]
  rfl

-- The block is counted twice, but no two inodes come to share a slot.
theorem insertSector_inj {n m : Nat} (hsector : insertSector table n = insertSector table m)
    (hslot : n % 4 = m % 4) : n = m := by
  unfold insertSector at hsector
  omega

-- Block 0 of the table is counted twice without harm.
theorem insertSector_eq_iff {n : Nat} :
    insertSector table n = 262144 * (n / 1024) + 8 * table + 128 * (n % 1024) / 512 ↔
      n % 1024 < 32 := by
  unfold insertSector
  omega

theorem TableAt.insertSlot_inj (h : TableAt fs table) {n m : UInt32}
    (hn : n.toNat < 1024 * fs.disk.groups) (hk : n.toNat < 16384)
    (hm : m.toNat < 1024 * fs.disk.groups) (hsame : insertSlot fs m = insertSlot fs n) : m = n := by
  rw [h.insertSlot_eq hn hk] at hsame
  by_cases hk' : m.toNat < 16384
  · rw [h.insertSlot_eq hm hk', Option.some.injEq, Prod.mk.injEq] at hsame
    exact UInt32.toNat_inj.mp (insertSector_inj hsame.1 hsame.2)
  · rw [insertSlot_of_ge (Nat.le_of_not_lt hk')] at hsame
    cases hsame

-- The slot is written, provided that no allocation touches its sector.
theorem TableAt.writesSlot (h : TableAt fs table) {n : UInt32}
    (hn : n.toNat < 1024 * fs.disk.groups) (hk : n.toNat < 16384)
    (hkeep : ∀ node block fs₁, allocFreeBlock fs node = .ok (block, fs₁) →
      fs₁.disk.numberOfSectors = fs.disk.numberOfSectors ∧
      fs₁.disk.content (insertSector table n.toNat) =
        fs.disk.content (insertSector table n.toNat)) :
    WritesSlot fs n (insertSector table n.toNat) := by
  have hgroup : n.toNat / 1024 < 16 := by omega
  have htable := h.table_eq (n.toNat / 1024) hgroup (by omega)
  constructor
  case address => exact h.insertSlot_eq hn hk
  case archive =>
    intro node
    rcases insertInode_archive h.firstDataBlock rfl (by omega) hgroup htable h.table_lt node with
      ⟨fs', hrun, hspb, -, hc⟩
    refine ⟨fs', hrun, hspb, ⟨initFileInode, ?_⟩, fun x hx ↦ ?_⟩
    · rw [hc, if_pos rfl, insertedSector]
    · rw [hc, if_neg hx]
  case directory =>
    intro node mode block fs₁ hmode halloc
    rcases hkeep node block fs₁ halloc with ⟨hsectors, hsame⟩
    have hrun := Ext2Fs.insertInode_eq h.firstDataBlock rfl (by omega) hgroup htable h.table_lt node
      mode
    rw [if_neg hmode, halloc, ok_bind] at hrun
    by_cases herror : block = ext2Error
    · simp only [herror, if_true] at hrun
      exact ⟨fs₁, by rw [hrun, herror]; rfl, fun _ ↦ rfl, fun hne ↦ absurd herror hne⟩
    · simp only [herror, if_false] at hrun
      refine ⟨_, hrun, fun heq ↦ absurd heq herror, fun _ ↦ ?_⟩
      have hc := content_slotWritten rfl (by omega) hgroup htable h.table_lt hsectors
        (setDatablock (UInt32.ofInt block) ∘ initDirInode)
      refine ⟨slotWritten_spb _ _ _ _ _ _,
        ⟨setDatablock (UInt32.ofInt block) ∘ initDirInode, ?_⟩, fun x hx ↦ ?_⟩
      · rw [hc, if_pos rfl, insertedSector, hsame]
      · rw [hc, if_neg hx]

end Address

/-! ## Formatted disks -/

section Formatted

variable {disk disk' : DiskOperations} {n : UInt32}

-- An allocation marks a bit in block 2 or, for a node of no group, in block 0.
theorem allocFreeBlock_keeps_tables (h : Formatted disk disk') (hpos : 1 ≤ disk.groups)
    {node : Ext2Node} {block : Int} {fs₁ : Ext2Filesystem}
    (halloc : allocFreeBlock (newFs disk disk') node = .ok (block, fs₁)) {x : Nat}
    (hlo : 32 ≤ x % 262144) :
    fs₁.disk.numberOfSectors = disk'.numberOfSectors ∧
      fs₁.disk.content x = disk'.content x := by
  have hgroups := newFs_groups h
  rcases allocFreeBlock_cases rfl (show 1 ≤ (newFs disk disk').disk.groups by omega) halloc with
    ⟨-, rfl⟩ | ⟨k, hk, -, m, bits, -, -, hdone⟩
  · exact ⟨rfl, rfl⟩
  · have hmap : ((newFs disk disk').descs[k].bgBlockBitmap * sectorsPerBlock).toNat ≤ 16 := by
      rw [newFs_desc h hpos hk]
      split
      · decide
      · split
        · decide
        · decide
    exact ⟨hdone.sectors_eq, hdone.content_of_ne (by omega) (by omega) (by omega)⟩

theorem inTable_newFs (h : Formatted disk disk') (hn : n.toNat < 1024 * disk.groups)
    (hfew : disk.groups ≤ 16) (hslot : n.toNat % 1024 < 32) :
    InTable (newFs disk disk') n.toNat (insertSector 4 n.toNat) := by
  have hpos : 1 ≤ disk.groups := by omega
  have hgroups := newFs_groups h
  have htable : ((newFs disk disk').disk.storedDesc 0 (n.toNat / 1024)).bgInodeTable.toNat = 4 := by
    rw [storedDesc_zero _ (show n.toNat / 1024 < 16 by omega)]
    exact (tableAt_newFs h).table_eq _ (by omega) (by omega)
  have hblock : insertSector 4 n.toNat / 8 % 32768 = 4 := by
    unfold insertSector
    omega
  constructor
  case place =>
    rw [htable]
    exact insertSector_eq_iff.mpr hslot
  case inside =>
    rw [htable]
    unfold insertSector
    omega
  case notBlockBitmap =>
    intro g hg
    rw [hblock, storedDesc_zero _ (show g < 16 by omega),
      newFs_field h hpos (·.bgBlockBitmap) rfl (by omega) (by omega)]
    decide
  case notInodeBitmap =>
    intro g hg
    rw [hblock, storedDesc_zero _ (show g < 16 by omega),
      newFs_field h hpos (·.bgInodeBitmap) rfl (by omega) (by omega)]
    decide
  case notData =>
    rw [hblock, firstDirBlock_newFs h hpos]
    decide

theorem inodeWriteStays_newFs (h : Formatted disk disk') (hn : n.toNat < 1024 * disk.groups)
    (hfew : disk.groups ≤ 16) :
    InodeWriteStays (newFs disk disk') n ↔ n.toNat % 1024 < 32 := by
  have hgroups := newFs_groups h
  have htab := tableAt_newFs h
  have hn' : n.toNat < 1024 * (newFs disk disk').disk.groups := by omega
  have hk : n.toNat < 16384 := by omega
  constructor
  · intro hstays
    rcases hstays with ⟨sector, hwrites, hin, -⟩
    have haddr := hwrites.address
    rw [htab.insertSlot_eq hn' hk, Option.some.injEq, Prod.mk.injEq] at haddr
    have hplace := hin.place
    rw [storedDesc_zero _ (show n.toNat / 1024 < 16 by omega),
      htab.table_eq _ (by omega) (by omega), ← haddr.1] at hplace
    exact insertSector_eq_iff.mp hplace
  · intro hslot
    refine ⟨_, htab.writesSlot hn' hk ?_, inTable_newFs h hn hfew hslot,
      fun m hm ↦ htab.insertSlot_inj hn' hk hm⟩
    intro node block fs₁ halloc
    apply allocFreeBlock_keeps_tables h (by omega) halloc
    unfold insertSector
    omega

-- With more than sixteen groups table and bitmaps are looked for at block 0.
theorem not_inodeWriteStays_largeFs {count : UInt32} (h : FormattedLarge disk disk')
    (hmany : 16 < disk.groups) (hn : n.toNat < 1024 * disk.groups) :
    ¬ InodeWriteStays (largeFs disk disk' count) n := by
  have hgroups : (largeFs disk disk' count).disk.groups = disk.groups := groups_congr h.sectors_eq
  have htab : TableAt (largeFs disk disk' count) 0 := tableAt_largeFs h hmany
  intro hstays
  rcases hstays with ⟨sector, hwrites, hin, -⟩
  have haddr := hwrites.address
  by_cases hk : n.toNat < 16384
  · rw [htab.insertSlot_eq (by omega) hk, Option.some.injEq, Prod.mk.injEq] at haddr
    have hplace := hin.place
    rw [storedDesc_zero _ (show n.toNat / 1024 < 16 by omega),
      htab.table_eq _ (by omega) (by omega), ← haddr.1] at hplace
    have hslot := insertSector_eq_iff.mp hplace
    have hmap := hin.notBlockBitmap 0 (by omega)
    rw [storedDesc_zero _ (show 0 < 16 by decide), largeFs_desc h (by omega) (by decide),
      if_pos rfl, ← haddr.1] at hmap
    refine hmap (Eq.trans ?_ (show 0 = (countRoot Ext2GroupDesc.zero).bgBlockBitmap.toNat from rfl))
    unfold insertSector
    omega
  · rw [insertSlot_of_ge (Nat.le_of_not_lt hk)] at haddr
    cases haddr

/-- The inode is written in its slot exactly on disks of at most sixteen groups, and there for the
inodes of the first block of a table. -/
theorem inodeWriteStays_iff {fs : Ext2Filesystem} {root : Ext2Node} (hmount : Mounted disk fs root)
    (hn : n.toNat < 1024 * disk.groups) :
    InodeWriteStays fs n ↔ disk.groups ≤ 16 ∧ n.toNat % 1024 < 32 := by
  by_cases hfew : disk.groups ≤ 16
  · rcases exists_mounted (by omega) hfew with ⟨disk', h, hmount'⟩
    rcases mounted_unique hmount hmount' with ⟨rfl, -⟩
    rw [inodeWriteStays_newFs h hn hfew]
    exact ⟨fun hslot ↦ ⟨hfew, hslot⟩, fun hall ↦ hall.2⟩
  · rcases exists_mounted_large (Nat.lt_of_not_le hfew) with ⟨disk', count, h, -, hmount'⟩
    rcases mounted_unique hmount hmount' with ⟨rfl, -⟩
    exact iff_of_false (not_inodeWriteStays_largeFs h (Nat.lt_of_not_le hfew) hn)
      (fun hall ↦ hfew hall.1)

theorem inodeWriteStays_iff_zeroedDisk : ∃ fs root, Mounted (zeroedDisk 262144) fs root ∧
    (InodeWriteStays fs 11 ↔
      (zeroedDisk 262144).groups ≤ 16 ∧ (11 : UInt32).toNat % 1024 < 32) := by
  rcases @exists_mounted (zeroedDisk 262144) (by decide) (by decide) with ⟨disk', -, hmount⟩
  exact ⟨_, _, hmount, inodeWriteStays_iff hmount (by decide)⟩

/-- Inode 512 is written over the first sector of the root directory. -/
theorem not_inodeWriteStays : ∃ fs root, Mounted (zeroedDisk 262144) fs root ∧
    (512 : UInt32).toNat < 1024 * (zeroedDisk 262144).groups ∧
    insertSlot fs 512 = some (8 * (firstDirBlock fs).toNat, 0) ∧ ¬ InodeWriteStays fs 512 := by
  rcases @exists_mounted (zeroedDisk 262144) (by decide) (by decide) with ⟨disk', h, hmount⟩
  have hn : (512 : UInt32).toNat < 1024 * (zeroedDisk 262144).groups := by decide
  refine ⟨_, _, hmount, hn, ?_, fun hstays ↦ ?_⟩
  · rw [(tableAt_newFs h).insertSlot_eq (by rw [newFs_groups h]; exact hn) (by decide),
      firstDirBlock_newFs h (by decide)]
    rfl
  · exact absurd ((inodeWriteStays_newFs h hn (by decide)).mp hstays) (by decide)

end Formatted

end Ext2Fs
