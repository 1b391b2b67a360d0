import Ext2Fs.Properties.Accounting
import Ext2Fs.Spec.Session

/-!
# Mounting a formatted disk

`ext2_read_superblock` and `ext2_fill_inode` find what `ext2_format` wrote, whatever was on the disk
before.
-/

open Reasoning

namespace Ext2Fs

/-- The first block behind the inode table of group 0. -/
def firstDirBlock (fs : Ext2Filesystem) : UInt32 :=
  (fs.disk.storedDesc 0 0).bgInodeTable + inodeTableBlocks fs.spb

/-- Slot `t` of the first directory block is an entry of the root inode with the name. -/
def Shows (fs : Ext2Filesystem) (t : Nat) (name : List UInt8) : Prop :=
  (blockSlot fs.disk (firstDirBlock fs).toNat t).inode = 2 ∧
    (blockSlot fs.disk (firstDirBlock fs).toNat t).holds name

/-- What is to be seen through a mount of the disk that `ext2_format` made of `old`. -/
structure SeesFormat (old : DiskOperations) (fs : Ext2Filesystem) (root : Ext2Node) : Prop where
  superBlock : fs.spb = { fillSb old.numberOfSectors old.bytesPerSector with
    sFreeBlocksCount := (fillSb old.numberOfSectors old.bytesPerSector).sFreeBlocksCount - 1 }
  root_inode : root.entry.inode = 2 ∧ root.inodeNum = 2
  -- the fields of the root's inode, whatever the variable held before
  root_mode : ∀ inode, (ext2FillInode fs inode 2).iMode = some attrVolumeId
  root_blocks : ∀ inode, (ext2FillInode fs inode 2).iBlocks = some 1
  root_block : ∀ inode,
    getElem (ext2FillInode fs inode 2).iBlock 0 pointer_lt = some (firstDirBlock fs)
  blockBitmap : ∀ k, k < 32768 → fs.disk.blockBit (fs.disk.storedDesc 0 0).bgBlockBitmap k =
    decide (k ≤ (firstDirBlock fs).toNat)
  slash : Shows fs 0 slashName
  dot : Shows fs 1 dotName
  dotdot : Shows fs 2 dotdotName
  noMore : (blockSlot fs.disk (firstDirBlock fs).toNat 3).isNoMore

section Fresh

variable {disk disk' : DiskOperations}

theorem firstDirBlock_newFs (h : Formatted disk disk') (hpos : 1 ≤ disk.groups) :
    firstDirBlock (newFs disk disk') = 36 := by
  have htable : ((newFs disk disk').disk.storedDesc 0 0).bgInodeTable = 4 := by
    rw [storedDesc_zero _ (show 0 < 16 by decide), newFs_desc h hpos (by decide), if_pos rfl]
    rfl
  rw [firstDirBlock, htable,
    inodeTableBlocks_eq (show (newFs disk disk').spb.sInodesPerGroup = 1024 from rfl)]
  rfl

theorem shows_newFs (h : Formatted disk disk') (hpos : 1 ≤ disk.groups) {t : Nat} (ht : t < 16)
    {name : List UInt8}
    (hentry : [dirEntry 2 slashName, dirEntry 2 dotName, dirEntry 2 dotdotName].getD t
      Ext2DirEntry.zero = dirEntry 2 name) (h0 : 0 ∉ name) (hlen : name.length < 24) :
    Shows (newFs disk disk') t name := by
  unfold Shows
  rw [firstDirBlock_newFs h hpos, newFs_disk, show (36 : UInt32).toNat = 36 from rfl,
    h.blockSlot_eq ht, hentry]
  exact ⟨rfl, cString_dirEntry h0 hlen 2⟩

theorem seesFormat_newFs (h : Formatted disk disk') (hpos : 1 ≤ disk.groups) :
    SeesFormat disk (newFs disk disk') rootNode := by
  have hroot := (h.live hpos).rootAt
  have hblock := firstDirBlock_newFs h hpos
  have h36 : (36 : UInt32).toNat = 36 := rfl
  constructor
  case superBlock => rfl
  case root_inode => exact ⟨rfl, rfl⟩
  case root_mode => exact fun inode ↦ (hroot.fillsAs inode).iMode
  case root_blocks => exact fun inode ↦ (hroot.fillsAs inode).iBlocks
  case root_block =>
    intro inode
    rw [hblock]
    exact (hroot.fillsAs inode).iBlock
  case blockBitmap =>
    intro k hk
    have hmap : ((newFs disk disk').disk.storedDesc 0 0).bgBlockBitmap = 2 := by
      rw [storedDesc_zero _ (show 0 < 16 by decide), newFs_desc h hpos (by decide), if_pos rfl]
      rfl
    rw [hmap, hblock, h36, newFs_disk,
      blockBit_prefix h.blockBitmap h.blockBitmapRest (by decide) hk]
    exact decide_eq_decide.mpr Nat.lt_succ_iff
  case slash => exact shows_newFs h hpos (by decide) rfl (by decide) (by decide)
  case dot => exact shows_newFs h hpos (by decide) rfl (by decide) (by decide)
  case dotdot => exact shows_newFs h hpos (by decide) rfl (by decide) (by decide)
  case noMore =>
    rw [hblock, h36, newFs_disk, h.blockSlot_eq (by decide)]
    decide

end Fresh

/-- A disk of 1 to 16 groups can be formatted and mounted, and the mount sees what the format
wrote. -/
theorem seesFormat {disk : DiskOperations} (hpos : 1 ≤ disk.groups) (hfew : disk.groups ≤ 16) :
    ∃ disk' fs root, ext2Format disk = .ok (ext2Success, disk') ∧
      ext2ReadSuperblock disk' = .ok (some (fs, root)) ∧ SeesFormat disk fs root := by
  rcases ext2Format_formatted hpos hfew with ⟨disk₁, hformat, -⟩
  rcases exists_mounted hpos hfew with ⟨disk', h, hmount⟩
  rw [Mounted, formatAndMount, hformat, ok_bind] at hmount
  exact ⟨disk₁, newFs disk disk', rootNode, hformat, hmount, seesFormat_newFs h hpos⟩

theorem seesFormat_zeroedDisk : ∃ disk' fs root,
    ext2Format (zeroedDisk 262144) = .ok (ext2Success, disk') ∧
      ext2ReadSuperblock disk' = .ok (some (fs, root)) ∧ SeesFormat (zeroedDisk 262144) fs root :=
  seesFormat (by decide) (by decide)

end Ext2Fs
