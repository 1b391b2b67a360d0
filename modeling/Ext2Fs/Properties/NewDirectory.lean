import Ext2Fs.Properties.Accounting
import Ext2Fs.Spec.Session

/-!
# A new directory read back

`ext2_mkdir` writes the first sector of the new directory; the readers go through the inode.
-/

open Reasoning

namespace Ext2Fs

/-- Logical offset 0 of a node, read through `ext2_fill_inode` and `get_datablock`: the number of
the block, and its first sector. -/
def readFirstSector (fs : Ext2Filesystem) (node : Ext2Node) : Exec (UInt32 × Sector) := do
  let inode := ext2FillInode fs InodeVar.uninit node.entry.inode
  let (block, _, _, sector) ← getDatablock fs node inode 0 none
  let sector ← determinate sector
  return (block, sector)

/-- The entries of a new directory: itself, its parent, and the end. -/
def HoldsNewDirectory (sector : Sector) (self parent : UInt32) : Prop :=
  let entries := asEntries sector
  cString (getElem entries 0 firstRecord_lt).name = some dotName ∧
  (getElem entries 0 firstRecord_lt).inode = self ∧
  cString (getElem entries 1 secondRecord_lt).name = some dotdotName ∧
  (getElem entries 1 secondRecord_lt).inode = parent ∧
  (getElem entries 2 thirdRecord_lt).isNoMore

/-- Bit `block % 32768` of the block bitmap of the group of `block`. -/
def blockUsed (fs : Ext2Filesystem) (block : UInt32) : Option Bool := do
  let desc ← readDesc fs (block / blockPerGroup)
  return fs.disk.blockBit desc.bgBlockBitmap (block % blockPerGroup).toNat

/-- The call that led from `fs` to `fs'` left the directory `child` readable: its first block is
the one that the call took, and holds the entries that the call wrote. -/
def ReadableWhereWritten (fs fs' : Ext2Filesystem) (parent child : Ext2Node) : Prop :=
  ∃ block sector, readFirstSector fs' child = .ok (block, sector) ∧
    HoldsNewDirectory sector child.entry.inode parent.entry.inode ∧
    blockUsed fs block = some false ∧ blockUsed fs' block = some true

-- No pointer of the inode is filled in.
theorem readFirstSector_unreadable {fs : Ext2Filesystem} {node : Ext2Node}
    (h : inodeEntry fs node.entry.inode = none) :
    readFirstSector fs node = .error .indeterminate := by
  rw [readFirstSector, ext2FillInode_none h]
  rfl

theorem not_readable_of_unreadable {fs fs' : Ext2Filesystem} {parent child : Ext2Node}
    (h : inodeEntry fs' child.entry.inode = none) : ¬ ReadableWhereWritten fs fs' parent child := by
  rintro ⟨block, sector, hread, -⟩
  rw [readFirstSector_unreadable h] at hread
  cases hread

/-- No directory that `ext2_mkdir` makes can be read back. -/
theorem not_readableWhereWritten {disk : DiskOperations} (hpos : 1 ≤ disk.groups) {s : Session}
    (h : InUse disk s) {parent : Ext2Node} (hdir : parent ∈ s.dirs) {entryName : List UInt8}
    {child : Ext2Node} {fs' : Ext2Filesystem}
    (hmkdir : ext2Mkdir s.fs parent entryName = .ok (ext2Success, some child, fs')) :
    ¬ ReadableWhereWritten s.fs fs' parent child := by
  obtain ⟨hserving, name, hchild, hmakes⟩ := h.make_success hpos .mkdir hdir hmkdir
  rw [Option.some.injEq] at hchild
  subst hchild
  exact not_readable_of_unreadable (hmakes.inodeEntry_node hserving.made_lt)

theorem not_readableWhereWritten_zeroedDisk :
    ∃ (s : Session) (child : Ext2Node) (fs' : Ext2Filesystem),
    InUse (zeroedDisk 262144) s ∧
    ext2Mkdir s.fs s.root [0x41] = .ok (ext2Success, some child, fs') ∧
    ¬ ReadableWhereWritten s.fs fs' s.root child := by
  obtain ⟨s, fs', hfresh, hmkdir, -⟩ := zeroedDisk_make .mkdir
  exact ⟨s, _, fs', .start hfresh, hmkdir,
    not_readableWhereWritten (by decide) (.start hfresh) List.mem_cons_self hmkdir⟩

/-- The first directory made on a zeroed disk has the inode 11. -/
theorem not_readable_eleven : ∃ (s : Session) (child : Ext2Node) (fs' : Ext2Filesystem),
    InUse (zeroedDisk 262144) s ∧
    ext2Mkdir s.fs s.root [0x41] = .ok (ext2Success, some child, fs') ∧
    child.entry.inode = 11 ∧ ¬ ReadableWhereWritten s.fs fs' s.root child := by
  obtain ⟨s, fs', hfresh, hmkdir, hmakes⟩ := zeroedDisk_make .mkdir
  exact ⟨s, _, fs', .start hfresh, hmkdir, rfl,
    not_readable_of_unreadable (hmakes.inodeEntry_node (by decide))⟩

end Ext2Fs
