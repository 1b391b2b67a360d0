import Ext2Fs.Model.Alloc

/-!
# Inodes and their blocks (ext2.c: get_datablock, ext2_fill_inode, insert_inode, ext2_dump)
-/

open Reasoning

namespace Ext2Fs

/-! ## The inode table -/

/-- The block at which `ext2_fill_inode` reads the inode table of a group. -/
def fillInodeTableBlock (desc : Ext2GroupDesc) (groupNum : UInt32) : UInt32 :=
  groupNum * blockPerGroup + desc.bgInodeTable

/-- The number of leading block pointers that `ext2_fill_inode` copies: its loop returns at
`i + 1 == i_blocks`, and each further pointer is followed by a test of its own. -/
def pointersFilled (iBlocks : UInt32) : Nat :=
  if 1 ≤ iBlocks ∧ iBlocks ≤ ext2NdirBlocks then iBlocks.toNat
  else if iBlocks ≤ 12 + 1024 then 13
  else if iBlocks ≤ 12 + 1024 + 1048576 then 14
  else 15

/-- The entry of the inode table that `ext2_fill_inode` looks at: the table's first sector is
loaded and indexed by the number within the group. -/
def inodeEntry (fs : Ext2Filesystem) (inodeNum : UInt32) : Option Ext2Inode := do
  let groupNum := inodeNum / inodesPerGroup
  let desc ← readDesc fs groupNum
  let sector ←
    (fs.disk.readSector (fillInodeTableBlock desc groupNum * sectorsPerBlock) none).2
  loadAt asInodes sector (inodeNum % inodesPerGroup).toNat

/-- `ext2_fill_inode`, which always returns `EXT2_SUCCESS`.  From the fifth inode of a group on it
reads behind its buffer of one sector and branches on what stands there.  A run that gets past this
has unspecified values in the caller's variable; that the read may end the process is left out. -/
def ext2FillInode (fs : Ext2Filesystem) (inode : InodeVar) (inodeNum : UInt32) : InodeVar :=
  match inodeEntry fs inodeNum with
  | none =>
    { inode with iMode := none, iBlocks := none, iBlock := Vector.replicate 15 none }
  | some entry =>
    { inode with
      iMode := some entry.iMode
      iBlocks := some entry.iBlocks
      iBlock := Vector.ofFn fun k ↦
        if k.val < pointersFilled entry.iBlocks then some entry.iBlock[k.val]
        else inode.iBlock[k.val] }

/-- The block at which `insert_inode` addresses the inode table of a group. -/
def insertInodeTableBlock (desc : Ext2GroupDesc) (inodeGroup : UInt32) : UInt32 :=
  desc.bgInodeTable + inodeGroup * blockPerGroup

/-- The sector that `insert_inode` reads and writes back. -/
def insertInodeSector (desc : Ext2GroupDesc) (inodeNum : UInt32) : UInt32 :=
  let inodeGroup := inodeNum / inodesPerGroup
  let inodeBlock := inodeNum % inodesPerGroup * 128 / blockSizeInBytes
  let inodeSector := inodeNum % inodesPerGroup * 128 / maxSectorSize
  (insertInodeTableBlock desc inodeGroup + inodeBlock) * sectorsPerBlock + inodeSector

def initFileInode (inode : Ext2Inode) : Ext2Inode :=
  { inode with iMode := attrArchive, iBlocks := 0 }

def initDirInode (inode : Ext2Inode) : Ext2Inode :=
  { inode with iMode := attrDirectory, iBlocks := 1 }

def setDatablock (datablock : UInt32) (inode : Ext2Inode) : Ext2Inode :=
  { inode with iBlock := inode.iBlock.set 0 datablock pointer_lt }

def insertInode (fs : Ext2Filesystem) (retEntry : Ext2Node) (inodeNum : UInt32) (mode : UInt16) :
    Exec (Int × Ext2Filesystem) := do
  let entry ← determinate (readDesc fs (inodeNum / inodesPerGroup))
  let inodeOffset := (inodeNum % inodesPerGroup % 4).toNat
  let sector ← determinate (fs.disk.readSector (insertInodeSector entry inodeNum) none).2
  if mode = attrArchive then
    let sector ← modifyAt asInodes sector inodeOffset initFileInode
    return (ext2Success,
      { fs with disk := fs.disk.writeSector (insertInodeSector entry inodeNum) sector })
  else
    let sector ← modifyAt asInodes sector inodeOffset initDirInode
    let (datablock, fs) ← allocFreeBlock fs retEntry
    if datablock = ext2Error then
      return (ext2Error, fs)
    else
      let sector ← modifyAt asInodes sector inodeOffset (setDatablock (UInt32.ofInt datablock))
      return (datablock,
        { fs with disk := fs.disk.writeSector (insertInodeSector entry inodeNum) sector })

/-! ## get_datablock -/

/-- `currentBlock`: it points into the inode, or into the sector buffer that the reads fill. -/
inductive BlockPtr where
  | inode (k : Nat)
  | sector (k : Nat)
  deriving DecidableEq

/-- What `get_datablock` carries along. -/
structure BlockWalk where
  fs : Ext2Filesystem
  inode : InodeVar
  sector : Option Sector
  currentBlock : BlockPtr

/-- `*currentBlock`; past `i_block[14]` and past the buffer the value is indeterminate. -/
def BlockWalk.target (w : BlockWalk) : Option UInt32 :=
  match w.currentBlock with
  | .inode k => (w.inode.iBlock[k]?).join
  | .sector k => w.sector.bind fun s ↦ loadAt asWords s k

/-- `if (*currentBlock == NULL) *currentBlock = alloc_free_block(file);` -/
def BlockWalk.ensure (w : BlockWalk) (file : Ext2Node) : Exec BlockWalk := do
  let block ← determinate w.target
  if block = 0 then
    let (newBlock, fs) ← allocFreeBlock w.fs file
    let value := UInt32.ofInt newBlock
    match w.currentBlock with
    | .inode k =>
      return { w with fs := fs, inode := { w.inode with
        iBlock := w.inode.iBlock.setIfInBounds k (some value) } }
    | .sector k =>
      let sector ← determinate w.sector
      let sector ← modifyAt asWords sector k fun _ ↦ value
      return { w with fs := fs, sector := some sector }
  else
    return w

/-- One level of indirection: the sector of the index block that `blockOffsetCnt / unit` selects
is loaded, and `currentBlock` moves to the entry `blockOffsetCnt % unit` of the buffer. -/
def BlockWalk.descend (w : BlockWalk) (file : Ext2Node) (blockOffsetCnt unit : UInt32) :
    Exec (BlockWalk × UInt32) := do
  let w ← w.ensure file
  let block ← determinate w.target
  let sector := (w.fs.disk.readSector (block * sectorsPerBlock + blockOffsetCnt / unit) w.sector).2
  let rest := blockOffsetCnt % unit
  return ({ w with sector := sector, currentBlock := .sector rest.toNat }, rest)

/-- The last lines of `get_datablock`: the sector is read, and the block number is read again
through `currentBlock`, which may point into the buffer just filled. -/
def BlockWalk.finish (w : BlockWalk) (offset : UInt64) :
    Exec (UInt32 × Ext2Filesystem × InodeVar × Option Sector) := do
  let block ← determinate w.target
  let sector := (w.fs.disk.readSector
    ((block * sectorsPerBlock).toUInt64 + offset / 512).toUInt32 w.sector).2
  let block ← determinate { w with sector := sector }.target
  return (block, w.fs, w.inode, sector)

def getDatablock (fs : Ext2Filesystem) (file : Ext2Node) (inode : InodeVar) (offset : UInt64)
    (sector : Option Sector) : Exec (UInt32 × Ext2Filesystem × InodeVar × Option Sector) := do
  let blockOffset := (offset / 4096).toUInt32
  let start (k : Nat) : BlockWalk :=
    { fs := fs, inode := inode, sector := sector, currentBlock := .inode k }
  if blockOffset / blockSizeInBytes ≤ 12 then
    (start blockOffset.toNat).finish offset
  else if blockOffset / blockSizeInBytes ≤ 12 + 1024 then
    let (w, _) ← (start 13).descend file (offset - 12).toUInt32 128
    w.finish offset
  else if blockOffset / blockSizeInBytes ≤ 12 + 1024 + 1048576 then
    let (w, cnt) ← (start 14).descend file (offset - 12 - 1024).toUInt32 131072
    let (w, _) ← w.descend file cnt 128
    w.finish offset
  else
    let (w, cnt) ← (start 15).descend file (offset - 12 - 1024 - 1048576).toUInt32 16777216
    let (w, cnt) ← w.descend file cnt 131072
    let (w, _) ← w.descend file cnt 128
    w.finish offset

/-! ## ext2_dump -/

/-- `BLOCK_PER_GROUP * blockGroupNum + n + descBlockCount` as an `int`.  It is one up to `n`, and
unsigned from there on. -/
def dumpGroupBlock (disk : DiskOperations) (blockGroupNum : Int32) (n : Nat) : Exec Int32 := do
  let first ← intValue (blockPerGroup.toNat * blockGroupNum.toInt)
  let block ← intValue (first.toInt + n)
  return (block.toUInt32 + descBlockCount disk.groupCount).toInt32

/-- `blockNum` and `sectorCnt` of `ext2_dump`; a `type` outside its `switch` leaves both unset. -/
def dumpRange (disk : DiskOperations) (blockGroupNum : Int32) (type : Nat) (target : Int32) :
    Exec (Int32 × Int32) :=
  match type with
  | 1 => .ok (0, 2)
  | 2 => .ok (1, (descBlockCount disk.groupCount * sectorsPerBlock).toInt32)
  | 3 => do return (← dumpGroupBlock disk blockGroupNum 1, sectorsPerBlock.toInt32)
  | 4 => do return (← dumpGroupBlock disk blockGroupNum 2, sectorsPerBlock.toInt32)
  | 5 => do
    return (← dumpGroupBlock disk blockGroupNum 3, (1024 * 128 / 4096 * sectorsPerBlock).toInt32)
  | 6 => .ok (target, sectorsPerBlock.toInt32)
  | _ => .error .indeterminate

/-- `ext2_dump`: the sectors whose bytes it prints, in order. -/
def ext2Dump (disk : DiskOperations) (blockGroupNum : Int32) (type : Nat) (target : Int32) :
    Exec (List Sector) := do
  let (blockNum, sectorCnt) ← dumpRange disk blockGroupNum type target
  let (_, printed) ← forEach
    (fun (st : Option Sector × List Sector) (i : Nat) ↦ do
      let first ← intValue (blockNum.toInt * sectorsPerBlock.toNat)
      let number ← intValue (first.toInt + i)
      let sector ← determinate (disk.readSector number.toUInt32 st.1).2
      return (some sector, st.2 ++ [sector]))
    (none, []) (List.range sectorCnt.toNatClampNeg)
  return printed

end Ext2Fs
