import Ext2Fs.Model.Mount

/-!
# Block and inode allocation (ext2.c: alloc_free_block, find_free_group, alloc_free_inode)
-/

open Reasoning

namespace Ext2Fs

/-! ## Decoding the first clear bit of a bitmap byte -/

/-- `switch (sector[j] % 0xF0)`: the cases that assign `offset`. -/
def lowNibbleOffset (byte : UInt8) : Option Nat :=
  if byte % 0xF0 = 0x0 then some 4
  else if byte % 0xF0 = 0x8 then some 5
  else if byte % 0xF0 = 0xC then some 6
  else if byte % 0xF0 = 0xE then some 7
  else none

/-- `switch (sector[j] / 0x10)`: the cases that assign `offset`. -/
def highNibbleOffset (byte : UInt8) : Option Nat :=
  if byte / 0x10 = 0x0 then some 0
  else if byte / 0x10 = 0x8 then some 1
  else if byte / 0x10 = 0xC then some 2
  else if byte / 0x10 = 0xE then some 3
  else none

/-! ## Counters -/

/-- What both allocators end with: the superblock into the groups from `first` on, and the updated
descriptor of group `groupNum` into every copy of the descriptor sector.  The superblock loop is
`for (j = 0; i<group_count; i++)`: it goes on from the index of the bitmap sector. -/
def writeCounts (disk : DiskOperations) (spb : Ext2SuperBlock) (first : Nat) (sector : Sector)
    (groupNum : UInt32) (count : Ext2GroupDesc → Ext2GroupDesc) : Exec Ext2Filesystem := do
  let disk := writeSuperBlocks disk spb first
  let sector ← determinate
    (disk.readSector ((spb.sFirstDataBlock + 1) * sectorsPerBlock) (some sector)).2
  let sector ← modifyAt asDescs sector groupNum.toNat count
  return { spb := spb, disk := writeDescSectors disk spb sector }

/-! ## alloc_free_block -/

/-- The block at which `alloc_free_block` scans and marks the block bitmap of a group. -/
@[simp] def allocBlockBitmapBlock (desc : Ext2GroupDesc) : UInt32 := desc.bgBlockBitmap

def countBlockSb (spb : Ext2SuperBlock) : Ext2SuperBlock :=
  { spb with sFreeBlocksCount := spb.sFreeBlocksCount - 1 }

def countBlock (desc : Ext2GroupDesc) : Ext2GroupDesc :=
  { desc with bgFreeBlocksCount := desc.bgFreeBlocksCount - 1 }

/-- What `alloc_free_block` does once byte `j` of bitmap sector `i` is found not to be full. -/
def takeBlock (fs : Ext2Filesystem) (freeGroupNum : UInt32) (desc : Ext2GroupDesc) (i : Nat)
    (sector : Sector) (j : Nat) (byte : UInt8) : Exec (Int × Ext2Filesystem) := do
  let offset ← determinate (if byte ≥ 0xF0 then lowNibbleOffset byte else highNibbleOffset byte)
  let blockNum := (i * 512 + j) * 8 + offset
  -- the bit number counts from the start of the bitmap, the buffer holds one sector of it
  let sector ← setBit sector blockNum
  let disk := fs.disk.writeSector (UInt32.ofNat i + allocBlockBitmapBlock desc * sectorsPerBlock)
    sector
  let fs ← writeCounts disk (countBlockSb fs.spb) i sector freeGroupNum countBlock
  return ((blockNum : Int), fs)

/-- The scan of the bitmap sectors `is`, with the buffer as the previous sector left it. -/
def scanBlockBitmap (fs : Ext2Filesystem) (freeGroupNum : UInt32) (desc : Ext2GroupDesc) :
    Option Sector → List Nat → Exec (Int × Ext2Filesystem)
  | _, [] => .ok (ext2Error, fs)
  | buf, i :: is => do
    let sector ← determinate
      (fs.disk.readSector (UInt32.ofNat i + allocBlockBitmapBlock desc * sectorsPerBlock) buf).2
    match sector.toList.findIdx? (· ≠ 0xFF) with
    | none => scanBlockBitmap fs freeGroupNum desc (some sector) is
    | some j => takeBlock fs freeGroupNum desc i sector j (sector.toList.getD j 0)

def allocFreeBlock (fs : Ext2Filesystem) (parent : Ext2Node) : Exec (Int × Ext2Filesystem) := do
  let freeGroupNum := parent.entry.inode / inodesPerGroup
  let desc ← determinate (readDesc fs freeGroupNum)
  scanBlockBitmap fs freeGroupNum desc none (List.range 8)

/-! ## find_free_group -/

/-- `read_desc(parent, &desc, free_group)`: the node is passed where a file system is expected,
and `read_desc` follows a `disk` pointer that lies outside the node. -/
def readDescOfNode (_parent : Ext2Node) (_groupNum : Int) : Exec Ext2GroupDesc :=
  .error .badPointer

/-- The loop of `find_free_group`, with the number of iterations left. -/
def probeGroups (parent : Ext2Node) (groupSum : Int) : Nat → Int → Exec Int
  | 0, _ => .ok ext2Error
  | n + 1, freeGroup => do
    let freeGroup := if freeGroup + 1 ≥ groupSum then 0 else freeGroup + 1
    let desc ← readDescOfNode parent freeGroup
    if desc.bgFreeBlocksCount ≠ 0 ∧ desc.bgFreeInodesCount ≠ 0 then
      return freeGroup
    else
      probeGroups parent groupSum n (freeGroup + 1)

def findFreeGroup (fs : Ext2Filesystem) (parent : Ext2Node) : Exec Int := do
  let parentGroup := parent.inodeNum / inodesPerGroup
  let groupSum := fs.disk.groupCount.toNat
  let desc ← determinate (readDesc fs parentGroup)
  if desc.bgFreeBlocksCount ≠ 0 ∧ desc.bgFreeInodesCount ≠ 0 then
    return (parentGroup.toNat : Int)
  else
    probeGroups parent groupSum groupSum parentGroup.toNat

/-! ## alloc_free_inode -/

/-- The block at which `alloc_free_inode` scans and marks the inode bitmap of a group. -/
@[simp] def allocInodeBitmapBlock (desc : Ext2GroupDesc) : UInt32 := desc.bgInodeBitmap

/-- Outcome of the byte loop of `alloc_free_inode` on one sector: the byte whose upper half is not
full, or the end of the sector; `offset` keeps what an earlier byte left in it. -/
inductive ByteScan where
  | found (j : Nat) (offset : Option Nat)
  | full (offset : Option Nat)
  deriving DecidableEq

def scanInodeBytes : List UInt8 → Nat → Option Nat → ByteScan
  | [], _, offset => .full offset
  | byte :: bytes, j, offset =>
    if byte = 0xFF then scanInodeBytes bytes (j + 1) offset
    -- `offset` is assigned, but only the `else` branch allocates
    else if byte ≥ 0xF0 then scanInodeBytes bytes (j + 1) ((lowNibbleOffset byte).or offset)
    else .found j ((highNibbleOffset byte).or offset)

def countInodeSb (spb : Ext2SuperBlock) : Ext2SuperBlock :=
  { spb with sFreeInodesCount := spb.sFreeInodesCount - 1 }

def countInode (desc : Ext2GroupDesc) : Ext2GroupDesc :=
  { desc with bgFreeInodesCount := desc.bgFreeInodesCount - 1 }

/-- What `alloc_free_inode` does once byte `j` of bitmap sector `i` is chosen. -/
def takeInode (fs : Ext2Filesystem) (freeGroupNum : UInt32) (desc : Ext2GroupDesc) (i : Nat)
    (sector : Sector) (j : Nat) (offset : Option Nat) : Exec (Int × Ext2Filesystem) := do
  let offset ← determinate offset
  let inodeNum := j * 8 + offset
  let sector ← setBit sector inodeNum
  let disk := fs.disk.writeSector (UInt32.ofNat i + allocInodeBitmapBlock desc * sectorsPerBlock)
    sector
  let fs ← writeCounts disk (countInodeSb fs.spb) i sector freeGroupNum countInode
  return ((inodeNum : Int), fs)

def scanInodeBitmap (fs : Ext2Filesystem) (freeGroupNum : UInt32) (desc : Ext2GroupDesc) :
    Option Nat → Option Sector → List Nat → Exec (Int × Ext2Filesystem)
  | _, _, [] => .ok (ext2Error, fs)
  | offset, buf, i :: is => do
    let sector ← determinate
      (fs.disk.readSector (UInt32.ofNat i + allocInodeBitmapBlock desc * sectorsPerBlock) buf).2
    match scanInodeBytes sector.toList 0 offset with
    | .full offset => scanInodeBitmap fs freeGroupNum desc offset (some sector) is
    | .found j offset => takeInode fs freeGroupNum desc i sector j offset

def allocFreeInode (fs : Ext2Filesystem) (parent : Ext2Node) : Exec (Int × Ext2Filesystem) := do
  let freeGroup ← findFreeGroup fs parent
  let freeGroupNum := UInt32.ofInt freeGroup
  let desc ← determinate (readDesc fs freeGroupNum)
  scanInodeBitmap fs freeGroupNum desc none none (List.range 8)

end Ext2Fs
