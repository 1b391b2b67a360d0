import Ext2Fs.Model.Disk

/-!
# Formatting (ext2.c: fill_sb … ext2_format)
-/

open Reasoning

namespace Ext2Fs

/-! ## Superblock and descriptors -/

/-- The number of blocks the descriptor table takes. -/
def descBlockCount (groupCount : UInt32) : UInt32 :=
  let size := groupCount.toUInt64 * 32
  if size % 4096 ≠ 0 then (size / 4096).toUInt32 + 1 else (size / 4096).toUInt32

/-- `s_inodes_per_group * sizeof(EXT2_INODE) / BLOCK_SIZE_IN_BYTES`. -/
def inodeTableBlocks (sb : Ext2SuperBlock) : UInt32 :=
  (sb.sInodesPerGroup.toUInt64 * 128 / 4096).toUInt32

def fillSb (numberOfSectors bytesPerSector : UInt32) : Ext2SuperBlock :=
  -- the product is a 32-bit one, whatever the width of the variable that receives it
  let diskSize : UInt64 := (numberOfSectors * bytesPerSector).toUInt64
  let groupCount := numberOfSectors * bytesPerSector / groupSizeInBytes
  let groups : UInt64 := diskSize / 134217728
  let blocksCount := ((32768 : UInt64) * groups).toUInt32
  let inodesCount := ((1024 : UInt64) * groups).toUInt32
  { Ext2SuperBlock.zero with
    sBlocksPerGroup := groupSizeInBytes / blockSizeInBytes
    sInodesPerGroup := inodesPerGroup
    sInodesCount := inodesCount
    sBlocksCount := blocksCount
    sFirstIno := 11
    sFreeBlocksCount := (blocksCount.toUInt64 -
      groups * (128 * 1024 / 4096 + (descBlockCount groupCount).toUInt64 + 3)).toUInt32
    sFreeInodesCount := (inodesCount.toUInt64 - (11 - 1) * groups).toUInt32
    sFirstDataBlock := 0
    sLogBlockSize := 4
    sMagic := 0xEF53
    sState := 1
    sErrors := 1
    sMinorRevLevel := 0
    sRevLevel := 0
    sInodeSize := 128
    sBlockGroupNr := 0 }

/-- `fill_desc`; the number of the group is only printed.  It is called for existing groups, so
the two divisions by the group count are defined. -/
def fillDesc (disk : DiskOperations) (sb : Ext2SuperBlock) (_groupNum : UInt32) :
    Ext2GroupDesc :=
  let blockBitmap := sb.sFirstDataBlock + 1 + descBlockCount disk.groupCount
  { Ext2GroupDesc.zero with
    bgBlockBitmap := blockBitmap
    bgInodeBitmap := blockBitmap + 1
    bgInodeTable := blockBitmap + 1 + 1
    bgFreeBlocksCount := (sb.sFreeBlocksCount / disk.groupCount).toUInt16
    bgFreeInodesCount := (sb.sFreeInodesCount / disk.groupCount).toUInt16
    bgUsedDirsCount := 0 }

/-! ## Bitmaps -/

/-- The `switch` of `set_bit`. -/
def bitValue : Nat → UInt8
  | 0 => 0x80
  | 1 => 0x40
  | 2 => 0x20
  | 3 => 0x10
  | 4 => 0x08
  | 5 => 0x04
  | 6 => 0x02
  | _ => 0x01

def setBit (sector : Sector) (number : Nat) : Exec Sector :=
  if h : number / 8 < 512 then
    .ok (sector.set (number / 8) (sector[number / 8] ||| bitValue (number % 8)))
  else .error .outOfBounds

/-- `for (i = 0; i < count; i++) set_bit(i, sector);` -/
def setBits (count : Nat) (sector : Sector) : Exec Sector := forEach setBit sector (List.range count)

section Disk

variable {δ : Type} [Disk δ]

/-- The same sector value to the sectors `addr i`. -/
def writeEach (addr : Nat → UInt32) (data : Sector) (is : List Nat) (disk : δ) : δ :=
  is.foldl (fun disk i ↦ Disk.writeSector disk (addr i) data) disk

/-- The same sector eight times, from the first sector of a block on. -/
def clearBlock (disk : δ) (block : UInt32) : δ :=
  writeEach (fun i ↦ UInt32.ofNat i + block * sectorsPerBlock) zeroSector (List.range 8) disk

/-- The block at which `init_bitmap` puts the block bitmap of a group. -/
@[simp] def initBlockBitmapBlock (desc : Ext2GroupDesc) : UInt32 := desc.bgBlockBitmap

/-- The block at which `init_bitmap` puts the inode bitmap of a group. -/
@[simp] def initInodeBitmapBlock (desc : Ext2GroupDesc) : UInt32 := desc.bgInodeBitmap

def initBitmap (disk : δ) (sb : Ext2SuperBlock) (desc : Ext2GroupDesc) : Exec δ := do
  let disk := clearBlock disk (initBlockBitmapBlock desc)
  let datablock := sb.sFirstDataBlock + desc.bgInodeTable + inodeTableBlocks sb
  let sector ← setBits datablock.toNat zeroSector
  let disk := Disk.writeSector disk (initBlockBitmapBlock desc * 8) sector
  let disk := clearBlock disk (initInodeBitmapBlock desc)
  if desc.bgBlockBitmap < blockPerGroup then
    let sector ← setBits sb.sFirstIno.toNat zeroSector
    return Disk.writeSector disk (initInodeBitmapBlock desc * sectorsPerBlock) sector
  else
    return disk

end Disk

/-! ## Directory entries -/

/-- `memcpy(dst, src, strlen(src))` into the name and padding of an entry. -/
def copyName (dst : Bytes 24) (src : List UInt8) : Bytes 24 :=
  Vector.ofFn fun i ↦ if h : i.val < src.length then src[i.val] else dst[i.val]

/-- `"no_more"`. -/
def noMoreName : List UInt8 := [0x6e, 0x6f, 0x5f, 0x6d, 0x6f, 0x72, 0x65]
/-- `"/"`. -/
def slashName : List UInt8 := [0x2f]
/-- `"."`. -/
def dotName : List UInt8 := [0x2e]
/-- `".."`. -/
def dotdotName : List UInt8 := [0x2e, 0x2e]

/-- Conversion of an `unsigned int` argument to an `int` parameter. -/
def toCInt (x : UInt32) : Int := x.toInt32.toInt

/-- `fill_entry`: `name` is a C string without its terminator.  No caller looks at the return
code, so a negative inode number leaves the entry as it was and nothing else. -/
def fillEntry (entry : Ext2DirEntry) (name : List UInt8) (inodeNum : Int) : Exec Ext2DirEntry :=
  if inodeNum < 0 then .ok entry
  else if name = noMoreName then
    .ok { entry with name := entry.name.set 0 dirEntryNoMore nameByte_lt }
  else if name.length ≤ 24 then
    .ok { inode := UInt32.ofInt inodeNum
          nameLen := UInt16.ofNat name.length
          recLen := 4 + 2 + 2 + 1 * UInt16.ofNat name.length
          name := copyName entry.name name }
  else .error .outOfBounds

/-! ## Copies of the superblock and of the descriptor sector -/

section Disk

variable {δ : Type} [Disk δ]

/-- The superblock into groups `first, …, group_count - 1`. -/
def writeSuperBlocks (disk : δ) (spb : Ext2SuperBlock) (first : Nat) : δ :=
  writeEach
    (fun i ↦ spb.sFirstDataBlock * sectorsPerBlock +
      UInt32.ofNat i * blockPerGroup * sectorsPerBlock)
    (asSuperBlock.symm spb)
    (List.range' first ((Disk.operations disk).groupCount.toNat - first)) disk

/-- The first descriptor sector into every group. -/
def writeDescSectors (disk : δ) (spb : Ext2SuperBlock) (sector : Sector) : δ :=
  writeEach
    (fun j ↦ (spb.sFirstDataBlock + 1) * sectorsPerBlock +
      UInt32.ofNat j * blockPerGroup * sectorsPerBlock)
    sector (List.range (Disk.operations disk).groupCount.toNat) disk

end Disk

/-! ## Root directory -/

/-- The directory sector that `create_root` writes. -/
def rootDirSector : Exec Sector := do
  let sector ← forEach
    (fun sector (p : Nat × List UInt8) ↦ do
      let entry ← determinate (loadAt asEntries sector p.1)
      let entry ← fillEntry entry p.2 2
      modifyAt asEntries sector p.1 fun _ ↦ entry)
    zeroSector [(0, slashName), (1, dotName), (2, dotdotName), (3, noMoreName)]
  return sector

/-- The fields that `create_root` fills in the root's inode. -/
def fillRootInode (datablock : UInt32) (inode : Ext2Inode) : Ext2Inode :=
  { inode with
    iMode := attrVolumeId
    iBlocks := 1
    iBlock := inode.iBlock.set 0 datablock pointer_lt }

/-- The counter that `create_root` updates in the superblock. -/
def countRootSb (sb : Ext2SuperBlock) : Ext2SuperBlock :=
  { sb with sFreeBlocksCount := sb.sFreeBlocksCount - 1 }

/-- The counters that `create_root` updates in the descriptor. -/
def countRoot (desc : Ext2GroupDesc) : Ext2GroupDesc :=
  { desc with
    bgFreeBlocksCount := desc.bgFreeBlocksCount - 1
    bgUsedDirsCount := desc.bgUsedDirsCount + 1 }

section Disk

variable {δ : Type} [Disk δ]

def createRoot (disk : δ) : Exec δ := do
  let sbSector ← determinate ((Disk.operations disk).readSector 0 none).2
  let sb := asSuperBlock sbSector
  let descSector ← determinate
    ((Disk.operations disk).readSector ((sb.sFirstDataBlock + 1) * sectorsPerBlock) none).2
  let desc ← determinate (loadAt asDescs descSector 0)
  let datablock := desc.bgInodeTable + inodeTableBlocks sb
  -- the inode of the root, number 2
  let inodeSector ← modifyAt asInodes zeroSector 2 (fillRootInode datablock)
  let disk := Disk.writeSector disk (desc.bgInodeTable * sectorsPerBlock) inodeSector
  let dirSector ← rootDirSector
  let datablock := sb.sFirstDataBlock + desc.bgInodeTable + inodeTableBlocks sb
  let disk := Disk.writeSector disk (datablock * sectorsPerBlock) dirSector
  -- modify super block
  let sb := countRootSb sb
  let disk := writeSuperBlocks disk sb 0
  -- modify group desc
  let desc := countRoot desc
  let descSector ← modifyAt asDescs descSector 0 fun _ ↦ desc
  let disk := writeDescSectors disk sb descSector
  -- Datablock bitmap
  let sectorNum := datablock / (8 * maxSectorSize)
  let sector ← determinate
    ((Disk.operations disk).readSector (desc.bgBlockBitmap * sectorsPerBlock + sectorNum) none).2
  let sector ← setBit sector datablock.toNat
  return Disk.writeSector disk (desc.bgBlockBitmap * sectorsPerBlock + sectorNum) sector

end Disk

/-! ## ext2_format -/

/-- What the loop of `ext2_format` carries along: the disk, the descriptor sector being filled and
the position of `desc` in it. -/
structure FormatState (δ : Type) where
  disk : δ
  sector : Sector
  desc : Nat

section Disk

variable {δ : Type} [Disk δ]

/-- The start of a descriptor sector: the first block after the superblock is zeroed, and `desc`
goes back to the beginning of the buffer. -/
def startDescSector (st : FormatState δ) : FormatState δ where
  disk := writeEach (fun j ↦ sectorsPerBlock + UInt32.ofNat j) zeroSector (List.range 8) st.disk
  sector := zeroSector
  desc := 0

/-- The descriptor sector of group `i` into every group. -/
def writeDescTable (disk : δ) (sb : Ext2SuperBlock) (i : Nat) (sector : Sector) : δ :=
  writeEach
    (fun j ↦ UInt32.ofNat j * sb.sBlocksPerGroup * sectorsPerBlock + sectorsPerBlock +
      UInt32.ofNat i / ((Disk.operations disk).bytesPerSector / 32))
    sector (List.range (Disk.operations disk).groupCount.toNat) disk

/-- One iteration of the loop of `ext2_format`, for group `i`. -/
def formatGroup (sb : Ext2SuperBlock) (st : FormatState δ) (i : Nat) : Exec (FormatState δ) := do
  let perSector := (Disk.operations st.disk).bytesPerSector / 32
  let st := if UInt32.ofNat i % perSector = 0 then startDescSector st else st
  let desc := fillDesc (Disk.operations st.disk) sb (UInt32.ofNat i)
  let sector ← modifyAt asDescs st.sector st.desc fun _ ↦ desc
  let disk :=
    if UInt32.ofNat i / perSector ≠ 0 ∨
        UInt32.ofNat i = (Disk.operations st.disk).groupCount - 1 then
      writeDescTable st.disk sb i sector
    else st.disk
  let disk ← initBitmap disk sb desc
  return { disk := disk, sector := sector, desc := st.desc + 1 }

def ext2Format (disk : δ) : Exec (Int × δ) := do
  let sb := fillSb (Disk.operations disk).numberOfSectors (Disk.operations disk).bytesPerSector
  let disk := Disk.writeSector disk 0 (asSuperBlock.symm sb)
  let disk := Disk.writeSector disk 1 zeroSector
  let st ← forEach (formatGroup sb) { disk := disk, sector := zeroSector, desc := 0 }
    (List.range (Disk.operations disk).groupCount.toNat)
  let disk ← createRoot st.disk
  return (ext2Success, disk)

end Disk

end Ext2Fs
