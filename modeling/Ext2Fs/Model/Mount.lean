import Ext2Fs.Model.Format

/-!
# Mounting (ext2.c: read_desc, ext2_read_superblock)
-/

open Reasoning

namespace Ext2Fs

/-- The six fields that `read_desc` copies. -/
def copyDesc (entry : Ext2GroupDesc) : Ext2GroupDesc :=
  { Ext2GroupDesc.zero with
    bgBlockBitmap := entry.bgBlockBitmap
    bgFreeBlocksCount := entry.bgFreeBlocksCount
    bgFreeInodesCount := entry.bgFreeInodesCount
    bgInodeBitmap := entry.bgInodeBitmap
    bgInodeTable := entry.bgInodeTable
    bgUsedDirsCount := entry.bgUsedDirsCount }

/-- `read_desc`, from entry `groupNum` of the first descriptor sector; `none` when the fields are
read from outside the sector buffer or from a buffer never filled. -/
def readDesc (fs : Ext2Filesystem) (groupNum : UInt32) : Option Ext2GroupDesc := do
  let sector ← (fs.disk.readSector ((fs.spb.sFirstDataBlock + 1) * sectorsPerBlock) none).2
  let entry ← loadAt asDescs sector groupNum.toNat
  return copyDesc entry

/-- `memset(root->entry.name, 0x20, 11)`. -/
def blankName (name : Bytes 24) : Bytes 24 :=
  Vector.ofFn fun i ↦ if i.val < 11 then 0x20 else name[i.val]

/-- `ext2_read_superblock` on a zeroed `EXT2_FILESYSTEM`, as `fs_mount` calls it; `none` is the
return of `EXT2_ERROR`. -/
def ext2ReadSuperblock (disk : DiskOperations) : Exec (Option (Ext2Filesystem × Ext2Node)) :=
  match disk.readSector 0 none with
  | (0, some spbSector) => do
    let fs : Ext2Filesystem := { spb := asSuperBlock spbSector, disk := disk }
    let desc ← determinate (readDesc fs 0)
    let datablock := fs.spb.sFirstDataBlock + desc.bgInodeTable + inodeTableBlocks fs.spb
    let sector ← determinate (disk.readSector (datablock * sectorsPerBlock) none).2
    let entry ← determinate (loadAt asEntries sector 0)
    return some (fs, { entry := { entry with name := blankName entry.name }, inodeNum := 2 })
  | _ => return none

/-- `fs_format`, then `fs_mount`. -/
def formatAndMount (disk : DiskOperations) : Exec (Option (Ext2Filesystem × Ext2Node)) := do
  let (_, disk) ← ext2Format disk
  ext2ReadSuperblock disk

end Ext2Fs
