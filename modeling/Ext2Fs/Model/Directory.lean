import Ext2Fs.Model.Inode
import Ext2Fs.Model.Name

/-!
# Directories (ext2.c: ext2_lookup, ext2_mkdir, ext2_create)
-/

open Reasoning

namespace Ext2Fs

/-! ## ext2_lookup -/

/-- `strcmp(entry->name, entryName) == 0`, reading the name and padding of the entry. -/
def nameEquals : List UInt8 → List UInt8 → Exec Bool
  | [], _ => .error .outOfBounds
  | b :: _, [] => .ok (b = 0)
  | b :: bs, c :: cs => if b = c then nameEquals bs cs else .ok false

/-- Outcome of the innermost loop of `ext2_lookup` on one sector. -/
inductive EntryScan where
  | found (k : Nat)
  | noMore
  | next
  deriving DecidableEq

/-- The innermost loop of `ext2_lookup`, from entry `k` on; an empty name is one whose first
character is `DIR_ENTRY_NO_MORE`. -/
def scanEntries (entryName : List UInt8) : List Ext2DirEntry → Nat → Exec EntryScan
  | [], _ => .ok .next
  | entry :: entries, k =>
    if entryName = [] then
      if getElem entry.name 0 nameByte_lt = dirEntryNoMore then .ok (.found k)
      else scanEntries entryName entries (k + 1)
    else if getElem entry.name 0 nameByte_lt = dirEntryNoMore then .ok .noMore
    else do
      if ← nameEquals entry.name.toList entryName then return .found k
      else scanEntries entryName entries (k + 1)

/-- What a call of `ext2_lookup` leaves behind: its return value, indeterminate when the end of
the function is reached without a `return`, and the caller's location variable. -/
structure LookupResult where
  status : Option Int
  location : Option EntryLocation
  fs : Ext2Filesystem

/-- The sector loop of `ext2_lookup` over the remaining pairs of block `i` and sector `j`. -/
def lookupSectors (parent : Ext2Node) (entryName : List UInt8) (location : Option EntryLocation) :
    Ext2Filesystem → InodeVar → Option Sector → List (Nat × Nat) → Exec LookupResult
  | fs, _, _, [] => .ok ⟨none, location, fs⟩
  | fs, inode, buf, (i, j) :: rest => do
    let offset := (UInt32.ofNat i * sectorsPerBlock + UInt32.ofNat j) * maxSectorSize
    let (blockNum, fs, inode, buf) ← getDatablock fs parent inode offset.toUInt64 buf
    let sector ← determinate buf
    match ← scanEntries entryName (asEntries sector).toList 0 with
    | .found k =>
      let entryNum := UInt32.ofNat j * maxSectorSize / 32 + UInt32.ofNat k
      return ⟨some ext2Success, some ⟨blockNum, entryNum⟩, fs⟩
    | .noMore => return ⟨some ext2Error, location, fs⟩
    | .next => lookupSectors parent entryName location fs inode buf rest

/-- The pairs of block and sector numbers of a directory of `blocks` blocks, in loop order. -/
def sectorPairs (blocks : Nat) : List (Nat × Nat) :=
  (List.range blocks).flatMap fun i ↦ (List.range 8).map fun j ↦ (i, j)

def ext2Lookup (fs : Ext2Filesystem) (parent : Ext2Node) (entryName : List UInt8)
    (location : Option EntryLocation) : Exec LookupResult := do
  let inode := ext2FillInode fs InodeVar.uninit parent.entry.inode
  let blocks ← determinate inode.iBlocks
  lookupSectors parent entryName location fs inode none (sectorPairs blocks.toNat)

/-! ## Steps shared by ext2_mkdir and ext2_create -/

inductive DirOp where
  | mkdir
  | create
  deriving DecidableEq

/-- `strncpy(name, entryName, MAX_NAME_LENGTH)` in `ext2_mkdir`, `strcpy(name, entryName)` in
`ext2_create`. -/
def loadName : DirOp → List UInt8 → Exec NameBuffer
  | .mkdir, s => .ok (NameBuffer.ofString s)
  | .create, s => if s.length < 256 then .ok (NameBuffer.ofString s) else .error .outOfBounds

/-- `for (i = 0; i < SECTORS_PER_BLOCK; i++) if (ext2_lookup(…) == EXT2_SUCCESS) break;` with a
name whose first character was replaced by `DIR_ENTRY_NO_MORE`. -/
def findNoMore (parent : Ext2Node) : Nat → Ext2Filesystem → Option EntryLocation →
    Exec (Option EntryLocation × Ext2Filesystem)
  | 0, fs, location => .ok (location, fs)
  | n + 1, fs, location => do
    let r ← ext2Lookup fs parent [] location
    let status ← determinate r.status
    if status = ext2Success then return (r.location, r.fs)
    else findNoMore parent n r.fs r.location

/-- The entry is copied into the directory slot that `location` names. -/
def insertEntry (fs : Ext2Filesystem) (location : Option EntryLocation) (new : Ext2DirEntry) :
    Exec Ext2Filesystem := do
  let location ← determinate location
  let sectorOffset := (location.entryNum.toUInt64 * 32 / 512).toUInt32
  let entryOffset := (location.entryNum.toUInt64 * 32 % 512 / 32).toUInt32
  let address := sectorOffset + location.blockNum * sectorsPerBlock
  let sector ← determinate (fs.disk.readSector address none).2
  let entry ← determinate (loadAt asEntries sector entryOffset.toNat)
  match cString new.name with
  | none => .error .outOfBounds
  | some name =>
    let entry ← fillEntry entry name (toCInt new.inode)
    let sector ← modifyAt asEntries sector entryOffset.toNat fun _ ↦ entry
    return { fs with disk := fs.disk.writeSector address sector }

/-! ## ext2_create -/

def ext2Create (fs : Ext2Filesystem) (parent : Ext2Node) (entryName : List UInt8) :
    Exec (Int × Option Ext2Node × Ext2Filesystem) := do
  let name ← loadName .create entryName
  let (rejected, name) ← formatName name
  if rejected ≠ 0 then return (ext2Error, none, fs)
  match cString name with
  | none => .error .outOfBounds
  | some s =>
    let r ← ext2Lookup fs parent s none
    let status ← determinate r.status
    if status = ext2Success then return (ext2Error, none, r.fs)
    let (inodeNum, fs) ← allocFreeInode r.fs parent
    -- `memcpy(retEntry->entry.name, name, MAX_ENTRY_NAME_LENGTH)` into a zeroed node
    let entry := { Ext2DirEntry.zero with
      name := Vector.ofFn fun i ↦ if i.val < 11 then name[i.val] else 0 }
    let entry ← fillEntry entry s inodeNum
    if entry.inode = UInt32.ofInt ext2Error then return (ext2Error, none, fs)
    -- `ext2_fill_inode(parent->fs, &inode, …)` fills a variable that is not used again
    let _inode := ext2FillInode fs InodeVar.uninit entry.inode
    let (location, fs) ← findNoMore parent 8 fs r.location
    let fs ← insertEntry fs location entry
    return (ext2Success, some { entry := entry, inodeNum := UInt32.ofInt inodeNum }, fs)

/-! ## ext2_mkdir -/

/-- The first sector of a new directory. -/
def newDirSector (self parent : UInt32) : Exec Sector :=
  forEach
    (fun sector (p : Nat × List UInt8 × UInt32) ↦ do
      let entry ← determinate (loadAt asEntries sector p.1)
      let entry ← fillEntry entry p.2.1 (toCInt p.2.2)
      modifyAt asEntries sector p.1 fun _ ↦ entry)
    zeroSector [(0, dotName, self), (1, dotdotName, parent), (2, noMoreName, self)]

/-- `bg_used_dirs_count++` for the group of the new inode, in every copy. -/
def countDirectory (fs : Ext2Filesystem) (inodeNum : UInt32) (buf : Sector) :
    Exec Ext2Filesystem := do
  let sector ← determinate
    (fs.disk.readSector ((fs.spb.sFirstDataBlock + 1) * sectorsPerBlock) (some buf)).2
  let sector ← modifyAt asDescs sector (inodeNum / inodesPerGroup).toNat fun desc ↦
    { desc with bgUsedDirsCount := desc.bgUsedDirsCount + 1 }
  return { fs with disk := writeDescSectors fs.disk fs.spb sector }

/-- `ext2_mkdir`; a new node keeps the `inodeNum` that `ZeroMemory` gave it. -/
def ext2Mkdir (fs : Ext2Filesystem) (parent : Ext2Node) (entryName : List UInt8) :
    Exec (Int × Option Ext2Node × Ext2Filesystem) := do
  let name ← loadName .mkdir entryName
  let (rejected, name) ← formatName name
  if rejected ≠ 0 then return (ext2Error, none, fs)
  match cString name with
  | none => .error .outOfBounds
  | some s =>
    let r ← ext2Lookup fs parent s none
    let status ← determinate r.status
    if status = ext2Success then return (ext2Error, none, r.fs)
    let (inodeNum, fs) ← allocFreeInode r.fs parent
    let entry ← fillEntry Ext2DirEntry.zero s inodeNum
    if entry.inode = UInt32.ofInt ext2Error then return (ext2Error, none, fs)
    -- `ext2_fill_inode(parent->fs, &inode, …)` fills a variable that is not used again
    let _inode := ext2FillInode fs InodeVar.uninit entry.inode
    let (location, fs) ← findNoMore parent 8 fs r.location
    let fs ← insertEntry fs location entry
    let node : Ext2Node := { entry := entry, inodeNum := 0 }
    let (datablock, fs) ← insertInode fs node entry.inode attrDirectory
    let datablock := UInt32.ofInt datablock
    let sector ← newDirSector entry.inode parent.entry.inode
    let disk := fs.disk.writeSector
      ((entry.inode / inodesPerGroup * blockPerGroup + datablock) * sectorsPerBlock) sector
    let fs ← countDirectory { fs with disk := disk } entry.inode sector
    return (ext2Success, some node, fs)

end Ext2Fs
