import Ext2Fs.Model.Directory
import Ext2Fs.Model.Shell

/-!
# The file system as the shell sees it (ext2_shell.c, ext2.c: ext2_read_dir)

There is one mounted file system, the one that the `fs` pointers of the nodes lead to.  What the
functions print is left out.
-/

open Reasoning

namespace Ext2Fs

theorem extensionByte_lt : 8 < 24 := by decide

/-! ## Strings -/

/-- `my_strncpy`: the characters written up to the pointer that it returns. -/
def myStrncpy (dest src : List UInt8) (length : Nat) : List UInt8 :=
  dest ++ (src.takeWhile fun c ↦ c ≠ 0 ∧ c ≠ 0x20).take length

/-- `my_strnicmp`; a list stands for its string with the terminator behind it. -/
def myStrnicmp : List UInt8 → List UInt8 → Nat → Int
  | _, _, 0 => 0
  | str1, str2, length + 1 =>
    let b1 := str1.headD 0
    let b2 := str2.headD 0
    if (b1 ≠ 0 ∧ b1 ≠ 0x20) ∨ (b2 ≠ 0 ∧ b2 ≠ 0x20) then
      let c1 := (toUpper b1).toInt8
      let c2 := (toUpper b2).toInt8
      if c1 > c2 then -1
      else if c1 < c2 then 1
      else myStrnicmp str1.tail str2.tail length
    else 0

/-- `*str` for a pointer into an object of which only these characters are left. -/
def readChar : List UInt8 → Exec UInt8
  | [] => .error .outOfBounds
  | c :: _ => .ok c

/-- The first condition of the loop of `my_strnicmp`. -/
def strnicmpContinues (str1 str2 : List UInt8) : Exec Bool := do
  let b1 ← readChar str1
  if b1 ≠ 0 ∧ b1 ≠ 0x20 then return true
  let b2 ← readChar str2
  return decide (b2 ≠ 0 ∧ b2 ≠ 0x20)

/-- `my_strnicmp` on two objects that end with their last character. -/
def myStrnicmpIn (str1 str2 : List UInt8) (length : Nat) : Exec Int := do
  let continues ← strnicmpContinues str1 str2
  if ¬ continues then return 0
  match length with
  | 0 => return 0
  | length + 1 =>
    let b1 ← readChar str1
    let b2 ← readChar str2
    let c1 := (toUpper b1).toInt8
    let c2 := (toUpper b2).toInt8
    if c1 > c2 then return -1
    else if c1 < c2 then return 1
    else myStrnicmpIn str1.tail str2.tail length
termination_by structural length

/-! ## Entries -/

/-- What stands on the stack where `ext2_fill_inode` reads outside its buffer or leaves its
variable alone. -/
structure StackInode where
  iMode : UInt16
  iBlocks : UInt32

/-- `ext2_entry_to_shell_entry`.  Its last call is left out: `printf(buf)`, with the first five bytes
of the name for a format and no zero stored behind them. -/
def ext2EntryToShellEntry (fs : Ext2Filesystem) (stack : StackInode) (ext2Entry : EntryData) :
    ShellEntry :=
  let inode := ext2FillInode fs InodeVar.uninit ext2Entry.node.entry.inode
  let iMode := inode.iMode.getD stack.iMode
  let name := ext2Entry.node.entry.name
  let str := myStrncpy [] name.toList 8
  let str :=
    if getElem name 8 extensionByte_lt = 0x20 then str
    else myStrncpy (myStrncpy str [0x2e] 1) (name.toList.drop 8) 3
  let isDirectory := iMode &&& attrDirectory ≠ 0 ∨ iMode &&& attrVolumeId ≠ 0
  { name := NameBuffer.ofString (if iMode ≠ attrVolumeId then str else [])
    isDirectory := if isDirectory then 1 else 0
    size := if isDirectory then 0 else inode.iBlocks.getD stack.iBlocks * blockSizeInBytes
    pdata := ext2Entry }

def shellEntryToExt2Entry (shellEntry : ShellEntry) : EntryData := shellEntry.pdata

/-! ## read_dir -/

/-- `ext2_read_dir`, which never calls its adder. -/
def ext2ReadDir (_entry : EntryData) (list : List ShellEntry) : Int × List ShellEntry := (0, list)

def fsReadDir (parent : ShellEntry) (list : List ShellEntry) : Int × List ShellEntry :=
  let list := if list.length ≠ 0 then [] else list
  (ext2Success, (ext2ReadDir (shellEntryToExt2Entry parent) list).2)

/-- The loop of `is_exist` over the list. -/
def isExistIn (name : List UInt8) : List ShellEntry → Int
  | [] => ext2Success
  | current :: rest =>
    if myStrnicmp current.name.toList name 12 = 0 then ext2Error else isExistIn name rest

def isExist (parent : ShellEntry) (name : List UInt8) : Int :=
  isExistIn name (fsReadDir parent []).2

/-! ## stat -/

/-- The variables that `ext2_df` is to fill; `none` where nothing has been stored yet. -/
structure DfOutputs where
  totalSectors : Option UInt32
  usedSectors : Option UInt32

def DfOutputs.uninit : DfOutputs := ⟨none, none⟩

def ext2Df (fs : Ext2Filesystem) (out : DfOutputs) : Int × DfOutputs :=
  let out :=
    if fs.spb.sBlocksCount ≠ 0 then out
    else { out with totalSectors := some (fs.spb.sFreeBlocksCount * 8) }
  let out := { out with usedSectors := some ((fs.spb.sBlocksCount - fs.spb.sFreeBlocksCount) * 8) }
  (ext2Success, out)

def fsStat (fs : Ext2Filesystem) (out : DfOutputs) : Int × DfOutputs := ext2Df fs out

/-- The figures that `shell_cmd_df` prints, without the percentages; `none` for one that is computed
from a variable to which nothing was stored. -/
structure DfReport where
  free : Option UInt32
  used : Option UInt32
  total : Option UInt32

def shellCmdDf (fs : Ext2Filesystem) : DfReport :=
  let (_, out) := fsStat fs DfOutputs.uninit
  { free := out.totalSectors.bind fun total ↦ out.usedSectors.map fun used ↦ total - used
    used := out.usedSectors
    total := out.totalSectors }

/-! ## create, mkdir and lookup -/

/-- `fs_create`; `none` in place of `*retEntry` when it is not written. -/
def fsCreate (fs : Ext2Filesystem) (stack : StackInode) (parent : ShellEntry) (name : List UInt8) :
    Exec (Int × Option ShellEntry × Ext2Filesystem) := do
  let ext2Parent := shellEntryToExt2Entry parent
  let (result, ext2Entry, fs) ← ext2Create fs ext2Parent.node name
  if result ≠ 0 then return (result, none, fs)
  let node ← determinate ext2Entry
  return (result, some (ext2EntryToShellEntry fs stack ⟨ext2Parent.fs, node⟩), fs)

/-- `fs_mkdir`. -/
def fsMkdir (fs : Ext2Filesystem) (stack : StackInode) (parent : ShellEntry) (name : List UInt8) :
    Exec (Int × Option ShellEntry × Ext2Filesystem) := do
  if isExist parent name ≠ 0 then return (ext2Error, none, fs)
  let ext2Parent := shellEntryToExt2Entry parent
  let (result, ext2Entry, fs) ← ext2Mkdir fs ext2Parent.node name
  if result ≠ 0 then return (result, none, fs)
  let node ← determinate ext2Entry
  return (result, some (ext2EntryToShellEntry fs stack ⟨ext2Parent.fs, node⟩), fs)

/-- `fs_lookup`.  `EXT2Entry` is passed to `ext2_lookup` as the location, and it is the parent that
is converted back. -/
def fsLookup (fs : Ext2Filesystem) (stack : StackInode) (parent : ShellEntry)
    (entry : Option ShellEntry) (name : List UInt8) : Exec (LookupAnswer × Ext2Filesystem) := do
  let ext2Parent := shellEntryToExt2Entry parent
  let r ← ext2Lookup fs ext2Parent.node name none
  let parent := ext2EntryToShellEntry r.fs stack ext2Parent
  return (⟨r.status, parent, entry⟩, r.fs)

/-- `g_fsOprs.lookup` in `shell_cmd_cd`, where `newEntry` is the caller's variable. -/
def cdLookup (fs : Ext2Filesystem) (stack : StackInode) (newEntry : Option ShellEntry)
    (parent : ShellEntry) (name : List UInt8) : Exec LookupAnswer := do
  let (answer, _) ← fsLookup fs stack parent newEntry name
  return answer

end Ext2Fs
