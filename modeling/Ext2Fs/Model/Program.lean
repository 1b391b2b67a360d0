import Ext2Fs.Model.CommandLine
import Ext2Fs.Model.Ext2Shell
import Ext2Fs.Model.Mount

/-!
# The program (shell.c: main, do_shell and the functions of the commands; ext2_shell.c: fs_remove,
fs_rmdir, fs_format, fs_dump; ext2.c: ext2_remove, ext2_rmdir)

What the functions print is left out, and so are the messages chosen by their return values; that
`ext2_fill_inode` reads, and `printf` prints, behind the end of a buffer does not stop a run here.
-/

open Reasoning

namespace Ext2Fs

/-! ## Removing -/

/-- `ext2_remove`, whose argument is what `ext2_lookup` has made of an `EXT2_NODE`. -/
def ext2Remove (_file : Option EntryLocation) : Int := 0

def ext2Rmdir (_dir : Option EntryLocation) : Int := 0

/-- `fs_remove`. -/
def fsRemove (fs : Ext2Filesystem) (parent : ShellEntry) (name : List UInt8) :
    Exec (Int × Ext2Filesystem) := do
  let r ← ext2Lookup fs (shellEntryToExt2Entry parent).node name none
  return (ext2Remove r.location, r.fs)

/-- `fs_rmdir`. -/
def fsRmdir (fs : Ext2Filesystem) (parent : ShellEntry) (name : List UInt8) :
    Exec (Int × Ext2Filesystem) := do
  let r ← ext2Lookup fs (shellEntryToExt2Entry parent).node name none
  return (ext2Rmdir r.location, r.fs)

/-! ## atoi -/

/-- The value of the digits at the start of a string. -/
def digitsValue (s : List UInt8) : Nat :=
  (s.takeWhile isDigit).foldl (fun value c ↦ 10 * value + (c - 0x30).toNat) 0

/-- `atoi`; a value that is no `int` has no meaning. -/
def atoi (s : List UInt8) : Exec Int32 :=
  let s := s.dropWhile isSpace
  let value : Int :=
    if s.head? = some 0x2d then -digitsValue s.tail
    else if s.head? = some 0x2b then digitsValue s.tail
    else digitsValue s
  intValue value

/-! ## State -/

/-- The static variables of shell.c.  `spb` is the superblock in the `EXT2_FILESYSTEM` behind
`g_fsOprs.pdata`; its disk is `g_disk`. -/
structure Program where
  disk : DiskOperations
  spb : Option Ext2SuperBlock
  shell : ShellState
  running : Bool

namespace Program

/-- The program when `main` calls `do_shell`. -/
def start (disk : DiskOperations) : Program := ⟨disk, none, ShellState.start, true⟩

/-- The object behind the `fs` pointer of a node; only the one of the last `fs_mount` is alive. -/
def filesystem (p : Program) (fs : Option Nat) : Exec Ext2Filesystem :=
  match p.spb with
  | some spb => if fs = p.shell.pdata then .ok ⟨spb, p.disk⟩ else .error .badPointer
  | none => .error .badPointer

/-- The program with the file system as a function of ext2.c left it. -/
def keep (p : Program) (fs : Ext2Filesystem) : Program :=
  { p with disk := fs.disk, spb := some fs.spb }

/-- The file system that the current directory belongs to. -/
def currentFs (p : Program) : Exec Ext2Filesystem := p.filesystem p.shell.currentDir.pdata.fs

/-! ## The functions of the commands

`args` are the arguments behind the name of the command. -/

/-- `shell_cmd_mount`.  When `ext2_read_superblock` fails, `fs_mount` follows the `fs` pointer of a
node that was never filled. -/
def shellCmdMount (p : Program) (stack : StackInode) : Exec (Int × Program) := do
  let (fs, root) ← determinate (← ext2ReadSuperblock p.disk)
  let (result, shell) := Ext2Fs.shellCmdMount p.shell true
    (ext2EntryToShellEntry fs stack ⟨none, root⟩)
  return (result, { p with spb := some fs.spb, shell := shell })

def shellCmdUmount (p : Program) : Int × Program :=
  let (result, shell) := Ext2Fs.shellCmdUmount p.shell
  (result, { p with spb := none, shell := shell })

/-- `shell_cmd_cd`.  A lookup leaves the file system as it is, so the one that it returns is not
kept. -/
def shellCmdCd (p : Program) (stack : StackInode) (args : List (List UInt8)) :
    Exec (Int × Program) := do
  let lookup (parent : ShellEntry) (name : List UInt8) : Exec LookupAnswer := do
    let fs ← p.filesystem parent.pdata.fs
    cdLookup fs stack none parent name
  let (result, shell) ← Ext2Fs.shellCmdCd lookup p.shell args
  return (result, { p with shell := shell })

def shellCmdTouch (p : Program) (stack : StackInode) (args : List (List UInt8)) :
    Exec (Int × Program) :=
  match args with
  | [] => .ok (0, p)
  | name :: _ => do
    let fs ← p.currentFs
    let (result, _, fs) ← fsCreate fs stack p.shell.currentDir name
    return (if result ≠ 0 then -1 else 0, p.keep fs)

/-- `shell_cmd_fill`.  The call of `scanf` takes the second argument for its format and stores
nothing into `size`, which `malloc` is then called with.  A conversion in that format has no place
of its own to store to.  What the call takes away from the input is never read by `fgets`. -/
def shellCmdFill (p : Program) (stack : StackInode) (args : List (List UInt8)) :
    Exec (Int × Program) :=
  match args with
  | [name, format] => do
    if 0x25 ∈ format then .error .badPointer
    let fs ← p.currentFs
    let (result, _, fs) ← fsCreate fs stack p.shell.currentDir name
    if result ≠ 0 then return (-1, p.keep fs)
    .error .indeterminate
  | _ => .ok (0, p)

def shellCmdRm (p : Program) (args : List (List UInt8)) : Exec (Int × Program) := do
  let p ← forEach
    (fun (p : Program) name ↦ do
      let fs ← p.currentFs
      let (_, fs) ← fsRemove fs p.shell.currentDir name
      return p.keep fs)
    p args
  return (0, p)

def shellCmdLs (p : Program) (args : List (List UInt8)) : Int × Program :=
  if args.length > 1 then (0, p)
  else
    let (result, _) := fsReadDir p.shell.currentDir []
    (if result ≠ 0 then -1 else 0, p)

/-- `shell_cmd_format`; `fs_format` does not use its parameter. -/
def shellCmdFormat (p : Program) : Exec (Int × Program) := do
  let (result, disk) ← ext2Format p.disk
  return (if result < 0 then -1 else 0, { p with disk := disk })

/-- `shell_cmd_df`; `fs_stat` takes the file system from `g_fsOprs.pdata`. -/
def shellCmdDf (p : Program) : Exec (Int × Program) := do
  let fs ← p.filesystem p.shell.pdata
  let _report := Ext2Fs.shellCmdDf fs
  return (0, p)

def shellCmdMkdir (p : Program) (stack : StackInode) (args : List (List UInt8)) :
    Exec (Int × Program) :=
  match args with
  | [name] => do
    let fs ← p.currentFs
    let (result, _, fs) ← fsMkdir fs stack p.shell.currentDir name
    return (if result ≠ 0 then -1 else 0, p.keep fs)
  | _ => .ok (0, p)

def shellCmdRmdir (p : Program) (args : List (List UInt8)) : Exec (Int × Program) :=
  match args with
  | [name] => do
    let fs ← p.currentFs
    let (result, fs) ← fsRmdir fs p.shell.currentDir name
    return (if result ≠ 0 then -1 else 0, p.keep fs)
  | _ => .ok (0, p)

/-- `shell_cmd_mkdirst`, whose loop runs up to a `count` that nothing was stored into. -/
def shellCmdMkdirst (p : Program) (args : List (List UInt8)) : Exec (Int × Program) :=
  if args.length = 1 then .error .indeterminate else .ok (0, p)

/-- `shell_cmd_cat`.  After a lookup that succeeds, the file that is read is a variable that
nothing was stored into. -/
def shellCmdCat (p : Program) (stack : StackInode) (args : List (List UInt8)) :
    Exec (Int × Program) :=
  match args with
  | [name] => do
    let fs ← p.currentFs
    let (answer, fs) ← fsLookup fs stack p.shell.currentDir none name
    let p := { p.keep fs with shell := { p.shell with currentDir := answer.parent } }
    let result ← determinate answer.result
    if result ≠ 0 then return (-1, p)
    .error .indeterminate
  | _ => .ok (0, p)

/-! ### The dumps -/

/-- A command that prints what `ext2_dump` reads. -/
def dump (p : Program) (blockGroupNum : Int32) (type : Nat) (target : Int32) :
    Exec (Int × Program) := do
  let _printed ← ext2Dump p.disk blockGroupNum type target
  return (0, p)

/-- A command whose argument is the number of a block group. -/
def dumpGroup (p : Program) (type : Nat) (args : List (List UInt8)) : Exec (Int × Program) :=
  match args with
  | [group] => do
    let blockGroupNum ← atoi group
    p.dump blockGroupNum type 0
  | _ => .ok (0, p)

def shellCmdDumpsb (p : Program) : Exec (Int × Program) := p.dump 0 1 0
def shellCmdDumpgdt (p : Program) : Exec (Int × Program) := p.dump 0 2 0
def shellCmdDumpbmap (p : Program) : List (List UInt8) → Exec (Int × Program) := p.dumpGroup 3
def shellCmdDumpimap (p : Program) : List (List UInt8) → Exec (Int × Program) := p.dumpGroup 4
def shellCmdDumpit (p : Program) : List (List UInt8) → Exec (Int × Program) := p.dumpGroup 5

def shellCmdDumpdata (p : Program) (args : List (List UInt8)) : Exec (Int × Program) :=
  match args with
  | [group, block] => do
    let blockGroupNum ← atoi group
    let blockNum ← atoi block
    p.dump blockGroupNum 6 blockNum
  | _ => .ok (0, p)

/-- `shell_cmd_dumpfile`.  `lookfile` is a pointer to a function of two parameters, and
`fs_dumpFile` has four. -/
def shellCmdDumpfile (p : Program) (args : List (List UInt8)) : Exec (Int × Program) :=
  if args.length = 1 then .error .badPointer else .ok (0, p)

/-! ## do_shell -/

/-- `g_commands[i].handler(argc, argv)`; `exit` ends the process. -/
def handle (p : Program) (stack : StackInode) (args : List (List UInt8)) :
    Handler → Exec (Int × Program)
  | .cd => p.shellCmdCd stack args
  | .exit => .ok (0, { p with running := false })
  | .mount => p.shellCmdMount stack
  | .umount => .ok p.shellCmdUmount
  | .touch => p.shellCmdTouch stack args
  | .fill => p.shellCmdFill stack args
  | .rm => p.shellCmdRm args
  | .ls => .ok (p.shellCmdLs args)
  | .format => p.shellCmdFormat
  | .df => p.shellCmdDf
  | .mkdir => p.shellCmdMkdir stack args
  | .rmdir => p.shellCmdRmdir args
  | .mkdirst => p.shellCmdMkdirst args
  | .cat => p.shellCmdCat stack args
  | .dumpsb => p.shellCmdDumpsb
  | .dumpgdt => p.shellCmdDumpgdt
  | .dumpbmap => p.shellCmdDumpbmap args
  | .dumpimap => p.shellCmdDumpimap args
  | .dumpit => p.shellCmdDumpit args
  | .dumpdata => p.shellCmdDumpdata args
  | .dumpfile => p.shellCmdDumpfile args

/-- What `do_shell` has in its arrays when `fgets` returns, and what stands on the stack of the
functions that it calls.  The lines of a run are those that `fgets` reads, one after the other: input
that the `scanf` of a `fill` has taken away is in none of them. -/
structure TypedLine where
  argv : List (Option Nat)
  buf : List UInt8
  stack : StackInode

/-- The strings behind `argv[1]` to `argv[argc - 1]`. -/
def arguments (argc : Nat) (argv : List (Option Nat)) (buf : List UInt8) :
    Exec (List (List UInt8)) :=
  (List.range' 1 (argc - 1)).mapM fun i ↦
    Split.argument { line := buf, buf := 0, prev := 0, count := argc, ptrs := argv } i

/-- The body of the loop of `do_shell` behind `fgets`. -/
def runLine (p : Program) (typed : TypedLine) : Exec Program :=
  if p.running then do
    match ← doShellLine p.shell.isMounted typed.argv typed.buf with
    | .blank => return p
    | .unknown => return p
    | .refused => return p
    | .handled handler argc argv buf =>
      let args ← arguments argc argv buf
      let (_, p) ← p.handle typed.stack args handler
      return p
  else .ok p

end Program

end Ext2Fs
