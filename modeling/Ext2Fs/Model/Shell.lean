import Ext2Fs.Model.Format

/-!
# The shell (shell.c: check_conditions, shell_cmd_cd, shell_cmd_mount, shell_cmd_umount; ext2_shell.c:
fs_mount, fs_umount)
-/

open Reasoning

namespace Ext2Fs

/-! ## Entries -/

/-- The `EXT2_NODE` in the private data of a shell entry.  Its `fs` pointer is told by the call of
`malloc` that returned it, and is `none` when it is NULL. -/
structure EntryData where
  fs : Option Nat
  node : Ext2Node

/-- `SHELL_ENTRY`. -/
structure ShellEntry where
  name : Bytes 256
  isDirectory : UInt8
  size : UInt32
  pdata : EntryData

/-- `memset(shell_entry, 0, sizeof(SHELL_ENTRY))`. -/
def ShellEntry.zero : ShellEntry :=
  ⟨Vector.replicate 256 0, 0, 0, ⟨none, ⟨Ext2DirEntry.zero, 0⟩⟩⟩

/-! ## State -/

/-- The static variables of shell.c and of `shell_cmd_cd`; `pdata` is that of `g_fsOprs`, and
`allocations` counts the file systems that `fs_mount` has allocated. -/
structure ShellState where
  isMounted : Bool
  pdata : Option Nat
  allocations : Nat
  rootDir : ShellEntry
  currentDir : ShellEntry
  path : Vector ShellEntry 256
  pathTop : Nat

def ShellState.start : ShellState :=
  ⟨false, none, 0, ShellEntry.zero, ShellEntry.zero, Vector.replicate 256 ShellEntry.zero, 0⟩

/-! ## mount and umount -/

/-- `fs_mount`.  `readable` tells whether `ext2_read_superblock` succeeds, and `root` is the entry
made of the node behind it; the node's `fs` is set on success only. -/
def fsMount (st : ShellState) (readable : Bool) (root : ShellEntry) : Int × ShellState :=
  let pdata := st.allocations
  let st := { st with pdata := some pdata, allocations := pdata + 1 }
  if readable then
    (ext2Success,
      { st with rootDir := { root with pdata := { root.pdata with fs := some pdata } } })
  else (ext2Error, { st with rootDir := root })

def shellCmdMount (st : ShellState) (readable : Bool) (root : ShellEntry) : Int × ShellState :=
  let (result, st) := fsMount st readable root
  let st := { st with currentDir := st.rootDir }
  if result < 0 then (-1, st) else (0, { st with isMounted := true })

/-- `fs_umount`. -/
def fsUmount (st : ShellState) : ShellState :=
  if st.pdata.isSome then { st with pdata := none } else st

def shellCmdUmount (st : ShellState) : Int × ShellState :=
  (0, fsUmount { st with isMounted := false })

/-! ## cd -/

/-- What a call of `g_fsOprs.lookup` leaves behind: its return value, the entry that its parent
argument points to, and the caller's variable for the new entry. -/
structure LookupAnswer where
  result : Option Int
  parent : ShellEntry
  entry : Option ShellEntry

/-- `path[++pathTop] = newEntry;` -/
def ShellState.push (st : ShellState) (newEntry : ShellEntry) : Exec ShellState :=
  let pathTop := st.pathTop + 1
  if h : pathTop < 256 then .ok { st with path := st.path.set pathTop newEntry, pathTop := pathTop }
  else .error .outOfBounds

/-- `g_currentDir = path[pathTop];` -/
def ShellState.enter (st : ShellState) : Exec ShellState :=
  match st.path[st.pathTop]? with
  | some entry => .ok { st with currentDir := entry }
  | none => .error .outOfBounds

/-- `path[0] = g_rootDir;` -/
def ShellState.setBottom (st : ShellState) : ShellState :=
  { st with path := st.path.setIfInBounds 0 st.rootDir }

/-- `shell_cmd_cd`; `args` are the arguments behind the name of the command. -/
def shellCmdCd (lookup : ShellEntry → List UInt8 → Exec LookupAnswer) (st : ShellState)
    (args : List (List UInt8)) : Exec (Int × ShellState) := do
  let st := st.setBottom
  match args with
  | [] =>
    let st ← { st with pathTop := 0 }.enter
    return (0, st)
  | [arg] =>
    if arg = dotName then return (0, st)
    else if arg = dotdotName ∧ 0 < st.pathTop then
      let st ← { st with pathTop := st.pathTop - 1 }.enter
      return (0, st)
    else
      let answer ← lookup st.currentDir arg
      let st := { st with currentDir := answer.parent }
      let result ← determinate answer.result
      if result = ext2Success then return (-1, st)
      let newEntry ← determinate answer.entry
      if newEntry.isDirectory = 0 then return (-1, st)
      let st ← st.push newEntry
      let st ← st.enter
      return (0, st)
  | _ => return (0, st)

/-! ## Commands -/

/-- A line typed at the shell, with what the file system answers to it. -/
inductive ShellCommand where
  | mount (readable : Bool) (root : ShellEntry)
  | umount
  | cd (args : List (List UInt8)) (result : Int) (parent newEntry : ShellEntry)

@[simp] def condMount : UInt8 := 0x01
@[simp] def condUmount : UInt8 := 0x02

/-- The `conditions` of the command in `g_commands`. -/
def ShellCommand.conditions : ShellCommand → UInt8
  | .mount .. => condUmount
  | .umount => condMount
  | .cd .. => condMount

def checkConditions (isMounted : Bool) (conditions : UInt8) : Int :=
  if conditions &&& condMount ≠ 0 ∧ ¬ isMounted then -1
  else if conditions &&& condUmount ≠ 0 ∧ isMounted then -1
  else 0

/-- The body of the loop of `do_shell`. -/
def doCommand (st : ShellState) (command : ShellCommand) : Exec ShellState :=
  if checkConditions st.isMounted command.conditions = 0 then
    match command with
    | .mount readable root => .ok (shellCmdMount st readable root).2
    | .umount => .ok (shellCmdUmount st).2
    | .cd args result parent newEntry => do
      let (_, st) ← shellCmdCd (fun _ _ ↦ .ok ⟨some result, parent, some newEntry⟩) st args
      return st
  else .ok st

end Ext2Fs
