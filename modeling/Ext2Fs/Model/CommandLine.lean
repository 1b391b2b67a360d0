import Ext2Fs.Model.Shell
import Ext2Fs.Reasoning.Memory

/-!
# The command line (shell.c: g_commands, do_shell, seperate_string)

Pointers into the line are told by the position of the character that they point to.
-/

open Reasoning

namespace Ext2Fs

/-! ## Words -/

/-- `isspace` in the C locale. -/
def isSpace (c : UInt8) : Bool := c = 0x20 || (0x09 ≤ c && c ≤ 0x0d)

/-- The line, the pointer that runs over it and the variables of `seperate_string`.  A pointer that
has not been stored is `none`. -/
structure Split where
  line : List UInt8
  buf : Nat
  prev : UInt8
  count : Nat
  ptrs : List (Option Nat)

/-- What is done with the character `c` at the pointer: a space is overwritten, and a word that
starts is noted. -/
def Split.mark (s : Split) (c : UInt8) : Exec Split :=
  if isSpace c then do
    let line ← storeCell s.line s.buf 0
    return { s with line := line }
  else if s.prev = 0 then do
    let ptrs ← storeCell s.ptrs s.count (some s.buf)
    return { s with ptrs := ptrs, count := s.count + 1 }
  else return s

/-- `prev = *buf++;` -/
def Split.next (s : Split) : Exec Split := do
  let prev ← loadCell s.line s.buf
  return { s with prev := prev, buf := s.buf + 1 }

/-- The loop, with the number of characters between the pointer and the end of the object. -/
def seperateLoop : Nat → Split → Exec Split
  | 0, _ => .error .outOfBounds
  | left + 1, s => do
    let c ← loadCell s.line s.buf
    if c = 0 then return s
    let s ← s.mark c
    let s ← s.next
    seperateLoop left s

/-- `seperate_string`; the count that it returns is left in the state. -/
def seperateString (line : List UInt8) (ptrs : List (Option Nat)) : Exec Split :=
  seperateLoop line.length ⟨line, 0, 0, 0, ptrs⟩

/-! ## Commands -/

/-- The functions that carry out the commands. -/
inductive Handler where
  | cd | exit | mount | umount | touch | fill | rm | ls | format | df | mkdir | rmdir | mkdirst
  | cat | dumpsb | dumpgdt | dumpbmap | dumpimap | dumpit | dumpdata | dumpfile
  deriving DecidableEq

structure Command where
  name : String
  handler : Handler
  conditions : UInt8

def gCommands : List Command :=
  [⟨"cd", .cd, condMount⟩,
   ⟨"exit", .exit, 0⟩,
   ⟨"quit", .exit, 0⟩,
   ⟨"mount", .mount, condUmount⟩,
   ⟨"umount", .umount, condMount⟩,
   ⟨"touch", .touch, condMount⟩,
   ⟨"fill", .fill, condMount⟩,
   ⟨"rm", .rm, condMount⟩,
   ⟨"ls", .ls, condMount⟩,
   ⟨"dir", .ls, condMount⟩,
   ⟨"format", .format, condUmount⟩,
   ⟨"df", .df, condMount⟩,
   ⟨"mkdir", .mkdir, condMount⟩,
   ⟨"rmdir", .rmdir, condMount⟩,
   ⟨"mkdirst", .mkdirst, condMount⟩,
   ⟨"cat", .cat, condMount⟩,
   ⟨"dumpsb", .dumpsb, condMount⟩,
   ⟨"dumpgdt", .dumpgdt, condMount⟩,
   ⟨"dumpbmap", .dumpbmap, condMount⟩,
   ⟨"dumpimap", .dumpimap, condMount⟩,
   ⟨"dumpit", .dumpit, condMount⟩,
   ⟨"dumpdata", .dumpdata, condMount⟩,
   ⟨"dumpfileinode", .dumpfile, condMount⟩]

/-- The characters of a string literal. -/
def chars (s : String) : List UInt8 := s.toList.map fun c ↦ UInt8.ofNat c.toNat

/-! ## do_shell -/

/-- The string at a position of a buffer, if it ends there. -/
def stringAt (buf : List UInt8) (p : Nat) : Option (List UInt8) :=
  if 0 ∈ buf.drop p then some ((buf.drop p).takeWhile (· ≠ 0)) else none

/-- What becomes of a line. -/
inductive LineOutcome where
  | blank
  | unknown
  | refused
  | handled (handler : Handler) (argc : Nat) (argv : List (Option Nat)) (buf : List UInt8)

/-- `argv[i]`, as the string that it points to. -/
def Split.argument (s : Split) (i : Nat) : Exec (List UInt8) := do
  let p ← loadCell s.ptrs i
  let p ← determinate p
  match stringAt s.line p with
  | some str => return str
  | none => .error .outOfBounds

/-- The body of the loop of `do_shell` behind `fgets`, up to the call of the handler. -/
def doShellLine (isMounted : Bool) (argv : List (Option Nat)) (buf : List UInt8) :
    Exec LineOutcome := do
  let s ← seperateString buf argv
  if s.count = 0 then return .blank
  let command ← s.argument 0
  match gCommands.find? fun c ↦ chars c.name = command with
  | none => return .unknown
  | some c =>
    if checkConditions isMounted c.conditions = 0 then
      return .handled c.handler s.count s.ptrs s.line
    else return .refused

end Ext2Fs
