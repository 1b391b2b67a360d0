import Ext2Fs.Properties.CommandLine
import Ext2Fs.Spec.Program
import Mathlib.Data.List.GetD

/-!
# The words of a line

A line that fits the arrays of `do_shell` is a list of words: the first one selects the command, and
the others are its arguments.
-/

open Reasoning

namespace Ext2Fs

/-- The words of a line. -/
def lineWords (str : List UInt8) : List (List UInt8) := (wordStarts str).map (wordAt str)

/-- The function that a line calls, and the arguments behind the name of the command. -/
def calledBy (str : List UInt8) : Option (Handler × List (List UInt8)) :=
  match lineWords str with
  | [] => none
  | command :: args =>
    (gCommands.find? fun c ↦ chars c.name = command).map fun c ↦ (c.handler, args)

section Words

variable {str behind : List UInt8} {ptrs : List (Option Nat)} {s : Split}

theorem mem_lineWords (h0 : 0 ∉ str) {w : List UInt8} (hw : w ∈ lineWords str) :
    w ≠ [] ∧ 0 ∉ w := by
  rcases List.mem_map.mp hw with ⟨i, hi, rfl⟩
  have hlt := mem_wordStarts hi
  have hstart : isRunStart str i = true := (List.mem_filter.mp hi).2
  constructor
  · rw [isRunStart, getD_of_lt hlt, Bool.and_eq_true] at hstart
    rw [wordAt, List.drop_eq_getElem_cons hlt, List.takeWhile_cons, if_pos hstart.1]
    exact List.cons_ne_nil _ _
  · intro hmem
    exact h0 (List.mem_of_mem_drop ((List.takeWhile_subset _) hmem))

-- The arguments are words of the line.
theorem mem_of_calledBy {w : List UInt8} {handler : Handler} {args : List (List UInt8)}
    (h : calledBy str = some (handler, args)) (hw : w ∈ args) : w ∈ lineWords str := by
  unfold calledBy at h
  split at h
  · cases h
  · rename_i hwords
    rcases Option.map_eq_some_iff.mp h with ⟨c, -, hc⟩
    rw [Prod.mk.injEq] at hc
    rw [hwords, hc.2]
    exact List.mem_cons_of_mem _ hw

end Words

namespace Program

/-- `fgets` has read the line, and `argv` has room for its words. -/
structure TypedLine.Reads (typed : TypedLine) (str : List UInt8) : Prop where
  zeroFree : 0 ∉ str
  buf_eq : ∃ behind, typed.buf = str ++ 0 :: behind
  room : (wordStarts str).length ≤ typed.argv.length

variable {p : Program} {typed : TypedLine} {str : List UInt8}

theorem TypedLine.Reads.arguments (h : typed.Reads str)
    (hshort : ∀ w ∈ lineWords str, w.length < 24) {handler : Handler} {args : List (List UInt8)}
    (hcalled : calledBy str = some (handler, args)) :
    ∀ w ∈ args, w ≠ [] ∧ 0 ∉ w ∧ w.length < 24 := by
  intro w hw
  have hmem := mem_of_calledBy hcalled hw
  have hword := mem_lineWords h.zeroFree hmem
  exact ⟨hword.1, hword.2, hshort w hmem⟩

theorem TypedLine.Reads.separated (h : typed.Reads str) :
    ∃ s behind, seperateString typed.buf typed.argv = .ok s ∧
      Separated str behind typed.argv s := by
  rcases h.buf_eq with ⟨behind, hbuf⟩
  rcases seperateString_separated h.zeroFree h.room behind with ⟨s, hrun, hwords⟩
  rw [hbuf]
  exact ⟨s, behind, hrun, hwords⟩

end Program

end Ext2Fs
