import Ext2Fs.Model.CommandLine

/-!
# Words of the command line

What `seperate_string` makes of a line, and how many words `do_shell` has room for.
-/

open Reasoning

namespace Ext2Fs

/-! ## The property -/

/-- A character that is not a space stands at the position, at the start of the line or behind a
space. -/
def isRunStart (str : List UInt8) (i : Nat) : Bool :=
  !isSpace (str.getD i 0x20) && (i == 0 || isSpace (str.getD (i - 1) 0x20))

/-- Where the maximal runs of characters other than spaces start that start before `n`. -/
def startsBefore (str : List UInt8) (n : Nat) : List Nat := (List.range n).filter (isRunStart str)

/-- Where the words of the line start. -/
def wordStarts (str : List UInt8) : List Nat := startsBefore str str.length

/-- The maximal run from a position on. -/
def wordAt (str : List UInt8) (p : Nat) : List UInt8 := (str.drop p).takeWhile (!isSpace ·)

/-- The pass over `str`, which has `behind` behind its terminator, has found the words.  The array
held `ptrs` before. -/
structure Separated (str behind : List UInt8) (ptrs : List (Option Nat)) (s : Split) : Prop where
  count : s.count = (wordStarts str).length
  pointers : s.ptrs = (wordStarts str).map some ++ ptrs.drop s.count
  strings : ∀ p ∈ wordStarts str, stringAt s.line p = some (wordAt str p)
  kept : ∀ (i : Nat) (c : UInt8), str[i]? = some c → isSpace c = false → s.line[i]? = some c
  beyond : s.line.length = (str ++ 0 :: behind).length ∧ s.line.drop str.length = 0 :: behind

/-- The calls that store a pointer stay inside `argv`, and no handler is given more arguments than
it holds. -/
def ArgvSafe (isMounted : Bool) (argv : List (Option Nat)) (buf : List UInt8) : Prop :=
  ∃ outcome, doShellLine isMounted argv buf = .ok outcome ∧
    ∀ handler argc argv' buf', outcome = .handled handler argc argv' buf' → argc ≤ argv.length

/-! ## Spaces and words -/

/-- What the pass leaves of a character. -/
def blanked (c : UInt8) : UInt8 := if isSpace c then 0 else c

section Words

variable {str behind : List UInt8} {c : UInt8} {i j : Nat}

theorem startsBefore_succ (str : List UInt8) (i : Nat) :
    startsBefore str (i + 1) =
      startsBefore str i ++ if isRunStart str i then [i] else [] := by
  unfold startsBefore
  rw [List.range_succ, List.filter_append, List.filter_cons, List.filter_nil]

theorem length_startsBefore_mono (str : List UInt8) (h : i ≤ j) :
    (startsBefore str i).length ≤ (startsBefore str j).length :=
  ((List.range_sublist.mpr h).filter _).length_le

theorem mem_wordStarts {p : Nat} (h : p ∈ wordStarts str) : p < str.length :=
  List.mem_range.mp (List.mem_filter.mp h).1

theorem blanked_eq_zero (hc : c ≠ 0) : blanked c = 0 ↔ isSpace c = true := by
  unfold blanked
  split
  · rename_i h
    simp [h]
  · rename_i h
    simp [h, hc]

-- In what the pass leaves, a word ends where its run ended.
theorem takeWhile_blanked (h0 : 0 ∉ str) (behind : List UInt8) :
    (str.map blanked ++ 0 :: behind).takeWhile (· ≠ 0) = str.takeWhile (!isSpace ·) := by
  induction str with
  | nil => rfl
  | cons c str ih =>
    rw [List.mem_cons, not_or] at h0
    have hc := blanked_eq_zero (Ne.symm h0.1)
    rw [List.map_cons, List.cons_append, List.takeWhile_cons, List.takeWhile_cons]
    by_cases hs : isSpace c = true
    · rw [if_neg (by simpa using hc.mpr hs), if_neg (by simp [hs])]
    · rw [if_pos (by simpa using fun h ↦ hs (hc.mp h)), if_pos (by simp [hs]), ih h0.2, blanked,
        if_neg hs]

end Words

/-! ## The pass -/

/-- The state in front of the character `i` of the line: what is behind the pointer is blanked, what
is ahead is as it was. -/
structure SplitAt (str behind : List UInt8) (ptrs : List (Option Nat)) (i : Nat) (s : Split) :
    Prop where
  pointer : s.buf = i
  chars : s.line = (str.take i).map blanked ++ (str.drop i ++ 0 :: behind)
  prev : s.prev = 0 ↔ i = 0 ∨ isSpace (str.getD (i - 1) 0x20) = true
  count : s.count = (startsBefore str i).length
  room : s.count ≤ ptrs.length
  stored : s.ptrs = (startsBefore str i).map some ++ ptrs.drop s.count

section Pass

variable {str behind : List UInt8} {ptrs : List (Option Nat)} {i : Nat} {s : Split}

theorem splitAt_start (str behind : List UInt8) (ptrs : List (Option Nat)) :
    SplitAt str behind ptrs 0 ⟨str ++ 0 :: behind, 0, 0, 0, ptrs⟩ := by
  constructor
  case pointer => rfl
  case chars => rfl
  case prev => simp
  case count => rfl
  case room => exact Nat.zero_le _
  case stored => rfl

theorem getD_of_lt (hi : i < str.length) : str.getD i 0x20 = str[i] := by
  rw [List.getD_eq_getElem?_getD, List.getElem?_eq_getElem hi, Option.getD_some]

theorem length_blanked_take (hi : i < str.length) : ((str.take i).map blanked).length = i := by
  rw [List.length_map, List.length_take, Nat.min_eq_left (Nat.le_of_lt hi)]

variable (h : SplitAt str behind ptrs i s) (hi : i < str.length)

include h hi

theorem SplitAt.line_eq :
    s.line = (str.take i).map blanked ++ str[i] :: (str.drop (i + 1) ++ 0 :: behind) := by
  rw [h.chars, List.drop_eq_getElem_cons hi, List.cons_append]

theorem SplitAt.load : loadCell s.line s.buf = .ok str[i] := by
  rw [h.line_eq hi, h.pointer]
  exact loadCell_append_cons (length_blanked_take hi)

-- A word starts where the pass stores a pointer.
theorem SplitAt.isRunStart_iff :
    isRunStart str i = true ↔ isSpace str[i] = false ∧ s.prev = 0 := by
  rw [h.prev, isRunStart, getD_of_lt hi]
  simp

variable (h0 : 0 ∉ str)

include h0

omit h in
theorem blanked_getElem : blanked str[i] = 0 ↔ isSpace str[i] = true :=
  blanked_eq_zero fun hz ↦ h0 (hz ▸ List.getElem_mem hi)

omit h in
theorem Split.next_splitAt (hpointer : s.buf = i)
    (hchars : s.line =
      (str.take i).map blanked ++ blanked str[i] :: (str.drop (i + 1) ++ 0 :: behind))
    (hcount : s.count = (startsBefore str (i + 1)).length) (hroom : s.count ≤ ptrs.length)
    (hstored : s.ptrs = (startsBefore str (i + 1)).map some ++ ptrs.drop s.count) :
    ∃ s', s.next = .ok s' ∧ SplitAt str behind ptrs (i + 1) s' := by
  have hload : loadCell s.line s.buf = .ok (blanked str[i]) := by
    rw [hchars, hpointer]
    exact loadCell_append_cons (length_blanked_take hi)
  refine ⟨{ s with prev := blanked str[i], buf := s.buf + 1 }, ?_, ?_⟩
  · rw [Split.next, hload]
    rfl
  constructor
  case pointer => rw [hpointer]
  case chars =>
    rw [hchars, List.take_succ_eq_append_getElem hi, List.map_append, List.append_assoc]
    rfl
  case prev =>
    rw [blanked_getElem hi h0, Nat.add_sub_cancel, getD_of_lt hi]
    simp
  case count => exact hcount
  case room => exact hroom
  case stored => exact hstored

theorem SplitAt.round_space (hspace : isSpace str[i] = true) :
    ∃ s', (s.mark str[i] >>= Split.next) = .ok s' ∧ SplitAt str behind ptrs (i + 1) s' := by
  have hnone : startsBefore str (i + 1) = startsBefore str i := by
    have hstart : isRunStart str i = false := by
      rw [← Bool.not_eq_true, h.isRunStart_iff hi, hspace]
      simp
    rw [startsBefore_succ, hstart]
    exact List.append_nil _
  have hmark : s.mark str[i] = .ok { s with
      line := (str.take i).map blanked ++ 0 :: (str.drop (i + 1) ++ 0 :: behind) } := by
    rw [Split.mark, if_pos hspace, h.line_eq hi, h.pointer,
      storeCell_append_cons (length_blanked_take hi)]
    rfl
  rw [hmark, ok_bind]
  apply Split.next_splitAt hi h0
  case hpointer => exact h.pointer
  case hchars => rw [(blanked_getElem hi h0).mpr hspace]
  case hcount => rw [hnone, ← h.count]
  case hroom => exact h.room
  case hstored => rw [hnone, ← h.stored]

-- Inside a word nothing is stored.
theorem SplitAt.round_inner (hspace : isSpace str[i] = false) (hprev : s.prev ≠ 0) :
    ∃ s', (s.mark str[i] >>= Split.next) = .ok s' ∧ SplitAt str behind ptrs (i + 1) s' := by
  have hnone : startsBefore str (i + 1) = startsBefore str i := by
    have hstart : isRunStart str i = false := by
      rw [← Bool.not_eq_true, h.isRunStart_iff hi]
      exact fun hand ↦ hprev hand.2
    rw [startsBefore_succ, hstart]
    exact List.append_nil _
  have hmark : s.mark str[i] = .ok s := by
    rw [Split.mark, hspace, if_neg (by decide), if_neg hprev]
    rfl
  rw [hmark, ok_bind]
  apply Split.next_splitAt hi h0
  case hpointer => exact h.pointer
  case hchars => rw [h.line_eq hi, blanked, hspace, if_neg (by decide)]
  case hcount => rw [hnone, ← h.count]
  case hroom => exact h.room
  case hstored => rw [hnone, ← h.stored]

omit h0 in
theorem SplitAt.startsBefore_start (hspace : isSpace str[i] = false) (hprev : s.prev = 0) :
    startsBefore str (i + 1) = startsBefore str i ++ [i] := by
  rw [startsBefore_succ, (h.isRunStart_iff hi).mpr ⟨hspace, hprev⟩]
  rfl

theorem SplitAt.round_start (hspace : isSpace str[i] = false) (hprev : s.prev = 0)
    (hfits : s.count < ptrs.length) :
    ∃ s', (s.mark str[i] >>= Split.next) = .ok s' ∧ SplitAt str behind ptrs (i + 1) s' := by
  have hstarts := h.startsBefore_start hi hspace hprev
  have hlen : (startsBefore str (i + 1)).length = s.count + 1 := by
    rw [hstarts, List.length_append, h.count]
    rfl
  have hmark : s.mark str[i] = .ok { s with
      ptrs := (startsBefore str i).map some ++ some i :: ptrs.drop (s.count + 1),
      count := s.count + 1 } := by
    rw [Split.mark, hspace, if_neg (by decide), if_pos hprev, h.stored,
      List.drop_eq_getElem_cons hfits, h.pointer,
      storeCell_append_cons (by rw [List.length_map, h.count])]
    rfl
  rw [hmark, ok_bind]
  apply Split.next_splitAt hi h0
  case hpointer => exact h.pointer
  case hchars => rw [h.line_eq hi, blanked, hspace, if_neg (by decide)]
  case hcount => rw [hlen]
  case hroom => exact hfits
  case hstored =>
    rw [hstarts, List.map_append, List.append_assoc]
    rfl

-- There is no cell left for a word that starts now.
omit h0 in
theorem SplitAt.mark_full (hfull : ptrs.length < (startsBefore str (i + 1)).length) :
    s.mark str[i] = .error .outOfBounds := by
  have hcount := h.count
  have hroom := h.room
  have hstart : isRunStart str i = true := by
    rw [← Bool.not_eq_false]
    intro hstart
    rw [startsBefore_succ, hstart, if_neg (by decide), List.append_nil] at hfull
    omega
  rcases (h.isRunStart_iff hi).mp hstart with ⟨hspace, hprev⟩
  rw [h.startsBefore_start hi hspace hprev, List.length_append, List.length_singleton] at hfull
  have hlen : s.ptrs.length ≤ s.count := by
    rw [h.stored, List.length_append, List.length_map, List.length_drop]
    omega
  rw [Split.mark, hspace, if_neg (by decide), if_pos hprev, storeCell_of_ge hlen]
  rfl

theorem SplitAt.round (hfits : (startsBefore str (i + 1)).length ≤ ptrs.length) :
    ∃ s', (s.mark str[i] >>= Split.next) = .ok s' ∧ SplitAt str behind ptrs (i + 1) s' := by
  by_cases hspace : isSpace str[i] = true
  · exact h.round_space hi h0 hspace
  rw [Bool.not_eq_true] at hspace
  by_cases hprev : s.prev = 0
  · apply h.round_start hi h0 hspace hprev
    rw [h.startsBefore_start hi hspace hprev, List.length_append, ← h.count] at hfits
    exact hfits
  · exact h.round_inner hi h0 hspace hprev

end Pass

/-! ## The loop -/

section Loop

variable {str behind : List UInt8} {ptrs : List (Option Nat)} {i k : Nat} {s : Split}

theorem seperateLoop_succ {c : UInt8} (hload : loadCell s.line s.buf = .ok c) (hc : c ≠ 0)
    (left : Nat) :
    seperateLoop (left + 1) s = (s.mark c >>= Split.next) >>= seperateLoop left := by
  rw [seperateLoop, hload, ok_bind, if_neg hc, bind_bind]

theorem SplitAt.loop_end (h : SplitAt str behind ptrs str.length s) (left : Nat) :
    seperateLoop (left + 1) s = .ok s := by
  have hload : loadCell s.line s.buf = .ok 0 := by
    rw [h.chars, h.pointer, List.take_length, List.drop_length]
    exact loadCell_append_cons (List.length_map _)
  rw [seperateLoop, hload]
  rfl

variable (h0 : 0 ∉ str)

include h0

-- `k` characters are ahead of the pointer.
theorem SplitAt.loop (hfits : (wordStarts str).length ≤ ptrs.length)
    (h : SplitAt str behind ptrs i s) (hk : i + k = str.length) (left : Nat) :
    ∃ s', seperateLoop (k + (left + 1)) s = .ok s' ∧
      SplitAt str behind ptrs str.length s' := by
  induction k generalizing i s with
  | zero =>
    rw [Nat.add_zero] at hk
    subst hk
    rw [Nat.zero_add]
    exact ⟨s, h.loop_end left, h⟩
  | succ k ih =>
    have hi : i < str.length := by omega
    have hnext : (startsBefore str (i + 1)).length ≤ ptrs.length :=
      Nat.le_trans (length_startsBefore_mono str hi) hfits
    rcases h.round hi h0 hnext with ⟨s₁, hround, hsplit⟩
    rw [Nat.succ_add, seperateLoop_succ (h.load hi) (fun hz ↦ h0 (hz ▸ List.getElem_mem hi)),
      hround, ok_bind]
    exact ih hsplit (by omega)

theorem SplitAt.loop_full (hfull : ptrs.length < (wordStarts str).length)
    (h : SplitAt str behind ptrs i s) (hk : i + k = str.length) (left : Nat) :
    seperateLoop (k + (left + 1)) s = .error .outOfBounds := by
  induction k generalizing i s with
  | zero =>
    have hcount := h.count
    have hroom := h.room
    rw [Nat.add_zero] at hk
    subst hk
    exact absurd (hcount ▸ hroom) (Nat.not_le.mpr hfull)
  | succ k ih =>
    have hi : i < str.length := by omega
    rw [Nat.succ_add, seperateLoop_succ (h.load hi) fun hz ↦ h0 (hz ▸ List.getElem_mem hi)]
    by_cases hnext : (startsBefore str (i + 1)).length ≤ ptrs.length
    · rcases h.round hi h0 hnext with ⟨s₁, hround, hsplit⟩
      rw [hround, ok_bind]
      exact ih hsplit (by omega)
    · rw [h.mark_full hi (Nat.not_le.mp hnext)]
      rfl

end Loop

/-! ## The words of a line -/

section Line

variable {str behind : List UInt8} {ptrs : List (Option Nat)} {i : Nat} {s : Split}

theorem SplitAt.line_end (h : SplitAt str behind ptrs str.length s) :
    s.line = str.map blanked ++ 0 :: behind := by
  rw [h.chars, List.take_length, List.drop_length, List.nil_append]

theorem SplitAt.separated (h0 : 0 ∉ str) (h : SplitAt str behind ptrs str.length s) :
    Separated str behind ptrs s := by
  have hend := h.line_end
  constructor
  case count => exact h.count
  case pointers => exact h.stored
  case strings =>
    intro p hp
    have hlt := mem_wordStarts hp
    have hdrop : s.line.drop p = (str.drop p).map blanked ++ 0 :: behind := by
      rw [hend, List.drop_append_of_le_length (by rw [List.length_map]; omega), List.map_drop]
    unfold stringAt wordAt
    rw [hdrop, if_pos (List.mem_append_right _ List.mem_cons_self),
      takeWhile_blanked (fun hz ↦ h0 (List.mem_of_mem_drop hz))]
  case kept =>
    intro i c hc hspace
    have hi : i < str.length := (List.getElem?_eq_some_iff.mp hc).1
    rw [hend, List.getElem?_append_left (by rw [List.length_map]; exact hi), List.getElem?_map, hc,
      Option.map_some, blanked, hspace, if_neg (by decide)]
  case beyond =>
    constructor
    · rw [hend, List.length_append, List.length_append, List.length_map]
    · rw [hend, List.drop_append_of_le_length (Nat.le_of_eq (List.length_map _).symm),
        ← List.length_map blanked, List.drop_length, List.nil_append]

theorem seperateString_eq (str behind : List UInt8) (ptrs : List (Option Nat)) :
    seperateString (str ++ 0 :: behind) ptrs =
      seperateLoop (str.length + (behind.length + 1)) ⟨str ++ 0 :: behind, 0, 0, 0, ptrs⟩ := by
  rw [seperateString, List.length_append, List.length_cons]

theorem seperateString_full (h0 : 0 ∉ str) (hfull : ptrs.length < (wordStarts str).length)
    (behind : List UInt8) :
    seperateString (str ++ 0 :: behind) ptrs = .error .outOfBounds := by
  rw [seperateString_eq]
  exact (splitAt_start str behind ptrs).loop_full h0 hfull (Nat.zero_add _) _

theorem seperateString_run (h0 : 0 ∉ str) (hfits : (wordStarts str).length ≤ ptrs.length)
    (behind : List UInt8) :
    ∃ s, seperateString (str ++ 0 :: behind) ptrs = .ok s ∧
      SplitAt str behind ptrs str.length s := by
  rw [seperateString_eq]
  exact (splitAt_start str behind ptrs).loop h0 hfits (Nat.zero_add _) behind.length

/-- `seperate_string` finds the words of any line for which the array of pointers has room. -/
theorem seperateString_separated (h0 : 0 ∉ str) (hfits : (wordStarts str).length ≤ ptrs.length)
    (behind : List UInt8) :
    ∃ s, seperateString (str ++ 0 :: behind) ptrs = .ok s ∧ Separated str behind ptrs s := by
  rcases seperateString_run h0 hfits behind with ⟨s, hrun, hend⟩
  exact ⟨s, hrun, hend.separated h0⟩

theorem seperateString_separated_ls : ∃ s,
    seperateString ([0x20, 0x6c, 0x73, 0x09, 0x20, 0x61, 0x0a] ++ 0 :: [0xff]) [none, none, none] =
      .ok s ∧
    Separated [0x20, 0x6c, 0x73, 0x09, 0x20, 0x61, 0x0a] [0xff] [none, none, none] s :=
  seperateString_separated (by decide) (by decide) [0xff]

/-! ## The arguments of a command -/

theorem Separated.argument (h : Separated str behind ptrs s)
    (hi : i < (wordStarts str).length) : s.argument i = .ok (wordAt str (wordStarts str)[i]) := by
  have hload : loadCell s.ptrs i = .ok (some (wordStarts str)[i]) := by
    rw [loadCell_eq_ok, h.pointers,
      List.getElem?_append_left (by rw [List.length_map]; exact hi), List.getElem?_map,
      List.getElem?_eq_getElem hi, Option.map_some]
  rw [Split.argument, hload, ok_bind, determinate_some, ok_bind,
    h.strings _ (List.getElem_mem hi)]
  rfl

theorem argvSafe_of_separated {argv : List (Option Nat)} {buf : List UInt8} (isMounted : Bool)
    (hrun : seperateString buf argv = .ok s) (h : Separated str behind argv s)
    (hfits : s.count ≤ argv.length) : ArgvSafe isMounted argv buf := by
  unfold ArgvSafe doShellLine
  rw [hrun, ok_bind]
  by_cases hzero : s.count = 0
  · rw [if_pos hzero]
    refine ⟨.blank, rfl, fun handler argc argv' buf' heq ↦ ?_⟩
    cases heq
  rw [if_neg hzero, h.argument (by rw [← h.count]; exact Nat.pos_of_ne_zero hzero), ok_bind]
  split
  · refine ⟨.unknown, rfl, fun handler argc argv' buf' heq ↦ ?_⟩
    cases heq
  · rename_i c hc
    split
    · refine ⟨_, rfl, fun handler argc argv' buf' heq ↦ ?_⟩
      cases heq
      exact hfits
    · refine ⟨.refused, rfl, fun handler argc argv' buf' heq ↦ ?_⟩
      cases heq

theorem argvSafe_iff_fits {argv : List (Option Nat)} (isMounted : Bool) (h0 : 0 ∉ str)
    (behind : List UInt8) :
    ArgvSafe isMounted argv (str ++ 0 :: behind) ↔ (wordStarts str).length ≤ argv.length := by
  constructor
  · rintro ⟨outcome, hrun, -⟩
    apply Nat.le_of_not_lt
    intro hfull
    rw [doShellLine, seperateString_full h0 hfull, error_bind] at hrun
    cases hrun
  · intro hfits
    rcases seperateString_run h0 hfits behind with ⟨s, hrun, hend⟩
    exact argvSafe_of_separated isMounted hrun (hend.separated h0) hend.room

/-- `do_shell` stays inside its array exactly for the lines of at most a hundred words. -/
theorem argvSafe_iff {argv : List (Option Nat)} (isMounted : Bool) (hargv : argv.length = 100)
    (h0 : 0 ∉ str) (behind : List UInt8) :
    ArgvSafe isMounted argv (str ++ 0 :: behind) ↔ (wordStarts str).length ≤ 100 := by
  rw [argvSafe_iff_fits isMounted h0, hargv]

theorem argvSafe_iff_ls :
    ArgvSafe false (List.replicate 100 none) ([0x6c, 0x73, 0x20, 0x61, 0x0a] ++ 0 :: []) ↔
      (wordStarts [0x6c, 0x73, 0x20, 0x61, 0x0a]).length ≤ 100 :=
  argvSafe_iff false (List.length_replicate) (by decide) []

end Line

/-- A line of 101 words of one letter. -/
def wordyLine : List UInt8 := (List.replicate 101 [0x61, 0x20]).flatten ++ [0x0a]

theorem length_wordyLine : wordyLine.length = 203 := by decide +kernel

theorem length_wordStarts_wordyLine : (wordStarts wordyLine).length = 101 := by decide +kernel

/-- The 101 words are typed at the shell. -/
theorem not_argvSafe_wordyLine : ¬ ∀ (isMounted : Bool) (argv : List (Option Nat))
    (str behind : List UInt8), argv.length = 100 → 0 ∉ str → str.length ≤ 999 →
    (str ++ 0 :: behind).length = 1000 → ArgvSafe isMounted argv (str ++ 0 :: behind) := by
  intro hall
  have h0 : 0 ∉ wordyLine := by decide +kernel
  have hargv : (List.replicate 100 (none : Option Nat)).length = 100 := List.length_replicate
  have hlen : (wordyLine ++ 0 :: List.replicate 796 0).length = 1000 := by
    rw [List.length_append, length_wordyLine, List.length_cons, List.length_replicate]
  have hsafe := hall false _ wordyLine _ hargv h0 (by rw [length_wordyLine]; decide) hlen
  rw [argvSafe_iff_fits false h0, hargv, length_wordStarts_wordyLine] at hsafe
  exact absurd hsafe (by decide)

end Ext2Fs
