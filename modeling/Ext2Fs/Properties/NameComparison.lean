import Ext2Fs.Model.Ext2Shell
import Ext2Fs.Reasoning.Compare
import Ext2Fs.Spec.NameGrammar

/-!
# Comparison of names

`my_strnicmp` as an order on words: blind to case, looking at no more than a number of characters,
and confined to the words and their terminators.
-/

open Reasoning

namespace Ext2Fs

/-! ## The property -/

/-- Printable characters with one of the two terminators behind them. -/
structure Word where
  chars : List UInt8
  terminator : UInt8
  printable : ∀ c ∈ chars, 0x21 ≤ c ∧ c ≤ 0x7e
  terminated : terminator = 0 ∨ terminator = 0x20

namespace Word

def bytes (w : Word) : List UInt8 := w.chars ++ [w.terminator]

/-- What a comparison of `n` characters sees of the word. -/
def folded (w : Word) (n : Nat) : List UInt8 := (w.chars.take n).map toUpper

/-- `my_strnicmp` on two words. -/
def compare (s t : Word) (n : Nat) : Int := myStrnicmp s.bytes t.bytes n

end Word

/-- `my_strnicmp` compares words without regard to case.  The objects that it reads may end with the
terminators. -/
structure ComparesWords (n : Nat) : Prop where
  bounded : ∀ s t : Word, ∀ behind behind',
    myStrnicmpIn (s.bytes ++ behind) (t.bytes ++ behind') n = .ok (s.compare t n)
  equal : ∀ s t : Word, s.compare t n = 0 ↔ s.folded n = t.folded n
  sign : ∀ s t : Word, s.compare t n ≠ 0 →
    (s.compare t n = -1 ∨ s.compare t n = 1) ∧ t.compare s n = -s.compare t n
  equivalence : Equivalence fun s t : Word ↦ s.compare t n = 0
  transitive : ∀ s t u : Word, s.compare t n = 1 → t.compare u n = 1 → s.compare u n = 1

/-! ## Characters -/

/-- The value by which a character is compared. -/
def foldKey (c : UInt8) : Nat := (toUpper c).toNat

-- An ASCII character is not negative as a signed one.
theorem toInt_toUpper {c : UInt8} : c ≤ 0x7e → (toUpper c).toInt8.toInt = foldKey c := by
  revert c
  apply forall_char
  decide +kernel

theorem toInt8_toUpper_lt {a b : UInt8} (ha : a ≤ 0x7e) (hb : b ≤ 0x7e) :
    (toUpper a).toInt8 < (toUpper b).toInt8 ↔ foldKey a < foldKey b := by
  rw [Int8.lt_iff_toInt_lt, toInt_toUpper ha, toInt_toUpper hb, Int.ofNat_lt]

theorem foldKey_printable {c : UInt8} : 0x21 ≤ c ∧ c ≤ 0x7e → 0x20 < foldKey c := by
  revert c
  apply forall_char
  decide +kernel

theorem foldKey_terminator {c : UInt8} (h : c = 0 ∨ c = 0x20) : foldKey c ≤ 0x20 := by
  rcases h with rfl | rfl
  · decide
  · decide

/-! ## The loop -/

section Loop

variable {a b : UInt8} {l m : List UInt8} {n : Nat}

/-- One of the words goes on with these characters. -/
abbrev GoesOn (a b : UInt8) : Prop := (a ≠ 0 ∧ a ≠ 0x20) ∨ (b ≠ 0 ∧ b ≠ 0x20)

theorem strnicmpContinues_cons (a b : UInt8) (l m : List UInt8) :
    strnicmpContinues (a :: l) (b :: m) = .ok (decide (GoesOn a b)) := by
  unfold strnicmpContinues readChar
  rw [ok_bind]
  by_cases ha : a ≠ 0 ∧ a ≠ 0x20
  · rw [if_pos ha, decide_eq_true (Or.inl ha)]
    rfl
  · rw [if_neg ha, ok_bind]
    simp only [GoesOn, ha, false_or]
    rfl

theorem myStrnicmpIn_zero (hcont : Defined (strnicmpContinues l m)) :
    myStrnicmpIn l m 0 = .ok 0 := by
  rcases hcont with ⟨continues, hcont⟩
  rw [myStrnicmpIn, hcont, ok_bind]
  cases continues with
  | false => rfl
  | true => rfl

theorem myStrnicmpIn_step (h : GoesOn a b) (l m : List UInt8) (n : Nat) :
    myStrnicmpIn (a :: l) (b :: m) (n + 1) =
      if (toUpper a).toInt8 > (toUpper b).toInt8 then .ok (-1)
      else if (toUpper a).toInt8 < (toUpper b).toInt8 then .ok 1
      else myStrnicmpIn l m n := by
  rw [myStrnicmpIn, strnicmpContinues_cons, decide_eq_true h, ok_bind, if_neg (by decide)]
  rfl

theorem myStrnicmpIn_end (h : ¬ GoesOn a b) (l m : List UInt8) (n : Nat) :
    myStrnicmpIn (a :: l) (b :: m) (n + 1) = .ok 0 := by
  rw [myStrnicmpIn, strnicmpContinues_cons, decide_eq_false h, ok_bind, if_pos (by decide)]
  rfl

theorem myStrnicmp_step (h : GoesOn a b) (l m : List UInt8) (n : Nat) :
    myStrnicmp (a :: l) (b :: m) (n + 1) =
      if (toUpper a).toInt8 > (toUpper b).toInt8 then -1
      else if (toUpper a).toInt8 < (toUpper b).toInt8 then 1
      else myStrnicmp l m n := if_pos h

theorem myStrnicmp_end (h : ¬ GoesOn a b) (l m : List UInt8) (n : Nat) :
    myStrnicmp (a :: l) (b :: m) (n + 1) = 0 := if_neg h

-- A comparison that stays within its objects reads both of them in every round that decides.
theorem objects_of_myStrnicmpIn {r : Int} (h : myStrnicmpIn l m (n + 1) = .ok r) :
    (∃ a l', l = a :: l') ∧ ∃ b m', m = b :: m' := by
  rw [myStrnicmpIn] at h
  rcases bind_eq_ok.mp h with ⟨continues, hcont, h⟩
  rcases bind_eq_ok.mp hcont with ⟨c, hl, hsecond⟩
  cases l with
  | nil => cases hl
  | cons a l' =>
    refine ⟨⟨a, l', rfl⟩, ?_⟩
    cases m with
    | nil =>
      split at hsecond
      · rw [pure_eq_ok, Except.ok.injEq] at hsecond
        subst hsecond
        cases h
      · cases hsecond
    | cons b m' => exact ⟨b, m', rfl⟩

-- Such a comparison answers what the strings in the objects say.
theorem myStrnicmpIn_ok {r : Int} (h : myStrnicmpIn l m n = .ok r) : myStrnicmp l m n = r := by
  induction n generalizing l m with
  | zero =>
    rw [myStrnicmpIn] at h
    rcases bind_eq_ok.mp h with ⟨continues, -, h⟩
    simp only [pure_eq_ok, ite_self, Except.ok.injEq] at h
    exact h
  | succ n ih =>
    rcases objects_of_myStrnicmpIn h with ⟨⟨a, l, rfl⟩, b, m, rfl⟩
    by_cases hcont : GoesOn a b
    · rw [myStrnicmpIn_step hcont] at h
      rw [myStrnicmp_step hcont]
      split at h
      · rename_i hgt
        rw [if_pos hgt, ← Except.ok.injEq, h]
      · rename_i hgt
        rw [if_neg hgt]
        split at h
        · rename_i hlt
          rw [if_pos hlt, ← Except.ok.injEq, h]
        · rename_i hlt
          rw [if_neg hlt]
          exact ih h
    · rw [myStrnicmpIn_end hcont, Except.ok.injEq] at h
      rw [myStrnicmp_end hcont, h]

/-! ## Words -/

theorem goesOn_printable {c : UInt8} (h : 0x21 ≤ c ∧ c ≤ 0x7e) : c ≠ 0 ∧ c ≠ 0x20 := by
  constructor
  · rintro rfl
    exact absurd h.1 (by decide)
  · rintro rfl
    exact absurd h.1 (by decide)

theorem not_goesOn_terminators (ha : a = 0 ∨ a = 0x20) (hb : b = 0 ∨ b = 0x20) : ¬ GoesOn a b := by
  rcases ha with rfl | rfl <;> rcases hb with rfl | rfl <;> decide

theorem le_of_terminator {c : UInt8} (h : c = 0 ∨ c = 0x20) : c ≤ 0x7e := by
  rcases h with rfl | rfl <;> decide

theorem foldKey_lt_printable {t c : UInt8} (ht : t = 0 ∨ t = 0x20) (hc : 0x21 ≤ c ∧ c ≤ 0x7e) :
    foldKey t < foldKey c := by
  have hlow := foldKey_terminator ht
  have hhigh := foldKey_printable hc
  omega

theorem myStrnicmpIn_compare (h : GoesOn a b) (ha : a ≤ 0x7e) (hb : b ≤ 0x7e) (l m : List UInt8)
    (n : Nat) :
    myStrnicmpIn (a :: l) (b :: m) (n + 1) =
      if foldKey b < foldKey a then .ok (-1) else if foldKey a < foldKey b then .ok 1
      else myStrnicmpIn l m n := by
  rw [myStrnicmpIn_step h]
  simp only [gt_iff_lt, toInt8_toUpper_lt hb ha, toInt8_toUpper_lt ha hb]

/-- The values by which the first characters of a word are compared. -/
def foldKeys (l : List UInt8) (n : Nat) : List Nat := (l.take n).map foldKey

-- A word compares by its characters, and its end counts for less than any of them.
theorem myStrnicmpIn_words {behind behind' : List UInt8} (hl : ∀ c ∈ l, 0x21 ≤ c ∧ c ≤ 0x7e)
    (hm : ∀ c ∈ m, 0x21 ≤ c ∧ c ≤ 0x7e) (ha : a = 0 ∨ a = 0x20) (hb : b = 0 ∨ b = 0x20) :
    myStrnicmpIn (l ++ a :: behind) (m ++ b :: behind') n =
      .ok (compareSign (foldKeys l n) (foldKeys m n)) := by
  induction n generalizing l m with
  | zero =>
    unfold foldKeys
    rw [List.take_zero, List.take_zero, compareSign_self]
    apply myStrnicmpIn_zero
    cases l <;> cases m <;> exact ⟨_, strnicmpContinues_cons ..⟩
  | succ n ih =>
    cases l with
    | nil =>
      cases m with
      | nil => exact myStrnicmpIn_end (not_goesOn_terminators ha hb) behind behind' n
      | cons d m =>
        have hd := hm d List.mem_cons_self
        have hlt := foldKey_lt_printable ha hd
        rw [List.nil_append, List.cons_append,
          myStrnicmpIn_compare (Or.inr (goesOn_printable hd)) (le_of_terminator ha) hd.2,
          if_neg (Nat.lt_asymm hlt), if_pos hlt]
        rfl
    | cons c l =>
      have hc := hl c List.mem_cons_self
      have hgoes : ∀ d, GoesOn c d := fun _ ↦ Or.inl (goesOn_printable hc)
      cases m with
      | nil =>
        rw [List.nil_append, List.cons_append,
          myStrnicmpIn_compare (hgoes b) hc.2 (le_of_terminator hb),
          if_pos (foldKey_lt_printable hb hc)]
        rfl
      | cons d m =>
        have hd := hm d List.mem_cons_self
        have hrest := ih (fun c' h ↦ hl c' (List.mem_cons_of_mem c h))
          (fun d' h ↦ hm d' (List.mem_cons_of_mem d h))
        rw [List.cons_append, List.cons_append, myStrnicmpIn_compare (hgoes d) hc.2 hd.2, hrest]
        unfold foldKeys
        rw [List.take_succ_cons, List.take_succ_cons, List.map_cons, List.map_cons,
          compareSign_cons]
        split
        · rfl
        · split
          · rfl
          · rfl

end Loop

section Words

variable {s t u : Word} {n : Nat}

theorem myStrnicmpIn_bytes (s t : Word) (n : Nat) (behind behind' : List UInt8) :
    myStrnicmpIn (s.bytes ++ behind) (t.bytes ++ behind') n =
      .ok (compareSign (foldKeys s.chars n) (foldKeys t.chars n)) := by
  unfold Word.bytes
  rw [List.append_assoc, List.append_assoc]
  exact myStrnicmpIn_words s.printable t.printable s.terminated t.terminated

theorem compare_eq (s t : Word) (n : Nat) :
    s.compare t n = compareSign (foldKeys s.chars n) (foldKeys t.chars n) := by
  have hrun := myStrnicmpIn_bytes s t n [] []
  rw [List.append_nil, List.append_nil] at hrun
  exact myStrnicmpIn_ok hrun

theorem foldKeys_eq_iff : foldKeys s.chars n = foldKeys t.chars n ↔ s.folded n = t.folded n := by
  have hkeys : ∀ w : Word, foldKeys w.chars n = (w.folded n).map UInt8.toNat := by
    intro w
    exact (List.map_map).symm
  rw [hkeys, hkeys]
  exact (List.map_injective_iff.mpr fun _ _ ↦ UInt8.toNat_inj.mp).eq_iff

theorem compare_eq_zero : s.compare t n = 0 ↔ s.folded n = t.folded n := by
  rw [compare_eq, compareSign_eq_zero, foldKeys_eq_iff]

theorem compare_equivalence (n : Nat) : Equivalence fun s t : Word ↦ s.compare t n = 0 := by
  constructor
  · exact fun s ↦ compare_eq_zero.mpr rfl
  · exact fun h ↦ compare_eq_zero.mpr (compare_eq_zero.mp h).symm
  · exact fun h h' ↦ compare_eq_zero.mpr ((compare_eq_zero.mp h).trans (compare_eq_zero.mp h'))

/-- `my_strnicmp` orders the words, whatever the number of characters that it looks at. -/
theorem comparesWords (n : Nat) : ComparesWords n := by
  constructor
  case bounded =>
    intro s t behind behind'
    rw [myStrnicmpIn_bytes, compare_eq]
  case equal => exact fun s t ↦ compare_eq_zero
  case sign =>
    intro s t h
    rw [compare_eq] at h
    rw [compare_eq, compare_eq]
    exact ⟨compareSign_of_ne_zero h, compareSign_comm _ _⟩
  case equivalence => exact compare_equivalence n
  case transitive =>
    intro s t u hst htu
    rw [compare_eq] at hst htu ⊢
    exact compareSign_trans hst htu

end Words

end Ext2Fs
