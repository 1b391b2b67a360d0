import Mathlib.Data.List.Lex
import Mathlib.Order.Lattice

/-!
# Three-way comparison

The answer of a comparison function: zero for equal values, and otherwise a sign that tells which of
the two is the smaller.
-/

namespace Reasoning

/-- A comparison that answers 1 when its first value is the smaller one and -1 when it is the
greater. -/
def compareSign {α : Type} [LinearOrder α] (a b : α) : Int :=
  if b < a then -1 else if a < b then 1 else 0

section Order

variable {α : Type} [LinearOrder α] {a b c : α}

theorem compareSign_of_lt (h : a < b) : compareSign a b = 1 := by
  unfold compareSign
  rw [if_neg (lt_asymm h), if_pos h]

theorem compareSign_of_gt (h : b < a) : compareSign a b = -1 := if_pos h

@[simp] theorem compareSign_self (a : α) : compareSign a a = 0 := by
  unfold compareSign
  rw [if_neg (lt_irrefl a), if_neg (lt_irrefl a)]

theorem compareSign_eq_zero : compareSign a b = 0 ↔ a = b := by
  constructor
  · intro h
    rcases lt_trichotomy a b with hlt | heq | hgt
    · rw [compareSign_of_lt hlt] at h
      cases h
    · exact heq
    · rw [compareSign_of_gt hgt] at h
      cases h
  · intro h
    rw [h, compareSign_self]

theorem compareSign_eq_one : compareSign a b = 1 ↔ a < b := by
  constructor
  · intro h
    rcases lt_trichotomy a b with hlt | heq | hgt
    · exact hlt
    · rw [heq, compareSign_self] at h
      cases h
    · rw [compareSign_of_gt hgt] at h
      cases h
  · exact compareSign_of_lt

theorem compareSign_comm (a b : α) : compareSign b a = -compareSign a b := by
  rcases lt_trichotomy a b with hlt | heq | hgt
  · rw [compareSign_of_lt hlt, compareSign_of_gt hlt]
  · rw [heq, compareSign_self]
    rfl
  · rw [compareSign_of_lt hgt, compareSign_of_gt hgt]
    rfl

theorem compareSign_of_ne_zero (h : compareSign a b ≠ 0) :
    compareSign a b = -1 ∨ compareSign a b = 1 := by
  rcases lt_trichotomy a b with hlt | heq | hgt
  · exact Or.inr (compareSign_of_lt hlt)
  · rw [heq, compareSign_self] at h
    exact absurd rfl h
  · exact Or.inl (compareSign_of_gt hgt)

theorem compareSign_trans (hab : compareSign a b = 1) (hbc : compareSign b c = 1) :
    compareSign a c = 1 := by
  rw [compareSign_eq_one] at hab hbc ⊢
  exact lt_trans hab hbc

-- Equal first elements leave the decision to what follows.
theorem compareSign_cons_self (a : α) (l m : List α) :
    compareSign (a :: l) (a :: m) = compareSign l m := by
  rcases lt_trichotomy l m with hlt | heq | hgt
  · rw [compareSign_of_lt hlt]
    exact compareSign_of_lt (List.cons_lt_cons_iff.mpr (Or.inr ⟨rfl, hlt⟩))
  · rw [heq, compareSign_self, compareSign_self]
  · rw [compareSign_of_gt hgt]
    exact compareSign_of_gt (List.cons_lt_cons_iff.mpr (Or.inr ⟨rfl, hgt⟩))

theorem compareSign_cons (a b : α) (l m : List α) :
    compareSign (a :: l) (b :: m) =
      if b < a then -1 else if a < b then 1 else compareSign l m := by
  rcases lt_trichotomy a b with hlt | heq | hgt
  · rw [if_neg (lt_asymm hlt), if_pos hlt]
    exact compareSign_of_lt (List.cons_lt_cons_iff.mpr (Or.inl hlt))
  · rw [heq, if_neg (lt_irrefl b), if_neg (lt_irrefl b), compareSign_cons_self]
  · rw [if_pos hgt]
    exact compareSign_of_gt (List.cons_lt_cons_iff.mpr (Or.inl hgt))

end Order

end Reasoning
