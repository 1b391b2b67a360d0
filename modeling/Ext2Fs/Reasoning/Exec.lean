import Mathlib.Logic.Basic

/-!
# Outcomes of C computations

A C computation either finishes with a value or performs an operation to which the language gives
no meaning.  Objects that were never initialised, and loads past the end of an object, have an
*indeterminate* value, written `none`: copying it around is harmless, and the computation becomes
undefined when its control flow or a store depends on it.
-/

namespace Reasoning

/-- Why a C computation has no defined behaviour. -/
inductive Undefined where
  | outOfBounds
  | indeterminate
  | badPointer
  | divisionByZero
  | overflow
  deriving Repr, DecidableEq

abbrev Exec (α : Type) := Except Undefined α

/-- Use of a value that may be indeterminate. -/
def determinate {α : Type} : Option α → Exec α
  | some a => .ok a
  | none => .error .indeterminate

@[simp] theorem determinate_some {α : Type} (a : α) : determinate (some a) = .ok a := rfl

@[simp] theorem determinate_none {α : Type} :
    determinate (none : Option α) = .error .indeterminate := rfl

theorem determinate_eq_ok {α : Type} {o : Option α} {a : α} :
    determinate o = .ok a ↔ o = some a := by
  cases o with
  | none => simp
  | some b => simp

/-- The value of an `int` expression; one that is no `int` has no meaning. -/
def intValue (value : Int) : Exec Int32 :=
  if -2147483648 ≤ value ∧ value < 2147483648 then .ok (Int32.ofInt value) else .error .overflow

theorem intValue_of_fits {value : Int} (hlo : -2147483648 ≤ value) (hhi : value < 2147483648) :
    intValue value = .ok (Int32.ofInt value) :=
  if_pos ⟨hlo, hhi⟩

-- A value that is not negative is the same as an unsigned number.
theorem toNat_toUInt32_of_toInt {n : Int32} {m : Nat} (h : n.toInt = m) : n.toUInt32.toNat = m := by
  have hbits : n.toUInt32.toNat = n.toBitVec.toNat := rfl
  have hlt := n.toBitVec.isLt
  rw [← Int32.toInt_toBitVec, BitVec.toInt_eq_toNat_cond] at h
  split at h <;> omega

/-- The computation finishes: no step of it is undefined. -/
def Defined {α : Type} (x : Exec α) : Prop := ∃ a, x = .ok a

@[simp] theorem defined_ok {α : Type} (a : α) : Defined (.ok a : Exec α) := ⟨a, rfl⟩

@[simp] theorem not_defined_error {α : Type} (u : Undefined) :
    ¬ Defined (.error u : Exec α) := by
  rintro ⟨a, h⟩
  cases h

section Bind

variable {α β : Type}

-- not by `rfl`: a definitional rewriting leaves the kernel to compare whole programs
@[simp] theorem ok_bind (a : α) (f : α → Exec β) : (.ok a : Exec α) >>= f = f a := by
  cases h : f a <;> exact h

@[simp] theorem error_bind (u : Undefined) (f : α → Exec β) :
    (.error u : Exec α) >>= f = .error u := rfl

@[simp] theorem pure_eq_ok (a : α) : (pure a : Exec α) = .ok a := rfl

theorem bind_bind {γ : Type} (x : Exec α) (f : α → Exec β) (g : β → Exec γ) :
    (x >>= f) >>= g = x >>= fun a ↦ f a >>= g := by
  cases x <;> rfl

-- Two continuations need only agree on a value that is reached.
theorem bind_congr_ok {x : Exec α} {f g : α → Exec β} (h : ∀ a, x = .ok a → f a = g a) :
    x >>= f = x >>= g := by
  cases x with
  | error u => rfl
  | ok a => exact h a rfl

-- Peels the first computation off a sequence that finished.
theorem bind_eq_ok {x : Exec α} {f : α → Exec β} {b : β} :
    x >>= f = .ok b ↔ ∃ a, x = .ok a ∧ f a = .ok b := by
  cases x with
  | error u => simp
  | ok a => simp

end Bind

/-- A loop that performs `f` for every element, threading the state. -/
def forEach {σ ι : Type} (f : σ → ι → Exec σ) : σ → List ι → Exec σ
  | s, [] => .ok s
  | s, i :: is => f s i >>= fun s' ↦ forEach f s' is

section ForEach

variable {σ ι : Type} {f : σ → ι → Exec σ}

@[simp] theorem forEach_nil (s : σ) : forEach f s [] = .ok s := rfl

@[simp] theorem forEach_cons (s : σ) (i : ι) (is : List ι) :
    forEach f s (i :: is) = f s i >>= fun s' ↦ forEach f s' is := rfl

theorem forEach_append (s : σ) (is js : List ι) :
    forEach f s (is ++ js) = forEach f s is >>= fun s' ↦ forEach f s' js := by
  induction is generalizing s with
  | nil => rfl
  | cons i is ih =>
    rw [List.cons_append, forEach_cons, forEach_cons]
    cases f s i with
    | error u => rfl
    | ok s' => exact ih s'

-- The rule of counted loops: an invariant that holds at the start and is carried by each
-- iteration holds at the end, and the loop finishes.
theorem forEach_range (Inv : Nat → σ → Prop) {f : σ → Nat → Exec σ} (n : Nat) {s : σ}
    (init : Inv 0 s)
    (step : ∀ i s, i < n → Inv i s → ∃ s', f s i = .ok s' ∧ Inv (i + 1) s') :
    ∃ s', forEach f s (List.range n) = .ok s' ∧ Inv n s' := by
  induction n with
  | zero => exact ⟨s, rfl, init⟩
  | succ n ih =>
    obtain ⟨s₁, hrun, hinv⟩ := ih (fun i s hi h ↦ step i s (by omega) h)
    obtain ⟨s₂, hstep, hinv'⟩ := step n s₁ (by omega) hinv
    refine ⟨s₂, ?_, hinv'⟩
    rw [List.range_succ, forEach_append, hrun, ok_bind, forEach_cons, hstep, ok_bind, forEach_nil]

-- What every iteration carries holds of a loop that has finished.
theorem forEach_invariant (Inv : σ → Prop) {is : List ι}
    (step : ∀ i ∈ is, ∀ s s', Inv s → f s i = .ok s' → Inv s') {s s' : σ} (init : Inv s)
    (h : forEach f s is = .ok s') : Inv s' := by
  induction is generalizing s with
  | nil =>
    rw [forEach_nil, Except.ok.injEq] at h
    rw [← h]
    exact init
  | cons i is ih =>
    rw [forEach_cons] at h
    rcases bind_eq_ok.mp h with ⟨s₁, hstep, hrest⟩
    exact ih (fun j hj ↦ step j (List.mem_cons_of_mem i hj))
      (step i List.mem_cons_self s s₁ init hstep) hrest

-- In a loop that has finished every element had its turn.
theorem forEach_turn {is : List ι} {s s' : σ} (h : forEach f s is = .ok s') {i : ι} (hi : i ∈ is) :
    ∃ t t', f t i = .ok t' := by
  induction is generalizing s with
  | nil => exact absurd hi List.not_mem_nil
  | cons j is ih =>
    rw [forEach_cons] at h
    rcases bind_eq_ok.mp h with ⟨s₁, hstep, hrest⟩
    rcases List.mem_cons.mp hi with rfl | hi
    · exact ⟨s, s₁, hstep⟩
    · exact ih hrest hi

end ForEach

section Throughout

variable {σ ι : Type}

/-- `P` holds before and after every call of a sequence for as long as the calls succeed, and no
call is undefined.  A call returns `none` when it fails. -/
def Throughout (P : σ → Prop) (call : σ → ι → Exec (Option σ)) : σ → List ι → Prop
  | s, [] => P s
  | s, i :: is => P s ∧ ∃ r, call s i = .ok r ∧ ∀ s', r = some s' → Throughout P call s' is

variable {P : σ → Prop} {call : σ → ι → Exec (Option σ)}

theorem Throughout.start {s : σ} {is : List ι} (h : Throughout P call s is) : P s := by
  cases is with
  | nil => exact h
  | cons i is => exact h.1

theorem throughout_cons_some {s s' : σ} {i : ι} {is : List ι} (hcall : call s i = .ok (some s')) :
    Throughout P call s (i :: is) ↔ P s ∧ Throughout P call s' is := by
  simp [Throughout, hcall]

theorem not_throughout_cons_error {s : σ} {i : ι} {is : List ι} {u : Undefined}
    (hcall : call s i = .error u) : ¬ Throughout P call s (i :: is) := by
  simp [Throughout, hcall]

end Throughout

end Reasoning
