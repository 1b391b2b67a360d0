import Ext2Fs.Reasoning.Exec

/-!
# Runs of an interface

A client calls the operations of a component one after the other.  The states that it can see are
those that finitely many defined calls reach, each call being one that the client may make.  Two
runs of the same calls are compared by a relation between their states.
-/

namespace Reasoning

variable {σ ι : Type}

/-- The states that allowed calls reach from an initial one. -/
inductive Reachable (call : σ → ι → Exec σ) (allowed : σ → ι → Prop) (initial : σ → Prop) :
    σ → Prop
  | start {s : σ} : initial s → Reachable call allowed initial s
  | call {s s' : σ} {i : ι} : Reachable call allowed initial s → allowed s i →
      call s i = .ok s' → Reachable call allowed initial s'

namespace Reachable

variable {call : σ → ι → Exec σ} {allowed allowed' : σ → ι → Prop} {initial : σ → Prop}

-- The rule of inductive invariants.
theorem invariant (Inv : σ → Prop) (init : ∀ s, initial s → Inv s)
    (step : ∀ s i s', Inv s → allowed s i → call s i = .ok s' → Inv s') {s : σ}
    (h : Reachable call allowed initial s) : Inv s := by
  induction h with
  | start h => exact init _ h
  | call _ hi hcall ih => exact step _ _ _ ih hi hcall

-- A client that may do less sees no more states.
theorem mono (himp : ∀ s i, allowed s i → allowed' s i) {s : σ}
    (h : Reachable call allowed initial s) : Reachable call allowed' initial s := by
  induction h with
  | start h => exact .start h
  | call _ hi hcall ih => exact .call ih (himp _ _ hi) hcall

end Reachable

/-! ## Two runs in lockstep -/

section Lockstep

variable {call : σ → ι → Exec σ} {allowed : σ → ι → Prop}

/-- Each call of the sequence is allowed when its turn comes. -/
def AllAllowed (call : σ → ι → Exec σ) (allowed : σ → ι → Prop) : σ → List ι → Prop
  | _, [] => True
  | s, i :: is => allowed s i ∧ ∀ s', call s i = .ok s' → AllAllowed call allowed s' is

-- What every allowed call keeps holds behind a run of them.
theorem AllAllowed.invariant (Inv : σ → Prop)
    (step : ∀ s i s', Inv s → allowed s i → call s i = .ok s' → Inv s') {is : List ι} {s s' : σ}
    (init : Inv s) (hallowed : AllAllowed call allowed s is) (hrun : forEach call s is = .ok s') :
    Inv s' := by
  induction is generalizing s with
  | nil =>
    rw [forEach_nil, Except.ok.injEq] at hrun
    rw [← hrun]
    exact init
  | cons i is ih =>
    rw [forEach_cons] at hrun
    rcases bind_eq_ok.mp hrun with ⟨s₁, hcall, hrest⟩
    exact ih (step s i s₁ init hallowed.1 hcall) (hallowed.2 s₁ hcall) hrest

variable (R : σ → σ → Prop)
  (step : ∀ s₁ s₂ i, R s₁ s₂ → allowed s₁ i →
    ∃ s₁' s₂', call s₁ i = .ok s₁' ∧ call s₂ i = .ok s₂' ∧ R s₁' s₂')

include step

-- A relation that every allowed call keeps is kept by a sequence of them, and both runs finish.
theorem forEach_lockstep {is : List ι} {s₁ s₂ : σ} (hrel : R s₁ s₂)
    (hallowed : AllAllowed call allowed s₁ is) :
    ∃ s₁' s₂', forEach call s₁ is = .ok s₁' ∧ forEach call s₂ is = .ok s₂' ∧ R s₁' s₂' := by
  induction is generalizing s₁ s₂ with
  | nil => exact ⟨s₁, s₂, rfl, rfl, hrel⟩
  | cons i is ih =>
    rcases step s₁ s₂ i hrel hallowed.1 with ⟨t₁, t₂, hcall₁, hcall₂, hrel'⟩
    rcases ih hrel' (hallowed.2 t₁ hcall₁) with ⟨s₁', s₂', hrun₁, hrun₂, hend⟩
    refine ⟨s₁', s₂', ?_, ?_, hend⟩
    · rw [forEach_cons, hcall₁, ok_bind, hrun₁]
    · rw [forEach_cons, hcall₂, ok_bind, hrun₂]

-- When the second run cannot follow a call that is not allowed, its end shows that all were.
theorem allAllowed_of_defined (blocked : ∀ s₁ s₂ i, R s₁ s₂ → Defined (call s₂ i) → allowed s₁ i)
    {is : List ι} {s₁ s₂ : σ} (hrel : R s₁ s₂) (hdefined : Defined (forEach call s₂ is)) :
    AllAllowed call allowed s₁ is := by
  induction is generalizing s₁ s₂ with
  | nil => trivial
  | cons i is ih =>
    rcases hdefined with ⟨s, hrun⟩
    rw [forEach_cons] at hrun
    rcases bind_eq_ok.mp hrun with ⟨t₂, hcall₂, hrest⟩
    have hallowed := blocked s₁ s₂ i hrel ⟨t₂, hcall₂⟩
    refine ⟨hallowed, fun s' hs' ↦ ?_⟩
    rcases step s₁ s₂ i hrel hallowed with ⟨t₁, t₂', hcall₁, hcall₂', hrel'⟩
    rw [hcall₂, Except.ok.injEq] at hcall₂'
    rw [hcall₁, Except.ok.injEq] at hs'
    subst hcall₂' hs'
    exact ih hrel' ⟨s, hrest⟩

end Lockstep

/-! ## Abstraction -/

section Abstraction

variable {τ κ : Type} {call : σ → ι → Exec σ} {spec : τ → κ → Option τ}

end Abstraction

/-! ## Answers -/

section Answers

variable {τ ω : Type}

/-- The answers that a component gives to a sequence of requests, and its state behind them. -/
def serveAll (serve : σ → ι → Exec (ω × σ)) : σ → List ι → Exec (List ω × σ)
  | s, [] => .ok ([], s)
  | s, i :: is => do
    let (o, s) ← serve s i
    let (os, s) ← serveAll serve s is
    return (o :: os, s)

variable {serve : σ → ι → Exec (ω × σ)} {spec : τ → ι → Exec (ω × τ)}

theorem serveAll_cons {s s₁ s₂ : σ} {i : ι} {is : List ι} {o : ω} {os : List ω}
    (h : serve s i = .ok (o, s₁)) (hrest : serveAll serve s₁ is = .ok (os, s₂)) :
    serveAll serve s (i :: is) = .ok (o :: os, s₂) := by
  rw [serveAll, h, ok_bind]
  dsimp only
  rw [hrest, ok_bind]
  rfl

theorem serveAll_append {s s₁ s₂ : σ} {is js : List ι} {os os' : List ω}
    (h : serveAll serve s is = .ok (os, s₁)) (hrest : serveAll serve s₁ js = .ok (os', s₂)) :
    serveAll serve s (is ++ js) = .ok (os ++ os', s₂) := by
  induction is generalizing s os with
  | nil =>
    rw [serveAll, Except.ok.injEq, Prod.mk.injEq] at h
    rw [List.nil_append, h.2, hrest, ← h.1, List.nil_append]
  | cons i is ih =>
    rcases bind_eq_ok.mp h with ⟨⟨o, t⟩, hserve, h⟩
    rcases bind_eq_ok.mp h with ⟨⟨os₁, t'⟩, hrun, h⟩
    dsimp only at h
    rw [pure_eq_ok, Except.ok.injEq, Prod.mk.injEq] at h
    rcases h with ⟨rfl, rfl⟩
    exact serveAll_cons hserve (ih hrun)

-- What no request of the sequence spoils.
theorem serveAll_invariant (Inv : σ → Prop) {is : List ι}
    (step : ∀ i ∈ is, ∀ s, Inv s → ∃ o s', serve s i = .ok (o, s') ∧ Inv s') {s : σ} (init : Inv s) :
    ∃ os s', serveAll serve s is = .ok (os, s') ∧ Inv s' := by
  induction is generalizing s with
  | nil => exact ⟨[], s, rfl, init⟩
  | cons i is ih =>
    rcases step i List.mem_cons_self s init with ⟨o, s₁, hserve, hinv⟩
    rcases ih (fun j hj ↦ step j (List.mem_cons_of_mem i hj)) hinv with ⟨os, s', hrun, hend⟩
    exact ⟨o :: os, s', serveAll_cons hserve hrun, hend⟩

-- Two components that give the same answer to a request and to its translation.
theorem serveAll_map {κ : Type} {spec : σ → κ → Exec (ω × σ)} (f : ι → κ) (Inv : σ → Prop)
    {is : List ι} (step : ∀ i ∈ is, ∀ s, Inv s → serve s i = spec s (f i))
    (keeps : ∀ j s o s', Inv s → spec s j = .ok (o, s') → Inv s') {s : σ} (init : Inv s) :
    serveAll serve s is = serveAll spec s (is.map f) := by
  induction is generalizing s with
  | nil => rfl
  | cons i is ih =>
    rw [List.map_cons, serveAll, serveAll, step i List.mem_cons_self s init]
    apply bind_congr_ok
    intro r hr
    dsimp only
    rw [ih (fun j hj ↦ step j (List.mem_cons_of_mem i hj)) (keeps (f i) s r.1 r.2 init hr)]

-- A component that follows another one request by request gives the same answers.
theorem serveAll_simulates (R : σ → τ → Prop)
    (step : ∀ s t i, R s t →
      ∃ o s' t', serve s i = .ok (o, s') ∧ spec t i = .ok (o, t') ∧ R s' t')
    (is : List ι) {s : σ} {t : τ} (hrel : R s t) :
    ∃ os s' t', serveAll serve s is = .ok (os, s') ∧ serveAll spec t is = .ok (os, t') ∧
      R s' t' := by
  induction is generalizing s t with
  | nil => exact ⟨[], s, t, rfl, rfl, hrel⟩
  | cons i is ih =>
    rcases step s t i hrel with ⟨o, s₁, t₁, hserve, hspec, hrel₁⟩
    rcases ih hrel₁ with ⟨os, s', t', hrun, hrun', hend⟩
    exact ⟨o :: os, s', t', serveAll_cons hserve hrun, serveAll_cons hspec hrun', hend⟩

end Answers

end Reasoning
