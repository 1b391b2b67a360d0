import Ext2Fs.Reasoning.Memory
import Mathlib.Logic.Function.Basic

/-!
# Buffers in pieces

A buffer may lie in several pages.  Its pieces are gathered into one list of cells, or a list is
scattered over them.
-/

namespace Reasoning

variable {β : Type}

/-- The pages of a memory. -/
abbrev Pages (β : Type) := Nat → List β

/-- Some cells of one page. -/
structure Segment where
  page : Nat
  off : Nat
  len : Nat

namespace Segment

def load (s : Segment) (pages : Pages β) : Exec (List β) := loadRange (pages s.page) s.off s.len

def store (s : Segment) (pages : Pages β) (data : List β) : Exec (Pages β) := do
  let page ← storeRange (pages s.page) s.off data
  return Function.update pages s.page page

/-- The segment lies in its page. -/
def Within (s : Segment) (pages : Pages β) : Prop := s.off + s.len ≤ (pages s.page).length

/-- The two have no cell in common. -/
def Disjoint (s t : Segment) : Prop :=
  s.page ≠ t.page ∨ s.off + s.len ≤ t.off ∨ t.off + t.len ≤ s.off

instance (s t : Segment) : Decidable (s.Disjoint t) :=
  inferInstanceAs (Decidable (s.page ≠ t.page ∨ s.off + s.len ≤ t.off ∨ t.off + t.len ≤ s.off))

theorem Disjoint.symm {s t : Segment} (h : s.Disjoint t) : t.Disjoint s := by
  rcases h with hpage | hleft | hright
  · exact Or.inl hpage.symm
  · exact Or.inr (Or.inr hleft)
  · exact Or.inr (Or.inl hright)

end Segment

/-- The cells of a buffer. -/
def totalLength : List Segment → Nat
  | [] => 0
  | s :: ss => s.len + totalLength ss

@[simp] theorem totalLength_nil : totalLength [] = 0 := rfl

@[simp] theorem totalLength_cons (s : Segment) (ss : List Segment) :
    totalLength (s :: ss) = s.len + totalLength ss := rfl

/-- What the buffer holds. -/
def gather (pages : Pages β) : List Segment → Exec (List β)
  | [] => .ok []
  | s :: ss => do
    let data ← s.load pages
    let rest ← gather pages ss
    return data ++ rest

/-- The pages with the buffer filled. -/
def scatter (pages : Pages β) : List Segment → List β → Exec (Pages β)
  | [], _ => .ok pages
  | s :: ss, data => do
    let pages ← s.store pages (data.take s.len)
    scatter pages ss (data.drop s.len)

section Load

variable {s t : Segment} {pages pages' : Pages β} {data : List β}

theorem load_of_within (h : s.Within pages) :
    s.load pages = .ok (((pages s.page).drop s.off).take s.len) := loadRange_of_le h

theorem length_of_load (h : s.load pages = .ok data) : data.length = s.len :=
  length_of_loadRange h

theorem store_of_within (h : s.Within pages) (hdata : data.length = s.len) :
    ∃ page, storeRange (pages s.page) s.off data = .ok page ∧
      s.store pages data = .ok (Function.update pages s.page page) := by
  have hfits : s.off + data.length ≤ (pages s.page).length := by
    rw [hdata]
    exact h
  refine ⟨_, storeRange_of_le hfits, ?_⟩
  rw [Segment.store, storeRange_of_le hfits, ok_bind]
  rfl

theorem store_eq_ok (h : s.store pages data = .ok pages') :
    ∃ page, storeRange (pages s.page) s.off data = .ok page ∧
      pages' = Function.update pages s.page page := by
  rcases bind_eq_ok.mp h with ⟨page, hstore, hpages⟩
  rw [pure_eq_ok, Except.ok.injEq] at hpages
  exact ⟨page, hstore, hpages.symm⟩

-- The pages keep their sizes.
theorem length_of_store (h : s.store pages data = .ok pages') (p : Nat) :
    (pages' p).length = (pages p).length := by
  rcases store_eq_ok h with ⟨page, hstore, rfl⟩
  by_cases hp : p = s.page
  · subst hp
    rw [Function.update_self]
    exact length_of_storeRange hstore
  · rw [Function.update_of_ne hp]

theorem load_store_self (h : s.store pages data = .ok pages') (hdata : data.length = s.len) :
    s.load pages' = .ok data := by
  rcases store_eq_ok h with ⟨page, hstore, rfl⟩
  rw [Segment.load, Function.update_self, ← hdata]
  exact loadRange_storeRange_self hstore

theorem load_store_disjoint (h : s.store pages data = .ok pages') (hdata : data.length = s.len)
    (hst : s.Disjoint t) : t.load pages' = t.load pages := by
  rcases store_eq_ok h with ⟨page, hstore, rfl⟩
  unfold Segment.load
  by_cases hp : t.page = s.page
  · rw [hp, Function.update_self]
    apply loadRange_storeRange_disjoint hstore
    rw [hdata]
    exact hst.resolve_left (fun hne ↦ hne hp.symm)
  · rw [Function.update_of_ne hp]

end Load

section Gather

variable {pages pages' : Pages β} {ss : List Segment} {data : List β}

theorem length_of_gather (h : gather pages ss = .ok data) : data.length = totalLength ss := by
  induction ss generalizing data with
  | nil =>
    rw [gather, Except.ok.injEq] at h
    rw [← h]
    rfl
  | cons s ss ih =>
    rcases bind_eq_ok.mp h with ⟨front, hload, h⟩
    rcases bind_eq_ok.mp h with ⟨back, hgather, h⟩
    rw [pure_eq_ok, Except.ok.injEq] at h
    rw [← h, List.length_append, length_of_load hload, ih hgather, totalLength_cons]

theorem gather_of_within (h : ∀ s ∈ ss, s.Within pages) : ∃ data, gather pages ss = .ok data := by
  induction ss with
  | nil => exact ⟨[], rfl⟩
  | cons s ss ih =>
    rcases ih (fun t ht ↦ h t (List.mem_cons_of_mem s ht)) with ⟨back, hgather⟩
    refine ⟨((pages s.page).drop s.off).take s.len ++ back, ?_⟩
    rw [gather, load_of_within (h s List.mem_cons_self), ok_bind, hgather, ok_bind]
    rfl

theorem scatter_of_within (h : ∀ s ∈ ss, s.Within pages) (hdata : data.length = totalLength ss) :
    ∃ pages', scatter pages ss data = .ok pages' := by
  induction ss generalizing pages data with
  | nil => exact ⟨pages, rfl⟩
  | cons s ss ih =>
    rw [totalLength_cons] at hdata
    have hfront : (data.take s.len).length = s.len := by
      rw [List.length_take]
      omega
    have hback : (data.drop s.len).length = totalLength ss := by
      rw [List.length_drop]
      omega
    rcases store_of_within (h s List.mem_cons_self) hfront with ⟨page, -, hstore⟩
    have hrest : ∀ t ∈ ss, t.Within (Function.update pages s.page page) := by
      intro t ht
      have ht' := h t (List.mem_cons_of_mem s ht)
      rw [Segment.Within, length_of_store hstore]
      exact ht'
    rcases ih hrest hback with ⟨pages', hscatter⟩
    exact ⟨pages', by rw [scatter, hstore, ok_bind, hscatter]⟩

-- Filling a buffer does not reach what is disjoint from it.
theorem load_scatter_disjoint {t : Segment} (h : scatter pages ss data = .ok pages')
    (hdata : data.length = totalLength ss) (hdisjoint : ∀ s ∈ ss, s.Disjoint t) :
    t.load pages' = t.load pages := by
  induction ss generalizing pages data with
  | nil =>
    rw [scatter, Except.ok.injEq] at h
    rw [h]
  | cons s ss ih =>
    rw [totalLength_cons] at hdata
    rcases bind_eq_ok.mp h with ⟨pages₁, hstore, h⟩
    rw [ih h (by rw [List.length_drop]; omega)
      (fun u hu ↦ hdisjoint u (List.mem_cons_of_mem s hu))]
    exact load_store_disjoint hstore (by rw [List.length_take]; omega)
      (hdisjoint s List.mem_cons_self)

-- A buffer without overlaps holds what was scattered over it.
theorem gather_scatter (h : scatter pages ss data = .ok pages')
    (hdata : data.length = totalLength ss) (hdisjoint : ss.Pairwise Segment.Disjoint) :
    gather pages' ss = .ok data := by
  induction ss generalizing pages data with
  | nil =>
    rw [totalLength_nil] at hdata
    rw [List.length_eq_zero_iff.mp hdata]
    rfl
  | cons s ss ih =>
    rw [totalLength_cons] at hdata
    rw [List.pairwise_cons] at hdisjoint
    rcases bind_eq_ok.mp h with ⟨pages₁, hstore, h⟩
    have hrest : (data.drop s.len).length = totalLength ss := by
      rw [List.length_drop]
      omega
    have hfront : s.load pages' = .ok (data.take s.len) := by
      rw [load_scatter_disjoint h hrest (fun t ht ↦ (hdisjoint.1 t ht).symm)]
      exact load_store_self hstore (by rw [List.length_take]; omega)
    rw [gather, hfront, ok_bind, ih h hrest hdisjoint.2, ok_bind, List.take_append_drop]
    rfl

end Gather

end Reasoning
