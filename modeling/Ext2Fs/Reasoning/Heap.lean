import Ext2Fs.Reasoning.Exec
import Mathlib.Data.List.AList

/-!
# Heaps

The allocated cells of a heap, each under its address, and the lists that cells form when each of
them holds a pointer to the next.  A pointer is an address, or `none` when it is NULL.
-/

namespace Reasoning

abbrev Heap (α : Type) := AList fun _ : Nat ↦ α

namespace Heap

section Cells

variable {α : Type}

/-- What an address holds, if it is allocated. -/
def cell (h : Heap α) (a : Nat) : Option α := AList.lookup a h

/-- The heap with a cell allocated or overwritten. -/
def put (h : Heap α) (a : Nat) (c : α) : Heap α := AList.insert a c h

/-- `free`. -/
def remove (h : Heap α) (a : Nat) : Heap α := AList.erase a h

def size (h : Heap α) : Nat := h.keys.length

/-- The cell behind a pointer. -/
def load (h : Heap α) : Option Nat → Exec α
  | none => .error .badPointer
  | some a =>
    match h.cell a with
    | none => .error .badPointer
    | some c => .ok c

/-- A store through a pointer. -/
def store (h : Heap α) (p : Option Nat) (c : α) : Exec (Heap α) :=
  match p with
  | none => .error .badPointer
  | some a => if h.cell a = none then .error .badPointer else .ok (h.put a c)

variable {h : Heap α} {a b : Nat} {c : α}

@[simp] theorem cell_put_self : (h.put a c).cell a = some c := AList.lookup_insert h

theorem cell_put_of_ne (hne : b ≠ a) : (h.put a c).cell b = h.cell b := AList.lookup_insert_ne hne

@[simp] theorem cell_remove_self : (h.remove a).cell a = none := AList.lookup_erase a h

theorem cell_remove_of_ne (hne : b ≠ a) : (h.remove a).cell b = h.cell b :=
  AList.lookup_erase_ne hne

-- A cell can be freed only so many times.
theorem size_remove_lt (hc : h.cell a = some c) : (h.remove a).size < h.size := by
  have hmem : a ∈ h.keys := by
    rw [← AList.mem_keys, ← AList.lookup_isSome]
    change (h.cell a).isSome = true
    rw [hc]
    rfl
  have hlen := List.length_erase_of_mem hmem
  have hpos := List.length_pos_of_mem hmem
  change (AList.erase a h).keys.length < h.keys.length
  rw [AList.keys_erase]
  omega

theorem load_of_cell (hc : h.cell a = some c) : h.load (some a) = .ok c := by
  rw [load, hc]

theorem store_of_cell {d : α} (hc : h.cell a = some c) : h.store (some a) d = .ok (h.put a d) := by
  rw [store, hc]
  exact if_neg (Option.some_ne_none c)

end Cells

/-! ## Linked lists -/

section Linked

variable {α β : Type} (value : α → β) (next : α → Option Nat)

/-- The cells that the pointers lead through from `p` on until they equal `q`, with their
addresses. -/
def Segment (h : Heap α) : Option Nat → List (Nat × β) → Option Nat → Prop
  | p, [], q => p = q
  | p, (a, b) :: items, q =>
    p = some a ∧ ∃ c, h.cell a = some c ∧ value c = b ∧ Segment h (next c) items q

variable {value next} {h h' : Heap α} {p q r : Option Nat} {items front : List (Nat × β)} {a : Nat}
  {b : β} {c : α}

@[simp] theorem segment_nil : Segment value next h p [] q ↔ p = q := Iff.rfl

-- A segment depends on its own cells only.
theorem Segment.congr (hsame : ∀ a ∈ items.map Prod.fst, h'.cell a = h.cell a)
    (hseg : Segment value next h p items q) : Segment value next h' p items q := by
  induction items generalizing p with
  | nil => exact hseg
  | cons item items ih =>
    rcases item with ⟨a, b⟩
    rcases hseg with ⟨hp, c, hc, hv, hrest⟩
    refine ⟨hp, c, ?_, hv, ih (fun a' ha' ↦ hsame a' (List.mem_cons_of_mem a ha')) hrest⟩
    rw [hsame a List.mem_cons_self, hc]

theorem Segment.append {items' : List (Nat × β)} (hseg : Segment value next h p items q)
    (hseg' : Segment value next h q items' r) : Segment value next h p (items ++ items') r := by
  induction items generalizing p with
  | nil =>
    rw [segment_nil] at hseg
    rw [hseg]
    exact hseg'
  | cons item items ih =>
    rcases hseg with ⟨hp, c, hc, hv, hrest⟩
    exact ⟨hp, c, hc, hv, ih hrest⟩

theorem Segment.split {items' : List (Nat × β)}
    (hseg : Segment value next h p (items ++ items') r) :
    ∃ q, Segment value next h p items q ∧ Segment value next h q items' r := by
  induction items generalizing p with
  | nil => exact ⟨p, rfl, hseg⟩
  | cons item items ih =>
    rcases hseg with ⟨hp, c, hc, hv, hrest⟩
    rcases ih hrest with ⟨q, hfirst, hsecond⟩
    exact ⟨q, ⟨hp, c, hc, hv, hfirst⟩, hsecond⟩

-- Every cell of a segment is allocated.
theorem Segment.cell_ne_none (hseg : Segment value next h p items q) :
    ∀ a ∈ items.map Prod.fst, h.cell a ≠ none := by
  induction items generalizing p with
  | nil =>
    intro a ha
    cases ha
  | cons item items ih =>
    rcases item with ⟨a, b⟩
    rcases hseg with ⟨-, c, hc, -, hrest⟩
    intro a' ha'
    rw [List.map_cons, List.mem_cons] at ha'
    rcases ha' with rfl | ha'
    · rw [hc]
      exact Option.some_ne_none c
    · exact ih hrest a' ha'

-- The last cell of a segment holds the pointer with which it ends.
theorem Segment.last (hseg : Segment value next h p (front ++ [(a, b)]) q) :
    ∃ c, h.cell a = some c ∧ value c = b ∧ next c = q := by
  rcases hseg.split with ⟨r, -, -, c, hc, hv, hq⟩
  exact ⟨c, hc, hv, hq⟩

-- The pointer in the last cell is redirected.
theorem Segment.relink (hseg : Segment value next h p (front ++ [(a, b)]) q)
    (hnodup : ((front ++ [(a, b)]).map Prod.fst).Nodup) (hv : value c = b) :
    Segment value next (h.put a c) p (front ++ [(a, b)]) (next c) := by
  rcases hseg.split with ⟨r, hfront, hlast⟩
  have hr : r = some a := hlast.1
  rw [List.map_append, List.nodup_append] at hnodup
  refine Segment.append (Segment.congr ?_ hfront) ⟨hr, c, cell_put_self, hv, rfl⟩
  intro a' ha'
  exact cell_put_of_ne (hnodup.2.2 a' ha' a List.mem_cons_self)

end Linked

end Heap

end Reasoning
