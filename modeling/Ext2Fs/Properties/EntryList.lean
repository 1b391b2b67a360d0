import Ext2Fs.Model.EntryList
import Ext2Fs.Reasoning.Runs

/-!
# Entry lists

The linked list that the items on the heap form, through any number of additions and releases.
-/

open Reasoning

namespace Ext2Fs

/-! ## The property -/

structure ListState where
  heap : ItemHeap
  list : ShellEntryList

/-- A call of `add_entry_list`, with the address that `malloc` returns in it, or of
`release_entry_list`. -/
inductive ListCall where
  | add (newItem : Nat) (entry : ShellEntry)
  | release

def ListCall.run (s : ListState) : ListCall → Exec ListState
  | .add newItem entry => do
    let (heap, list) ← addEntryList s.heap s.list newItem entry
    return ⟨heap, list⟩
  | .release => do
    let (_, heap, list) ← releaseEntryList s.heap s.list
    return ⟨heap, list⟩

/-- `malloc` returns memory that is not in use. -/
def ListCall.Fresh (s : ListState) : ListCall → Prop
  | .add newItem _ => s.heap.cell newItem = none
  | .release => True

/-- A list of entries with their addresses, as the calls ought to keep it. -/
def ListCall.apply (items : List (Nat × ShellEntry)) : ListCall → List (Nat × ShellEntry)
  | .add newItem entry => items ++ [(newItem, entry)]
  | .release => []

/-- The entries added since the last release. -/
def sinceRelease (calls : List ListCall) : List (Nat × ShellEntry) := calls.foldl ListCall.apply []

/-- The items linked from `p` on, up to the pointer `q`. -/
abbrev LinkedItems (heap : ItemHeap) (p : Option Nat) (items : List (Nat × ShellEntry))
    (q : Option Nat) : Prop :=
  Heap.Segment ShellEntryListItem.entry ShellEntryListItem.next heap p items q

/-- The list holds these entries, on a heap that is otherwise as it was. -/
structure HoldsEntries (heap : ItemHeap) (items : List (Nat × ShellEntry)) (s : ListState) :
    Prop where
  walk : LinkedItems s.heap s.list.first items none
  once : (items.map Prod.fst).Nodup
  last : s.list.last = items.getLast?.map Prod.fst
  ends : ∀ a, s.list.last = some a → ∃ item, s.heap.cell a = some item ∧ item.next = none
  count : s.list.count.toNat = items.length
  empty : s.list.count = 0 → s.list.first = none ∧ s.list.last = none
  own : ∀ a ∈ items.map Prod.fst, heap.cell a = none
  frame : ∀ a, a ∉ items.map Prod.fst → s.heap.cell a = heap.cell a

/-- The release frees the items one by one in their order, leaves the rest of the heap alone and
leaves the list empty. -/
def ReleasesOnce (items : List (Nat × ShellEntry)) (s : ListState) : Prop :=
  ∃ heap, releaseEntryList s.heap s.list = .ok (items.map Prod.fst, heap, initEntryList) ∧
    ∀ a, heap.cell a = if a ∈ items.map Prod.fst then none else s.heap.cell a

/-! ## One call -/

section Call

variable {heap : ItemHeap} {items : List (Nat × ShellEntry)} {s : ListState}

theorem holdsEntries_init (heap : ItemHeap) : HoldsEntries heap [] ⟨heap, initEntryList⟩ := by
  constructor
  case walk => rfl
  case once => exact List.nodup_nil
  case last => rfl
  case ends =>
    intro a ha
    cases ha
  case count => rfl
  case empty => exact fun _ ↦ ⟨rfl, rfl⟩
  case own =>
    intro a ha
    cases ha
  case frame => exact fun a _ ↦ rfl

-- The state is determined by the walk, the last item and the count.
theorem HoldsEntries.of_walk (hwalk : LinkedItems s.heap s.list.first items none)
    (honce : (items.map Prod.fst).Nodup) (hlast : s.list.last = items.getLast?.map Prod.fst)
    (hcount : s.list.count.toNat = items.length)
    (hown : ∀ a ∈ items.map Prod.fst, heap.cell a = none)
    (hframe : ∀ a, a ∉ items.map Prod.fst → s.heap.cell a = heap.cell a) :
    HoldsEntries heap items s := by
  constructor
  case walk => exact hwalk
  case once => exact honce
  case last => exact hlast
  case ends =>
    intro a ha
    rw [ha] at hlast
    rcases List.eq_nil_or_concat' items with rfl | ⟨front, ⟨z, e⟩, rfl⟩
    · cases hlast
    · rw [List.getLast?_concat, Option.map_some, Option.some.injEq] at hlast
      subst hlast
      rcases hwalk.last with ⟨item, hcell, -, hnext⟩
      exact ⟨item, hcell, hnext⟩
  case count => exact hcount
  case empty =>
    intro hzero
    rw [hzero] at hcount
    have hnil : items = [] := List.length_eq_zero_iff.mp hcount.symm
    subst hnil
    exact ⟨hwalk, hlast⟩
  case own => exact hown
  case frame => exact hframe

-- A fresh address is not that of an item.
theorem HoldsEntries.notMem (h : HoldsEntries heap items s) {a : Nat}
    (hfresh : s.heap.cell a = none) : a ∉ items.map Prod.fst :=
  fun ha ↦ h.walk.cell_ne_none a ha hfresh

/-- A call of `add_entry_list` has linked the new item behind the others. -/
def LinksBehind (items : List (Nat × ShellEntry)) (s : ListState) (newItem : Nat)
    (entry : ShellEntry) : Prop :=
  ∃ heap' first, addEntryList s.heap s.list newItem entry =
      .ok (heap', ⟨s.list.count + 1, first, some newItem⟩) ∧
    LinkedItems heap' first (items ++ [(newItem, entry)]) none ∧
    ∀ a, a ∉ (items ++ [(newItem, entry)]).map Prod.fst → heap'.cell a = s.heap.cell a

theorem HoldsEntries.add_first (h : HoldsEntries heap items s) (newItem : Nat) (entry : ShellEntry)
    (hzero : s.list.count = 0) : LinksBehind items s newItem entry := by
  have hcount := h.count
  rw [hzero] at hcount
  have hnil : items = [] := List.length_eq_zero_iff.mp hcount.symm
  subst hnil
  refine ⟨s.heap.put newItem ⟨entry, none⟩, some newItem, ?_, ?_, ?_⟩
  · rw [addEntryList, if_pos hzero]
    rfl
  · exact ⟨rfl, ⟨entry, none⟩, Heap.cell_put_self, rfl, rfl⟩
  · intro a ha
    exact Heap.cell_put_of_ne fun heq ↦ ha (heq ▸ List.mem_cons_self)

theorem HoldsEntries.add_behind (h : HoldsEntries heap items s) {newItem : Nat}
    (entry : ShellEntry) (hfresh : s.heap.cell newItem = none) (hzero : s.list.count ≠ 0) :
    LinksBehind items s newItem entry := by
  have hnew := h.notMem hfresh
  rcases List.eq_nil_or_concat' items with rfl | ⟨front, ⟨z, e⟩, rfl⟩
  · exact absurd (UInt32.toNat_inj.mp h.count) hzero
  have hlast : s.list.last = some z := by
    rw [h.last, List.getLast?_concat]
    rfl
  rcases h.walk.last with ⟨item, hcell, hentry, -⟩
  have hz : z ≠ newItem := by
    rintro rfl
    rw [hfresh] at hcell
    cases hcell
  let heap₁ := s.heap.put newItem ⟨entry, none⟩
  have hcell₁ : heap₁.cell z = some item := by rw [Heap.cell_put_of_ne hz, hcell]
  refine ⟨heap₁.put z { item with next := some newItem }, s.list.first, ?_, ?_, ?_⟩
  · rw [addEntryList, if_neg hzero, hlast, Heap.load_of_cell hcell₁, ok_bind,
      Heap.store_of_cell hcell₁]
    rfl
  · have hwalk₁ : LinkedItems heap₁ s.list.first (front ++ [(z, e)]) none := by
      apply h.walk.congr
      intro a ha
      exact Heap.cell_put_of_ne fun heq ↦ hnew (heq ▸ ha)
    have hrelinked := @Heap.Segment.relink _ _ _ _ _ _ _ _ _ _
      { item with next := some newItem } hwalk₁ h.once hentry
    refine hrelinked.append ⟨rfl, ⟨entry, none⟩, ?_, rfl, rfl⟩
    rw [Heap.cell_put_of_ne (Ne.symm hz), Heap.cell_put_self]
  · intro a ha
    rw [List.map_append, List.mem_append, not_or] at ha
    have haz : a ≠ z := by
      rintro rfl
      exact ha.1 (List.mem_map_of_mem (List.mem_append_right _ List.mem_cons_self))
    have hanew : a ≠ newItem := fun heq ↦ ha.2 (heq ▸ List.mem_cons_self)
    rw [Heap.cell_put_of_ne haz, Heap.cell_put_of_ne hanew]

theorem HoldsEntries.add (h : HoldsEntries heap items s) {newItem : Nat} (entry : ShellEntry)
    (hfresh : s.heap.cell newItem = none)
    (hfew : (items ++ [(newItem, entry)]).length < UInt32.size) :
    ∃ s', ListCall.run s (.add newItem entry) = .ok s' ∧
      HoldsEntries heap (items ++ [(newItem, entry)]) s' := by
  have hlinks : LinksBehind items s newItem entry := by
    by_cases hzero : s.list.count = 0
    · exact h.add_first newItem entry hzero
    · exact h.add_behind entry hfresh hzero
  rcases hlinks with ⟨heap', first, hadd, hwalk, hframe⟩
  have hnew := h.notMem hfresh
  refine ⟨⟨heap', ⟨s.list.count + 1, first, some newItem⟩⟩, ?_, HoldsEntries.of_walk hwalk ?_ ?_ ?_
    ?_ ?_⟩
  · rw [ListCall.run, hadd]
    rfl
  · rw [List.map_append, List.nodup_append]
    refine ⟨h.once, List.nodup_singleton _, fun a ha b hb heq ↦ ?_⟩
    rw [List.map_singleton, List.mem_singleton] at hb
    rw [heq, hb] at ha
    exact hnew ha
  · rw [List.getLast?_concat]
    rfl
  · rw [List.length_append, List.length_singleton] at hfew ⊢
    rw [UInt32.toNat_add, h.count]
    exact Nat.mod_eq_of_lt hfew
  · intro a ha
    rw [List.map_append, List.mem_append] at ha
    rcases ha with ha | ha
    · exact h.own a ha
    · rw [List.map_singleton, List.mem_singleton] at ha
      rw [ha, ← h.frame newItem hnew, hfresh]
  · intro a ha
    rw [hframe a ha]
    rw [List.map_append, List.mem_append, not_or] at ha
    exact h.frame a ha.1

end Call

/-! ## release_entry_list -/

section Release

variable {heap : ItemHeap} {p : Option Nat} {items : List (Nat × ShellEntry)} {s : ListState}

theorem releaseItems_cell {a : Nat} {item : ShellEntryListItem} (hcell : heap.cell a = some item) :
    releaseItems heap (some a) =
      if item.next.isSome then do
        let (freed, heap) ← releaseItems (heap.remove a) item.next
        return (a :: freed, heap)
      else .ok ([a], heap.remove a) := by
  rw [releaseItems]
  split
  · rename_i hnone
    rw [hcell] at hnone
    cases hnone
  · rename_i item' hitem
    rw [hcell, Option.some.injEq] at hitem
    subst hitem
    rfl

-- Each item is read before it is freed, and none of those behind it has been.
theorem releaseItems_linked (hne : items ≠ []) (hwalk : LinkedItems heap p items none)
    (honce : (items.map Prod.fst).Nodup) :
    ∃ heap', releaseItems heap p = .ok (items.map Prod.fst, heap') ∧
      ∀ a, heap'.cell a = if a ∈ items.map Prod.fst then none else heap.cell a := by
  induction items generalizing heap p with
  | nil => exact absurd rfl hne
  | cons first items ih =>
    rcases first with ⟨a, entry⟩
    rcases hwalk with ⟨rfl, item, hcell, -, hrest⟩
    rw [List.map_cons, List.nodup_cons] at honce
    rw [releaseItems_cell hcell]
    have hrest' : LinkedItems (heap.remove a) item.next items none := by
      apply hrest.congr
      intro b hb
      exact Heap.cell_remove_of_ne fun heq ↦ honce.1 (heq ▸ hb)
    have hframe : ∀ b, (heap.remove a).cell b = if b = a then none else heap.cell b := by
      intro b
      by_cases hb : b = a
      · rw [if_pos hb, hb, Heap.cell_remove_self]
      · rw [if_neg hb, Heap.cell_remove_of_ne hb]
    cases items with
    | nil =>
      have hnext : item.next = none := hrest
      rw [hnext, if_neg (by decide)]
      refine ⟨heap.remove a, rfl, fun b ↦ ?_⟩
      rw [hframe, List.map_singleton]
      simp only [List.mem_singleton]
    | cons second items =>
      have hnext : item.next = some second.1 := hrest.1
      rcases ih (List.cons_ne_nil _ _) hrest' honce.2 with ⟨heap', hrun, hcells⟩
      rw [hrun, hnext, if_pos Option.isSome_some]
      refine ⟨heap', rfl, fun b ↦ ?_⟩
      rw [hcells, hframe]
      change _ = if b ∈ a :: List.map Prod.fst (second :: items) then none else heap.cell b
      simp only [List.mem_cons (a := b) (b := a)]
      by_cases hb : b = a
      · simp only [hb, true_or, if_true, ite_self]
      · simp only [hb, false_or, if_false]

theorem HoldsEntries.releasesOnce {heap₀ : ItemHeap} (h : HoldsEntries heap₀ items s) :
    ReleasesOnce items s := by
  by_cases hzero : s.list.count = 0
  · have hcount := h.count
    rw [hzero] at hcount
    have hnil : items = [] := List.length_eq_zero_iff.mp hcount.symm
    subst hnil
    refine ⟨s.heap, ?_, fun a ↦ (if_neg List.not_mem_nil).symm⟩
    rcases h.empty hzero with ⟨hfirst, hlast⟩
    have hinit : s.list = initEntryList := by
      calc s.list = ⟨s.list.count, s.list.first, s.list.last⟩ := rfl
        _ = initEntryList := by rw [hzero, hfirst, hlast, initEntryList]
    rw [releaseEntryList, if_pos hzero, hinit]
    rfl
  · have hne : items ≠ [] := by
      rintro rfl
      exact hzero (UInt32.toNat_inj.mp h.count)
    rcases releaseItems_linked hne h.walk h.once with ⟨heap', hrun, hcells⟩
    refine ⟨heap', ?_, hcells⟩
    rw [releaseEntryList, if_neg hzero, hrun]
    rfl

theorem HoldsEntries.release {heap₀ : ItemHeap} (h : HoldsEntries heap₀ items s) :
    ∃ s', ListCall.run s .release = .ok s' ∧ HoldsEntries heap₀ [] s' := by
  rcases h.releasesOnce with ⟨heap', hrun, hcells⟩
  refine ⟨⟨heap', initEntryList⟩, ?_, HoldsEntries.of_walk rfl List.nodup_nil rfl rfl ?_ ?_⟩
  · rw [ListCall.run, hrun]
    rfl
  · intro a ha
    cases ha
  · intro a _
    rw [hcells]
    split
    · rename_i ha
      exact (h.own a ha).symm
    · rename_i ha
      exact h.frame a ha

end Release

/-! ## Runs -/

section Run

variable {heap : ItemHeap} {calls : List ListCall}

theorem HoldsEntries.run {items : List (Nat × ShellEntry)} {s : ListState}
    (h : HoldsEntries heap items s) (hfresh : AllAllowed ListCall.run ListCall.Fresh s calls)
    (hfew : ∀ k, ((calls.take k).foldl ListCall.apply items).length < UInt32.size) :
    ∃ s', forEach ListCall.run s calls = .ok s' ∧
      HoldsEntries heap (calls.foldl ListCall.apply items) s' := by
  induction calls generalizing items s with
  | nil => exact ⟨s, rfl, h⟩
  | cons call calls ih =>
    have hstep : ∃ s', ListCall.run s call = .ok s' ∧
        HoldsEntries heap (ListCall.apply items call) s' := by
      cases call with
      | add newItem entry => exact h.add entry hfresh.1 (hfew 1)
      | release => exact h.release
    rcases hstep with ⟨s₁, hrun, hholds⟩
    rcases ih hholds (hfresh.2 s₁ hrun) (fun k ↦ hfew (k + 1)) with ⟨s', hrest, hend⟩
    refine ⟨s', ?_, hend⟩
    rw [forEach_cons, hrun, ok_bind, hrest]

/-- Any sequence of additions and releases keeps the entries added since the last release, as long
as their number fits the count, and the next release frees each of them once. -/
theorem entryList_run (hfresh : AllAllowed ListCall.run ListCall.Fresh ⟨heap, initEntryList⟩ calls)
    (hfew : ∀ k, (sinceRelease (calls.take k)).length < UInt32.size) :
    ∃ s, forEach ListCall.run ⟨heap, initEntryList⟩ calls = .ok s ∧
      HoldsEntries heap (sinceRelease calls) s ∧ ReleasesOnce (sinceRelease calls) s := by
  rcases (holdsEntries_init heap).run hfresh hfew with ⟨s, hrun, hholds⟩
  exact ⟨s, hrun, hholds, hholds.releasesOnce⟩

end Run

/-- Two entries are added and released on an empty heap. -/
theorem entryList_run_two :
    ∃ s, forEach ListCall.run ⟨∅, initEntryList⟩
        [.add 8 ShellEntry.zero, .add 16 ShellEntry.zero, .release] = .ok s ∧
      HoldsEntries ∅ (sinceRelease [.add 8 ShellEntry.zero, .add 16 ShellEntry.zero, .release]) s ∧
      ReleasesOnce (sinceRelease [.add 8 ShellEntry.zero, .add 16 ShellEntry.zero, .release]) s := by
  apply entryList_run
  · refine ⟨rfl, fun s₁ hfirst ↦ ⟨?_, fun s₂ _ ↦ ⟨trivial, fun _ _ ↦ trivial⟩⟩⟩
    have hfew : ([] ++ [(8, ShellEntry.zero)]).length < UInt32.size := by decide
    rcases (holdsEntries_init ∅).add ShellEntry.zero rfl hfew with ⟨s, hrun, hholds⟩
    rw [hrun, Except.ok.injEq] at hfirst
    rw [← hfirst]
    exact hholds.frame 16 (by decide)
  · intro k
    rcases k with _ | _ | _ | k
    · decide
    · decide
    · decide
    · simp [sinceRelease, ListCall.apply]

end Ext2Fs
