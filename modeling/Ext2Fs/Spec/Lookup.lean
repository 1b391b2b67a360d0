import Mathlib.Data.List.TakeWhile
import Ext2Fs.Spec.InodeTable
import Ext2Fs.Spec.Names

/-!
# Looking a name up

`ext2_lookup` goes through the slots of a directory in order.  It finds a name among the entries
before the first `DIR_ENTRY_NO_MORE`, reports an error at that entry, and returns without a value
when there is none.
-/

open Reasoning

namespace Ext2Fs

/-! ## The scan of a list of entries -/

/-- The entry ends a directory. -/
abbrev Ext2DirEntry.isNoMore (entry : Ext2DirEntry) : Prop :=
  getElem entry.name 0 nameByte_lt = dirEntryNoMore

/-- The entries before the first `DIR_ENTRY_NO_MORE`. -/
def visited (slots : List Ext2DirEntry) : List Ext2DirEntry :=
  slots.takeWhile fun entry ↦ ¬ entry.isNoMore

/-- The string that an entry holds is the name. -/
abbrev Ext2DirEntry.holds (entry : Ext2DirEntry) (name : List UInt8) : Prop :=
  cString entry.name = some name

theorem visited_cons (entry : Ext2DirEntry) (slots : List Ext2DirEntry) :
    visited (entry :: slots) = if entry.isNoMore then [] else entry :: visited slots := by
  unfold visited
  rw [List.takeWhile_cons]
  grind

theorem not_isNoMore_of_mem_visited {slots : List Ext2DirEntry} {entry : Ext2DirEntry}
    (h : entry ∈ visited slots) : ¬ entry.isNoMore :=
  of_decide_eq_true (List.mem_takeWhile_imp (p := fun e : Ext2DirEntry ↦ decide (¬ e.isNoMore)) h)

theorem visited_subset (slots : List Ext2DirEntry) : visited slots ⊆ slots :=
  (List.takeWhile_prefix _).subset

theorem visited_length_le (slots : List Ext2DirEntry) : (visited slots).length ≤ slots.length :=
  (List.takeWhile_prefix _).length_le

theorem isNoMore_terminator {slots : List Ext2DirEntry}
    (h : (visited slots).length < slots.length) : slots[(visited slots).length].isNoMore := by
  induction slots with
  | nil => cases h
  | cons entry slots ih =>
    simp only [visited_cons] at h ⊢
    by_cases hentry : entry.isNoMore
    · simp only [if_pos hentry]
      exact hentry
    · simp only [if_neg hentry, List.length_cons, List.getElem_cons_succ] at h ⊢
      exact ih (by omega)

theorem visited_eq_self {slots : List Ext2DirEntry} (h : (visited slots).length = slots.length) :
    visited slots = slots :=
  (List.takeWhile_prefix _).eq_of_length h

theorem exists_noMore_iff_visited {slots : List Ext2DirEntry} :
    (∃ entry ∈ slots, entry.isNoMore) ↔ (visited slots).length < slots.length := by
  constructor
  · rintro ⟨entry, hmem, hentry⟩
    rcases Nat.lt_or_eq_of_le (visited_length_le slots) with hlt | hlen
    · exact hlt
    · -- without a terminator every slot is visited
      rw [← visited_eq_self hlen] at hmem
      exact absurd hentry (not_isNoMore_of_mem_visited hmem)
  · intro hlen
    exact ⟨_, List.getElem_mem hlen, isNoMore_terminator hlen⟩

theorem visited_append (slots later : List Ext2DirEntry) : visited (slots ++ later) =
    if (visited slots).length = slots.length then slots ++ visited later else visited slots := by
  unfold visited
  rw [List.takeWhile_append]

-- An entry put in the place of the first `DIR_ENTRY_NO_MORE` lets the entries behind it be
-- visited, up to the next one.
theorem visited_set {slots : List Ext2DirEntry} {entry : Ext2DirEntry} (hentry : ¬ entry.isNoMore)
    (h : (visited slots).length < slots.length) :
    visited (slots.set (visited slots).length entry) =
      visited slots ++ entry :: visited (slots.drop ((visited slots).length + 1)) := by
  induction slots with
  | nil => cases h
  | cons e slots ih =>
    simp only [visited_cons] at h ⊢
    by_cases he : e.isNoMore
    · simp [if_pos he, visited_cons, hentry]
    · simp only [if_neg he, List.length_cons] at h ⊢
      rw [List.set_cons_succ, visited_cons, if_neg he, ih (by omega)]
      rfl

-- The scan for a free slot.
theorem scanEntries_noMore (slots : List Ext2DirEntry) (k : Nat) :
    scanEntries [] slots k = .ok (
      if (visited slots).length < slots.length then .found (k + (visited slots).length)
      else .next) := by
  induction slots generalizing k with
  | nil => rfl
  | cons entry slots ih =>
    rw [scanEntries, if_pos rfl, visited_cons]
    by_cases h : entry.isNoMore
    · rw [if_pos h, if_pos h]
      simp
    · rw [if_neg h, if_neg h, ih]
      grind

-- The scan for a name, when no comparison leaves its entry.
theorem scanEntries_name {name : List UInt8} (hne : name ≠ []) (hname : 0 ∉ name)
    {slots : List Ext2DirEntry} (k : Nat)
    (hin : ∀ entry ∈ visited slots, name.length < 24 ∨ cString entry.name ≠ none) :
    scanEntries name slots k = .ok (
      match (visited slots).findIdx? (·.holds name) with
      | some i => .found (k + i)
      | none => if (visited slots).length < slots.length then .noMore else .next) := by
  induction slots generalizing k with
  | nil => rfl
  | cons entry slots ih =>
    rw [scanEntries, if_neg hne]
    rw [visited_cons] at hin ⊢
    by_cases h : entry.isNoMore
    · rw [if_pos h, if_pos h]
      simp
    · rw [if_neg h] at hin
      have hrest := ih (k + 1) (fun e he ↦ hin e (List.mem_cons_of_mem _ he))
      rw [if_neg h, if_neg h, nameEquals_eq hname (hin entry List.mem_cons_self), ok_bind,
        List.findIdx?_cons]
      by_cases hfound : entry.holds name
      · rw [if_pos (decide_eq_true hfound), if_pos (decide_eq_true hfound)]
        rfl
      · rw [if_neg (by simpa using hfound), if_neg (by simpa using hfound), hrest]
        cases (visited slots).findIdx? (·.holds name) with
        | none => simp
        | some i => simp [Nat.add_assoc, Nat.add_comm 1 i]

-- A name that fills an entry is found nowhere.
theorem scanEntries_long {name : List UInt8} (hlen : 24 ≤ name.length) (slots : List Ext2DirEntry)
    (k i : Nat) : scanEntries name slots k ≠ .ok (.found i) := by
  have hne : name ≠ [] := List.ne_nil_of_length_pos (by omega)
  induction slots generalizing k with
  | nil => exact fun h ↦ by cases h
  | cons entry slots ih =>
    rw [scanEntries, if_neg hne]
    split
    · exact fun h ↦ by cases h
    · intro h
      obtain ⟨b, hequals, h⟩ := bind_eq_ok.mp h
      cases b with
      | true =>
        have hfit := nameEquals_true hequals
        rw [Vector.length_toList] at hfit
        omega
      | false => exact ih (k + 1) h

theorem scanEntries_append (name : List UInt8) (slots slots' : List Ext2DirEntry) (k : Nat) :
    scanEntries name (slots ++ slots') k =
      scanEntries name slots k >>= fun r ↦ match r with
        | .next => scanEntries name slots' (k + slots.length)
        | r => .ok r := by
  induction slots generalizing k with
  | nil => rfl
  | cons entry slots ih =>
    have hrest := ih (k + 1)
    rw [Nat.add_right_comm, Nat.add_assoc] at hrest
    rw [List.cons_append, scanEntries, scanEntries, List.length_cons]
    by_cases hname : name = []
    · rw [if_pos hname, if_pos hname]
      split
      · rfl
      · exact hrest
    · rw [if_neg hname, if_neg hname]
      split
      · rfl
      · cases nameEquals entry.name.toList name with
        | error u => rfl
        | ok b =>
          rw [ok_bind, ok_bind]
          cases b with
          | true => rfl
          | false => exact hrest

/-- The outcome with the entries counted from `base` on. -/
def EntryScan.shift (base : Nat) : EntryScan → EntryScan
  | .found k => .found (base + k)
  | r => r

theorem scanEntries_shift (name : List UInt8) (slots : List Ext2DirEntry) (base k : Nat) :
    scanEntries name slots (base + k) =
      scanEntries name slots k >>= fun r ↦ .ok (r.shift base) := by
  induction slots generalizing k with
  | nil => rfl
  | cons entry slots ih =>
    have hrest := ih (k + 1)
    rw [← Nat.add_assoc] at hrest
    rw [scanEntries, scanEntries]
    by_cases hname : name = []
    · rw [if_pos hname, if_pos hname]
      split
      · rfl
      · exact hrest
    · rw [if_neg hname, if_neg hname]
      split
      · rfl
      · cases nameEquals entry.name.toList name with
        | error u => rfl
        | ok b =>
          rw [ok_bind, ok_bind]
          cases b with
          | true => rfl
          | false => exact hrest

/-! ## Where a scan ends -/

-- The comparison leaves the entry exactly when the name goes on where the entry stops.
theorem nameEquals_error_iff {b name : List UInt8} :
    (∃ u, nameEquals b name = .error u) ↔ b <+: name := by
  induction b generalizing name with
  | nil => exact iff_of_true ⟨_, rfl⟩ List.nil_prefix
  | cons x xs ih =>
    cases name with
    | nil =>
      refine iff_of_false (fun h ↦ ?_) (fun h ↦ ?_)
      · rcases h with ⟨u, hu⟩
        cases hu
      · exact absurd (List.prefix_nil.mp h) (List.cons_ne_nil x xs)
    | cons c cs =>
      rw [List.cons_prefix_cons, nameEquals]
      by_cases hc : x = c
      · rw [if_pos hc, ih]
        exact (and_iff_right hc).symm
      · rw [if_neg hc]
        refine iff_of_false (fun h ↦ ?_) (fun h ↦ hc h.1)
        rcases h with ⟨u, hu⟩
        cases hu

theorem holds_of_nameEquals {entry : Ext2DirEntry} {name : List UInt8} (hname : 0 ∉ name)
    (h : nameEquals entry.name.toList name = .ok true) : entry.holds name := by
  have hlen := nameEquals_true h
  rw [Vector.length_toList] at hlen
  rw [nameEquals_eq hname (Or.inl hlen)] at h
  simpa using h

theorem nameEquals_of_holds {entry : Ext2DirEntry} {name : List UInt8} (hname : 0 ∉ name)
    (h : entry.holds name) : nameEquals entry.name.toList name = .ok true := by
  rw [nameEquals_eq hname (Or.inr (by rw [h]; exact Option.some_ne_none name)), decide_eq_true h]

/-- Going through the entries in order, one comes to a terminator or to an entry that holds the name
before any entry that the name only starts with. -/
def Settles : List Ext2DirEntry → List UInt8 → Prop
  | [], _ => False
  | entry :: entries, name =>
    entry.isNoMore ∨ entry.holds name ∨ (¬ entry.name.toList <+: name ∧ Settles entries name)

/-- The slot that a search should find: the first terminator for an empty name, and else the first
entry with the name in front of it. -/
def firstSlot (slots : List Ext2DirEntry) (name : List UInt8) : Option Nat :=
  if name = [] then slots.findIdx? (·.isNoMore) else (visited slots).findIdx? (·.holds name)

section Search

variable {name : List UInt8} {slots : List Ext2DirEntry} {k : Nat}

-- One entry of a scan for a name.
theorem scanEntries_cons {entry : Ext2DirEntry} (hentry : ¬ entry.isNoMore) (hne : name ≠ []) :
    scanEntries name (entry :: slots) k = nameEquals entry.name.toList name >>= fun b ↦
      if b then .ok (.found k) else scanEntries name slots (k + 1) := by
  rw [scanEntries, if_neg hne, if_neg hentry]
  rfl

theorem scanEntries_nil_cons {entry : Ext2DirEntry} (hentry : ¬ entry.isNoMore) :
    scanEntries [] (entry :: slots) k = scanEntries [] slots (k + 1) := by
  rw [scanEntries, if_pos rfl, if_neg hentry]

theorem scanEntries_cons_noMore {entry : Ext2DirEntry} (hentry : entry.isNoMore) :
    scanEntries name (entry :: slots) k = .ok (if name = [] then .found k else .noMore) := by
  rw [scanEntries, if_pos hentry, if_pos hentry]
  split
  · rfl
  · rfl

-- An entry that holds the empty string is a terminator.
theorem isNoMore_of_holds_nil {entry : Ext2DirEntry} (h : entry.holds []) : entry.isNoMore := by
  have hend : entry.name.toList[0]? = some 0 := cString_end h
  rw [List.getElem?_eq_getElem (by simp), Vector.getElem_toList, Option.some.injEq] at hend
  exact hend

theorem scanEntries_settled (hname : 0 ∉ name) (h : Settles slots name) :
    ∃ r, scanEntries name slots k = .ok r ∧ r ≠ .next := by
  induction slots generalizing k with
  | nil => exact absurd h (fun h ↦ h)
  | cons entry slots ih =>
    by_cases hentry : entry.isNoMore
    · refine ⟨_, scanEntries_cons_noMore hentry, ?_⟩
      split
      · exact fun h ↦ by cases h
      · exact fun h ↦ by cases h
    · have hrest := h.resolve_left hentry
      by_cases hne : name = []
      · rw [hne] at hrest ⊢
        have hholds : ¬ entry.holds [] := fun hholds ↦ hentry (isNoMore_of_holds_nil hholds)
        rw [scanEntries_nil_cons hentry, ← hne]
        exact ih (hne ▸ (hrest.resolve_left hholds).2)
      · rw [scanEntries_cons hentry hne]
        by_cases hholds : entry.holds name
        · rw [nameEquals_of_holds hname hholds]
          exact ⟨_, rfl, fun h ↦ by cases h⟩
        · rcases hrest.resolve_left hholds with ⟨hstarts, hrest⟩
          cases hequals : nameEquals entry.name.toList name with
          | error u => exact absurd (nameEquals_error_iff.mp ⟨u, hequals⟩) hstarts
          | ok b =>
            cases b with
            | true => exact absurd (holds_of_nameEquals hname hequals) hholds
            | false => exact ih hrest

theorem settles_of_scanEntries (hname : 0 ∉ name) {r : EntryScan}
    (h : scanEntries name slots k = .ok r) (hr : r ≠ .next) : Settles slots name := by
  induction slots generalizing k with
  | nil =>
    cases h
    exact absurd rfl hr
  | cons entry slots ih =>
    by_cases hentry : entry.isNoMore
    · exact Or.inl hentry
    right
    by_cases hne : name = []
    · rw [hne, scanEntries_nil_cons hentry, ← hne] at h
      refine Or.inr ⟨fun hstarts ↦ ?_, ih h⟩
      have hlen := hstarts.length_le
      rw [hne, Vector.length_toList] at hlen
      exact absurd hlen (by decide)
    · rw [scanEntries_cons hentry hne] at h
      rcases bind_eq_ok.mp h with ⟨b, hequals, h⟩
      cases b with
      | true => exact Or.inl (holds_of_nameEquals hname hequals)
      | false =>
        refine Or.inr ⟨fun hstarts ↦ ?_, ih h⟩
        rcases nameEquals_error_iff.mpr hstarts with ⟨u, hu⟩
        rw [hequals] at hu
        cases hu

-- A scan that ends finds the slot that it should.
theorem scanEntries_firstSlot (hname : 0 ∉ name) {r : EntryScan}
    (h : scanEntries name slots k = .ok r) (hr : r ≠ .next) :
    r = (firstSlot slots name).elim .noMore fun q ↦ .found (k + q) := by
  induction slots generalizing k with
  | nil =>
    cases h
    exact absurd rfl hr
  | cons entry slots ih =>
    by_cases hentry : entry.isNoMore
    · rw [scanEntries_cons_noMore hentry, Except.ok.injEq] at h
      rw [← h, firstSlot, visited_cons, if_pos hentry, List.findIdx?_cons, decide_eq_true hentry]
      split
      · rfl
      · rfl
    · have hrest : ∀ {o : Option Nat}, r = o.elim .noMore (fun q ↦ .found (k + 1 + q)) →
          r = (o.map (· + 1)).elim .noMore fun q ↦ .found (k + q) := by
        intro o ho
        cases o with
        | none => exact ho
        | some q =>
          rw [ho]
          simp [Nat.add_assoc, Nat.add_comm 1 q]
      by_cases hne : name = []
      · rw [hne, scanEntries_nil_cons hentry, ← hne] at h
        have hih := ih h
        rw [firstSlot, if_pos hne] at hih ⊢
        rw [List.findIdx?_cons, decide_eq_false hentry]
        exact hrest hih
      · rw [scanEntries_cons hentry hne] at h
        rcases bind_eq_ok.mp h with ⟨b, hequals, h⟩
        rw [firstSlot, if_neg hne, visited_cons, if_neg hentry, List.findIdx?_cons]
        cases b with
        | true =>
          rw [decide_eq_true (holds_of_nameEquals hname hequals)]
          cases h
          rfl
        | false =>
          have hholds : ¬ entry.holds name := by
            intro hholds
            rw [nameEquals_of_holds hname hholds] at hequals
            cases hequals
          have hih := ih h
          rw [firstSlot, if_neg hne] at hih
          rw [decide_eq_false hholds]
          exact hrest hih

-- A scan that does not end has met neither a terminator nor the name.
theorem scanEntries_next (hname : 0 ∉ name) (h : scanEntries name slots k = .ok .next) :
    ∀ entry ∈ slots, ¬ entry.isNoMore ∧ ¬ entry.holds name := by
  induction slots generalizing k with
  | nil => exact fun entry hmem ↦ absurd hmem List.not_mem_nil
  | cons entry slots ih =>
    have hentry : ¬ entry.isNoMore := by
      intro hentry
      rw [scanEntries_cons_noMore hentry, Except.ok.injEq] at h
      split at h
      · cases h
      · cases h
    rw [List.forall_mem_cons]
    by_cases hne : name = []
    · rw [hne] at h ⊢
      rw [scanEntries_nil_cons hentry, ← hne] at h
      rw [← hne]
      exact ⟨⟨hentry, fun hholds ↦ hentry (isNoMore_of_holds_nil (hne ▸ hholds))⟩, ih h⟩
    · rw [scanEntries_cons hentry hne] at h
      rcases bind_eq_ok.mp h with ⟨b, hequals, h⟩
      cases b with
      | true => cases h
      | false =>
        refine ⟨⟨hentry, fun hholds ↦ ?_⟩, ih h⟩
        rw [nameEquals_of_holds hname hholds] at hequals
        cases hequals

-- Entries without a terminator end no search for one, and answer none with an error.
theorem scanEntries_unterminated (hslots : ∀ entry ∈ slots, ¬ entry.isNoMore) {r : EntryScan}
    (h : scanEntries name slots k = .ok r) : r ≠ .noMore ∧ (name = [] → r = .next) := by
  induction slots generalizing k with
  | nil =>
    cases h
    exact ⟨(fun h ↦ by cases h), fun _ ↦ rfl⟩
  | cons entry slots ih =>
    rw [List.forall_mem_cons] at hslots
    by_cases hne : name = []
    · rw [hne, scanEntries_nil_cons hslots.1, ← hne] at h
      exact ih hslots.2 h
    · rw [scanEntries_cons hslots.1 hne] at h
      rcases bind_eq_ok.mp h with ⟨b, -, h⟩
      cases b with
      | true =>
        cases h
        exact ⟨(fun h ↦ by cases h), fun h ↦ absurd h hne⟩
      | false => exact ih hslots.2 h

end Search

end Ext2Fs
