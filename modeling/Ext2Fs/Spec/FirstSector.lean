import Ext2Fs.Spec.Session

/-!
# The first sector of the root directory

The root's block has eight sectors, and the format writes one of them.  A call whose outcome is
decided by the entries of that sector does not load the others.
-/

open Reasoning

namespace Ext2Fs

/-! ## The search for a name in part of a directory -/

/-- The search for the name ends at one of the entries. -/
def Decides (slots : List Ext2DirEntry) (name : List UInt8) : Prop :=
  ∃ entry ∈ slots, entry.isNoMore ∨ entry.holds name

section Search

variable {name : List UInt8} {slots later : List Ext2DirEntry}

theorem scanEntries_decided (hname : 0 ∉ name)
    (hterminated : ∀ entry ∈ slots, cString entry.name ≠ none) (h : Decides slots name) (k : Nat) :
    ∃ r, scanEntries name slots k = .ok r ∧ r ≠ .next := by
  induction slots generalizing k with
  | nil =>
    rcases h with ⟨entry, hmem, -⟩
    cases hmem
  | cons entry slots ih =>
    have hrest := fun hdecides ↦
      ih (fun e he ↦ hterminated e (List.mem_cons_of_mem entry he)) hdecides (k + 1)
    rw [scanEntries]
    by_cases hnoMore : entry.isNoMore
    · rw [if_pos hnoMore, if_pos hnoMore]
      split
      · exact ⟨_, rfl, by simp⟩
      · exact ⟨_, rfl, by simp⟩
    rw [if_neg hnoMore, if_neg hnoMore]
    by_cases hholds : entry.holds name
    · have hne : name ≠ [] := by
        rintro rfl
        exact hnoMore (isNoMore_of_holds_nil hholds)
      rw [if_neg hne, nameEquals_eq hname (Or.inr (hterminated entry List.mem_cons_self)),
        decide_eq_true hholds]
      exact ⟨_, rfl, by simp⟩
    · have hdecides : Decides slots name := by
        rcases h with ⟨e, hmem, he⟩
        rcases List.mem_cons.mp hmem with rfl | hmem
        · exact absurd he (not_or.mpr ⟨hnoMore, hholds⟩)
        · exact ⟨e, hmem, he⟩
      split
      · exact hrest hdecides
      · rw [nameEquals_eq hname (Or.inr (hterminated entry List.mem_cons_self)),
          decide_eq_false hholds]
        exact hrest hdecides

theorem decides_of_scanEntries (hname : 0 ∉ name) {k : Nat} {r : EntryScan}
    (h : scanEntries name slots k = .ok r) (hr : r ≠ .next) : Decides slots name := by
  induction slots generalizing k with
  | nil =>
    cases h
    exact absurd rfl hr
  | cons entry slots ih =>
    have hrest : ∀ k', scanEntries name slots k' = .ok r → Decides (entry :: slots) name := by
      intro k' hscan
      rcases ih hscan with ⟨e, hmem, he⟩
      exact ⟨e, List.mem_cons_of_mem entry hmem, he⟩
    rw [scanEntries] at h
    by_cases hnoMore : entry.isNoMore
    · exact ⟨entry, List.mem_cons_self, Or.inl hnoMore⟩
    rw [if_neg hnoMore, if_neg hnoMore] at h
    split at h
    · exact hrest (k + 1) h
    · rcases bind_eq_ok.mp h with ⟨b, hequals, h⟩
      cases b with
      | true => exact ⟨entry, List.mem_cons_self, Or.inr (holds_of_nameEquals hname hequals)⟩
      | false => exact hrest (k + 1) h

end Search

/-! ## The two parts of the root -/

/-- The entries of the sector that the format writes. -/
def firstSlots (disk : DiskOperations) : List Ext2DirEntry := (asEntries (disk.content 288)).toList

/-- The entries of the seven sectors behind it. -/
def laterSlots (disk : DiskOperations) : List Ext2DirEntry :=
  (List.range' 16 112).map (blockSlot disk 36)

@[simp] theorem length_firstSlots (disk : DiskOperations) : (firstSlots disk).length = 16 := by
  simp [firstSlots]

theorem rootSlots_append (disk : DiskOperations) :
    rootSlots disk = firstSlots disk ++ laterSlots disk := by
  have hfirst : firstSlots disk = (List.range' 0 16).map (blockSlot disk 36) :=
    toList_asEntries disk 36 0
  rw [hfirst, laterSlots, ← List.map_append]
  rfl

-- The format leaves those alone.
theorem Formatted.laterSlots_eq {old disk' : DiskOperations} (h : Formatted old disk') :
    laterSlots disk' = laterSlots old := by
  unfold laterSlots
  apply List.map_congr_left
  intro t ht
  have hrange : 16 ≤ t ∧ t < 128 := by simpa using List.mem_range'_1.mp ht
  unfold blockSlot
  rw [h.frame _ (by omega) (by omega) (by omega) (by omega) (by omega)]

section Root

variable {disk : DiskOperations} {name : List UInt8}

theorem taken_iff_of_decides (h : Decides (firstSlots disk) name) :
    Taken disk name ↔ ∃ entry ∈ visited (firstSlots disk), entry.holds name := by
  unfold Taken
  rw [rootSlots_append, visited_append]
  split
  · rename_i hlen
    have hself := visited_eq_self hlen
    -- no entry of the sector is a terminator, so that one of them holds the name
    have hholds : ∃ entry ∈ firstSlots disk, entry.holds name := by
      rcases h with ⟨entry, hmem, hnoMore | hholds⟩
      · have hlt := exists_noMore_iff_visited.mp ⟨entry, hmem, hnoMore⟩
        exact absurd hlen (Nat.ne_of_lt hlt)
      · exact ⟨entry, hmem, hholds⟩
    rw [hself]
    apply iff_of_true _ hholds
    rcases hholds with ⟨entry, hmem, hholds⟩
    exact ⟨entry, List.mem_append_left _ hmem, hholds⟩
  · exact Iff.rfl

theorem exists_noMore_of_decides (h : Decides (firstSlots disk) name)
    (htaken : ¬ ∃ entry ∈ visited (firstSlots disk), entry.holds name) :
    ∃ entry ∈ firstSlots disk, entry.isNoMore := by
  by_contra hnone
  rw [exists_noMore_iff_visited, Nat.not_lt] at hnone
  have hself := visited_eq_self (Nat.le_antisymm (visited_length_le _) hnone)
  rw [hself] at htaken
  rcases h with ⟨entry, hmem, hnoMore | hholds⟩
  · rw [← hself] at hmem
    exact not_isNoMore_of_mem_visited hmem hnoMore
  · exact htaken ⟨entry, hmem, hholds⟩

theorem terminator_of_noMore (h : ∃ entry ∈ firstSlots disk, entry.isNoMore) :
    terminator disk = (visited (firstSlots disk)).length ∧ terminator disk < 16 := by
  have hlt := exists_noMore_iff_visited.mp h
  have hterm : terminator disk = (visited (firstSlots disk)).length := by
    rw [terminator, rootSlots_append, visited_append, if_neg (Nat.ne_of_lt hlt)]
  rw [length_firstSlots] at hlt
  exact ⟨hterm, by omega⟩

-- A lookup that the first sector decides.
theorem RootAt.ext2Lookup_first {fs : Ext2Filesystem} (h : RootAt fs) {parent : Ext2Node}
    (hroot : parent.entry.inode = 2) (hname : 0 ∉ name)
    (hterminated : ∀ entry ∈ firstSlots fs.disk, cString entry.name ≠ none)
    (hdecides : Decides (firstSlots fs.disk) name) (location : Option EntryLocation) :
    ∃ r, scanEntries name (firstSlots fs.disk) 0 = .ok r ∧ r ≠ .next ∧
      ext2Lookup fs parent name location = .ok (r.result fs 36 location) := by
  rcases scanEntries_decided hname hterminated hdecides 0 with ⟨r, hscan, hr⟩
  refine ⟨r, hscan, hr, ?_⟩
  rw [h.ext2Lookup_eq hroot, rootSlots_append, scanEntries_append, hscan, ok_bind]
  cases r with
  | next => exact absurd rfl hr
  | found k => rfl
  | noMore => rfl

-- A new entry takes a blank slot of the first sector.
theorem Makes.slots_first {op : DirOp} {fs fs' : Ext2Filesystem} {k b d : Nat}
    (h : Makes op fs fs' name k b d)
    (hblank : ∀ entry ∈ firstSlots fs.disk, entry.isNoMore → entry = Ext2DirEntry.zero)
    (hnoMore : ∃ entry ∈ firstSlots fs.disk, entry.isNoMore) :
    firstSlots fs'.disk = (firstSlots fs.disk).set (visited (firstSlots fs.disk)).length
        (dirEntry (UInt32.ofNat (nextInode k)) name) ∧
      laterSlots fs'.disk = laterSlots fs.disk := by
  have hlt := exists_noMore_iff_visited.mp hnoMore
  rcases terminator_of_noMore hnoMore with ⟨hterm, -⟩
  have hold : blockSlot fs.disk 36 (terminator fs.disk) = Ext2DirEntry.zero := by
    have hin : terminator fs.disk < (rootSlots fs.disk).length := by
      rw [hterm, rootSlots_append, List.length_append]
      omega
    have hslot : (rootSlots fs.disk)[terminator fs.disk] =
        (firstSlots fs.disk)[(visited (firstSlots fs.disk)).length] := by
      simp only [rootSlots_append, hterm]
      exact List.getElem_append_left hlt
    rw [← getElem_rootSlots fs.disk hin, hslot]
    exact hblank _ (List.getElem_mem hlt) (isNoMore_terminator hlt)
  have hslots := h.slots
  rw [hold, hterm, rootSlots_append, rootSlots_append, List.set_append_left _ _ hlt] at hslots
  exact List.append_inj hslots (by simp)

end Root

end Ext2Fs
