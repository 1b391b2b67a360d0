import Ext2Fs.Reasoning.Exec

/-!
# Areas of memory

An allocated area is the list of its cells.  A cell is loaded or stored alone, and a range as a
whole, the way `memcpy` does; what runs past the end of the area is undefined.
-/

namespace Reasoning

variable {β : Type}

/-- The `len` cells from `off` on. -/
def loadRange (area : List β) (off len : Nat) : Exec (List β) :=
  if off + len ≤ area.length then .ok ((area.drop off).take len) else .error .outOfBounds

/-- The area with the cells from `off` on replaced by `data`. -/
def storeRange (area : List β) (off : Nat) (data : List β) : Exec (List β) :=
  if off + data.length ≤ area.length then
    .ok (area.take off ++ data ++ area.drop (off + data.length))
  else .error .outOfBounds

/-- One cell of the area. -/
def loadCell (area : List β) (i : Nat) : Exec β :=
  match area[i]? with
  | some c => .ok c
  | none => .error .outOfBounds

/-- The area with one cell replaced. -/
def storeCell (area : List β) (i : Nat) (c : β) : Exec (List β) :=
  if i < area.length then .ok (area.set i c) else .error .outOfBounds

section Cell

variable {area front back : List β} {i : Nat} {c d : β}

theorem loadCell_eq_ok : loadCell area i = .ok c ↔ area[i]? = some c := by
  unfold loadCell
  cases area[i]? with
  | none => simp
  | some d => simp

theorem loadCell_append_cons (h : front.length = i) : loadCell (front ++ c :: back) i = .ok c := by
  rw [loadCell_eq_ok, ← h, List.getElem?_append_right (Nat.le_refl _), Nat.sub_self,
    List.getElem?_cons_zero]

theorem storeCell_of_ge (h : area.length ≤ i) : storeCell area i c = .error .outOfBounds :=
  if_neg (Nat.not_lt.mpr h)

theorem storeCell_append_cons (h : front.length = i) :
    storeCell (front ++ c :: back) i d = .ok (front ++ d :: back) := by
  have hlt : i < (front ++ c :: back).length := by
    rw [List.length_append, List.length_cons]
    omega
  unfold storeCell
  rw [if_pos hlt, List.set_append_right i d (Nat.le_of_eq h), h, Nat.sub_self, List.set_cons_zero]

end Cell

section Range

variable {area area' data : List β} {off len : Nat}

theorem loadRange_of_le (h : off + len ≤ area.length) :
    loadRange area off len = .ok ((area.drop off).take len) := if_pos h

theorem loadRange_of_gt (h : area.length < off + len) :
    loadRange area off len = .error .outOfBounds := if_neg (Nat.not_le.mpr h)

theorem loadRange_all (h : area.length = len) : loadRange area 0 len = .ok area := by
  subst h
  rw [loadRange_of_le (by omega), List.drop_zero, List.take_length]

theorem le_of_loadRange (h : loadRange area off len = .ok data) : off + len ≤ area.length := by
  apply Nat.le_of_not_lt
  intro hgt
  rw [loadRange_of_gt hgt] at h
  cases h

theorem length_of_loadRange (h : loadRange area off len = .ok data) : data.length = len := by
  have hle := le_of_loadRange h
  rw [loadRange_of_le hle, Except.ok.injEq] at h
  rw [← h, List.length_take, List.length_drop]
  omega

theorem storeRange_of_le (h : off + data.length ≤ area.length) :
    storeRange area off data =
      .ok (area.take off ++ data ++ area.drop (off + data.length)) := if_pos h

theorem storeRange_of_gt (h : area.length < off + data.length) :
    storeRange area off data = .error .outOfBounds := if_neg (Nat.not_le.mpr h)

theorem storeRange_nil (h : off ≤ area.length) : storeRange area off [] = .ok area := by
  rw [storeRange_of_le h, List.append_nil, List.length_nil, Nat.add_zero, List.take_append_drop]

theorem storeRange_all (h : data.length = area.length) : storeRange area 0 data = .ok data := by
  rw [storeRange_of_le (by omega), Nat.zero_add, h, List.drop_length, List.take_zero,
    List.nil_append, List.append_nil]

-- what a store that succeeded says about its bounds
theorem le_of_storeRange (h : storeRange area off data = .ok area') :
    off + data.length ≤ area.length := by
  apply Nat.le_of_not_lt
  intro hgt
  rw [storeRange_of_gt hgt] at h
  cases h

theorem length_of_storeRange (h : storeRange area off data = .ok area') :
    area'.length = area.length := by
  have hle := le_of_storeRange h
  rw [storeRange_of_le hle, Except.ok.injEq] at h
  subst h
  simp
  omega

theorem getElem?_of_storeRange (h : storeRange area off data = .ok area') (k : Nat) :
    area'[k]? = if off ≤ k ∧ k < off + data.length then data[k - off]? else area[k]? := by
  have hle := le_of_storeRange h
  rw [storeRange_of_le hle, Except.ok.injEq] at h
  subst h
  have htake : (area.take off).length = off := by
    rw [List.length_take]
    omega
  rw [List.append_assoc]
  by_cases hlo : k < off
  · rw [if_neg (by omega), List.getElem?_append_left (by omega), List.getElem?_take_of_lt hlo]
  rw [List.getElem?_append_right (by omega), htake]
  by_cases hhi : k < off + data.length
  · rw [if_pos ⟨by omega, hhi⟩, List.getElem?_append_left (by omega)]
  · rw [if_neg (by omega), List.getElem?_append_right (by omega), List.getElem?_drop]
    congr 1
    omega

-- A range is read back as it was written.
theorem loadRange_storeRange_self (h : storeRange area off data = .ok area') :
    loadRange area' off data.length = .ok data := by
  have hle := le_of_storeRange h
  have hlen := length_of_storeRange h
  rw [loadRange_of_le (by omega), Except.ok.injEq]
  apply List.ext_getElem?
  intro k
  by_cases hk : k < data.length
  · rw [List.getElem?_take_of_lt hk, List.getElem?_drop, getElem?_of_storeRange h,
      if_pos ⟨by omega, by omega⟩, Nat.add_sub_cancel_left]
  · rw [List.getElem?_eq_none (by rw [List.length_take]; omega), List.getElem?_eq_none (by omega)]

-- A range that the store does not touch keeps its cells.
theorem loadRange_storeRange_disjoint {off' len' : Nat} (h : storeRange area off data = .ok area')
    (hdisjoint : off + data.length ≤ off' ∨ off' + len' ≤ off) :
    loadRange area' off' len' = loadRange area off' len' := by
  have hlen := length_of_storeRange h
  by_cases hin : off' + len' ≤ area.length
  · rw [loadRange_of_le hin, loadRange_of_le (by omega), Except.ok.injEq]
    apply List.ext_getElem?
    intro k
    by_cases hk : k < len'
    · rw [List.getElem?_take_of_lt hk, List.getElem?_take_of_lt hk, List.getElem?_drop,
        List.getElem?_drop, getElem?_of_storeRange h, if_neg (by omega)]
    · rw [List.getElem?_eq_none (by rw [List.length_take]; omega),
        List.getElem?_eq_none (by rw [List.length_take]; omega)]
  · rw [loadRange_of_gt (by omega), loadRange_of_gt (by omega)]

-- Two ranges side by side are one.
theorem loadRange_append {len' : Nat} (area : List β) (off : Nat) :
    loadRange area off (len + len') =
      loadRange area off len >>= fun front ↦
        loadRange area (off + len) len' >>= fun back ↦ .ok (front ++ back) := by
  by_cases hfront : off + len ≤ area.length
  · rw [loadRange_of_le hfront, ok_bind]
    by_cases hback : off + len + len' ≤ area.length
    · rw [loadRange_of_le hback, ok_bind, loadRange_of_le (by omega), List.take_add,
        List.drop_drop]
    · rw [loadRange_of_gt (by omega), loadRange_of_gt (by omega), error_bind]
  · rw [loadRange_of_gt (by omega), loadRange_of_gt (by omega), error_bind]

-- and a part of a range is found at its place in it
theorem loadRange_part {k len' : Nat} (h : loadRange area off len = .ok data)
    (hpart : k + len' ≤ len) :
    loadRange area (off + k) len' = .ok ((data.drop k).take len') := by
  have hle := le_of_loadRange h
  rw [loadRange_of_le hle, Except.ok.injEq] at h
  rw [loadRange_of_le (by omega), ← h, List.drop_take, List.drop_drop, List.take_take,
    Nat.min_eq_left (by omega)]

theorem storeRange_append (area : List β) (off : Nat) (front back : List β) :
    storeRange area off (front ++ back) =
      storeRange area off front >>= fun area ↦ storeRange area (off + front.length) back := by
  by_cases hfront : off + front.length ≤ area.length
  · have htake : (area.take off).length = off := by
      rw [List.length_take]
      omega
    have hseam : (area.take off ++ front).length = off + front.length := by
      rw [List.length_append, htake]
    have hlen : (area.take off ++ front ++ area.drop (off + front.length)).length = area.length := by
      rw [List.length_append, hseam, List.length_drop]
      omega
    rw [storeRange_of_le hfront, ok_bind]
    by_cases hback : off + front.length + back.length ≤ area.length
    · have hdrop : (area.take off ++ front ++ area.drop (off + front.length)).drop
          (off + front.length + back.length) = area.drop (off + (front ++ back).length) := by
        rw [← hseam, List.drop_length_add_append, List.drop_drop, hseam, List.length_append,
          Nat.add_assoc]
      rw [storeRange_of_le (by rw [List.length_append]; omega), storeRange_of_le (by omega),
        List.take_left' hseam, hdrop, ← List.append_assoc (area.take off)]
    · rw [storeRange_of_gt (by rw [List.length_append]; omega), storeRange_of_gt (by omega)]
  · rw [storeRange_of_gt (by rw [List.length_append]; omega), storeRange_of_gt (by omega),
      error_bind]

end Range

end Reasoning
