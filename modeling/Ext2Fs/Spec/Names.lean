import Mathlib.Data.List.TakeWhile
import Ext2Fs.Model.Directory

/-!
# Formatted names and their comparison

What `format_name` accepts becomes a C string of at least eleven characters, and `strcmp` against a
directory entry compares with the string that the entry holds.
-/

open Reasoning

namespace Ext2Fs

/-! ## C strings -/

theorem cString_eq_some_iff {n : Nat} {b : Bytes n} {s : List UInt8} :
    cString b = some s ↔ 0 ∉ s ∧ ∃ rest, b.toList = s ++ 0 :: rest := by
  unfold cString
  constructor
  · intro h
    split at h
    · rename_i hmem
      rw [Option.some.injEq] at h
      subst h
      refine ⟨fun h0 ↦ by simpa using List.mem_takeWhile_imp h0, ?_⟩
      -- the rest of the buffer is not empty, and its head ended the string
      have hsplit := List.takeWhile_append_dropWhile
        (p := fun c : UInt8 ↦ decide (c ≠ 0)) (l := b.toList)
      cases hd : b.toList.dropWhile fun c ↦ decide (c ≠ 0) with
      | nil =>
        rw [List.dropWhile_eq_nil_iff] at hd
        simpa using hd 0 hmem
      | cons c rest =>
        have hc : c = 0 := by
          have hhead := List.head?_dropWhile_not (fun c : UInt8 ↦ decide (c ≠ 0)) b.toList
          rw [hd] at hhead
          simpa using hhead
        rw [hd, hc] at hsplit
        exact ⟨rest, hsplit.symm⟩
    · cases h
  · rintro ⟨h0, rest, hb⟩
    rw [hb, if_pos (by simp), List.takeWhile_append_of_pos]
    · simp
    · intro c hc
      have hne : c ≠ 0 := fun h ↦ h0 (h ▸ hc)
      simpa using hne

theorem cString_length {n : Nat} {b : Bytes n} {s : List UInt8} (h : cString b = some s) :
    s.length < n := by
  obtain ⟨-, rest, hb⟩ := cString_eq_some_iff.mp h
  have hlen := congrArg List.length hb
  simp at hlen
  omega

theorem cString_getElem {n : Nat} {b : Bytes n} {s : List UInt8} (h : cString b = some s) {i : Nat}
    (hi : i < s.length) : b.toList[i]? = some s[i] := by
  obtain ⟨-, rest, hb⟩ := cString_eq_some_iff.mp h
  rw [hb, List.getElem?_append_left hi, List.getElem?_eq_getElem hi]

theorem cString_end {n : Nat} {b : Bytes n} {s : List UInt8} (h : cString b = some s) :
    b.toList[s.length]? = some 0 := by
  obtain ⟨-, rest, hb⟩ := cString_eq_some_iff.mp h
  rw [hb, List.getElem?_append_right (Nat.le_refl _), Nat.sub_self]
  rfl

-- A buffer that starts with the characters of a string and a terminator.
theorem cString_of_bytes {n : Nat} {b : Bytes n} {s : List UInt8} (h0 : 0 ∉ s)
    (hbytes : ∀ i (hi : i < s.length), b.toList[i]? = some s[i])
    (hend : b.toList[s.length]? = some 0) : cString b = some s := by
  refine cString_eq_some_iff.mpr ⟨h0, b.toList.drop (s.length + 1), ?_⟩
  apply List.ext_getElem?
  intro i
  grind

/-! ## strcmp -/

theorem nameEquals_terminated {s name rest : List UInt8} (hs : 0 ∉ s) (hname : 0 ∉ name) :
    nameEquals (s ++ 0 :: rest) name = .ok (decide (s = name)) := by
  induction s generalizing name with
  | nil =>
    cases name with
    | nil => rfl
    | cons c cs =>
      have hc : (0 : UInt8) ≠ c := fun h ↦ hname (by simp [h])
      simp [nameEquals, hc]
  | cons b bs ih =>
    have hb : b ≠ 0 := fun h ↦ hs (by simp [h])
    cases name with
    | nil => simp [nameEquals, hb]
    | cons c cs =>
      by_cases hbc : b = c
      · have hrest := ih (fun h ↦ hs (by simp [h])) (show 0 ∉ cs from fun h ↦ hname (by simp [h]))
        simp [nameEquals, hbc, hrest]
      · simp [nameEquals, hbc]

theorem nameEquals_unterminated {b name : List UInt8} (hb : 0 ∉ b) (hlen : name.length < b.length) :
    nameEquals b name = .ok false := by
  induction b generalizing name with
  | nil => cases hlen
  | cons x xs ih =>
    have hx : x ≠ 0 := fun h ↦ hb (by simp [h])
    cases name with
    | nil => simp [nameEquals, hx]
    | cons c cs =>
      by_cases hxc : x = c
      · have hrest := ih (fun h ↦ hb (by simp [h])) (show cs.length < xs.length by simpa using hlen)
        simp [nameEquals, hxc, hrest]
      · simp [nameEquals, hxc]

-- The comparison stays inside the entry when the name is short or the entry holds a string.
theorem nameEquals_eq {entry : Ext2DirEntry} {name : List UInt8} (hname : 0 ∉ name)
    (hin : name.length < 24 ∨ cString entry.name ≠ none) :
    nameEquals entry.name.toList name = .ok (decide (cString entry.name = some name)) := by
  cases hs : cString entry.name with
  | some s =>
    obtain ⟨h0, rest, hb⟩ := cString_eq_some_iff.mp hs
    rw [hb, nameEquals_terminated h0 hname]
    simp
  | none =>
    have h0 : 0 ∉ entry.name.toList := by
      intro h
      rw [cString, if_pos h] at hs
      cases hs
    rw [nameEquals_unterminated h0 (by simpa [hs] using hin)]
    simp

-- A comparison that succeeds has found the terminator behind the name.
theorem nameEquals_true {b name : List UInt8} (h : nameEquals b name = .ok true) :
    name.length < b.length := by
  induction b generalizing name with
  | nil => cases h
  | cons x xs ih =>
    cases name with
    | nil => simp
    | cons c cs =>
      unfold nameEquals at h
      split at h
      · have hrest := ih h
        simpa using hrest
      · cases h

/-! ## format_name -/

theorem toUpper_ne_zero {c : UInt8} (h : c ≠ 0) : toUpper c ≠ 0 := by
  unfold toUpper
  split
  · rename_i hlower
    intro h0
    have hc : 0x61 ≤ c ∧ c ≤ 0x7a := by simpa [isLower] using hlower
    have heq : c = 0x20 := by grind
    subst heq
    exact absurd hc (by decide)
  · exact h

theorem zero_notMem_upperString {s : List UInt8} (h : 0 ∉ s) (length : Nat) :
    0 ∉ upperString s length := by
  unfold upperString
  rw [List.mem_append, not_or, List.mem_map]
  refine ⟨?_, fun hd ↦ h (List.mem_of_mem_drop hd)⟩
  rintro ⟨c, hc, h0⟩
  exact toUpper_ne_zero (fun hz ↦ h (hz ▸ List.mem_of_mem_take hc)) h0

/-- No byte of the buffer ends a string. -/
def ZeroFree {n : Nat} (b : Bytes n) : Prop := ∀ i (hi : i < n), b[i] ≠ 0

theorem dotdotRegular_zeroFree : ZeroFree dotdotRegular := by
  unfold ZeroFree
  decide

theorem dotRegular_zeroFree : ZeroFree dotRegular := by
  unfold ZeroFree
  decide

theorem storeRegular_zeroFree {regularName regularName' : Bytes 11} {k : Nat} {c : UInt8}
    (h : ZeroFree regularName) (hc : c ≠ 0)
    (hstore : storeRegular regularName k c = .ok regularName') :
    ZeroFree regularName' := by
  unfold storeRegular at hstore
  split at hstore
  · cases hstore
    intro i hi
    rw [Vector.getElem_set]
    split
    · exact hc
    · exact h i hi
  · cases hstore

theorem scanName_zeroFree {st st' : NameScan} {s : List UInt8} (hs : 0 ∉ s)
    (h : ZeroFree st.regularName) (hscan : scanName st s = .ok (some st')) :
    ZeroFree st'.regularName := by
  induction s generalizing st with
  | nil =>
    cases hscan
    exact h
  | cons c cs ih =>
    have hc : c ≠ 0 := fun h0 ↦ hs (by simp [h0])
    have hcs : 0 ∉ cs := fun h0 ↦ hs (by simp [h0])
    unfold scanName at hscan
    split at hscan
    · cases hscan
    · split at hscan
      · split at hscan
        · cases hscan
        · -- a dot leaves the regular name as it is
          refine ih hcs ?_ hscan
          exact h
      · split at hscan <;>
        · obtain ⟨regularName, hstore, hscan⟩ := bind_eq_ok.mp hscan
          exact ih hcs (storeRegular_zeroFree h hc hstore) hscan

theorem getElem_overwrite (name : NameBuffer) (src : Bytes 11) {i : Nat} (hi : i < 11) :
    (name.overwrite src)[i] = src[i] := by
  simp [NameBuffer.overwrite, hi]

-- An accepted name starts with eleven characters.
theorem formatName_getElem {name name' : NameBuffer} {r : Int}
    (h : formatName name = .ok (r, name')) (hr : r = 0) {i : Nat} (hi : i < 11) : name'[i] ≠ 0 := by
  subst hr
  unfold formatName at h
  split at h
  · cases h
  rename_i s hs
  have h0 : 0 ∉ upperString s 11 :=
    zero_notMem_upperString (cString_eq_some_iff.mp hs).1 11
  split at h
  · rw [Except.ok.injEq, Prod.mk.injEq] at h
    rw [← h.2, getElem_overwrite _ _ hi]
    exact dotdotRegular_zeroFree i hi
  · split at h
    · rw [Except.ok.injEq, Prod.mk.injEq] at h
      rw [← h.2, getElem_overwrite _ _ hi]
      exact dotRegular_zeroFree i hi
    · obtain ⟨scan, hscan, h⟩ := bind_eq_ok.mp h
      cases scan with
      | none =>
        rw [pure_eq_ok, Except.ok.injEq, Prod.mk.injEq] at h
        exact absurd h.1 (by decide)
      | some st =>
        simp only at h
        split at h
        · rw [pure_eq_ok, Except.ok.injEq, Prod.mk.injEq] at h
          exact absurd h.1 (by decide)
        · rw [pure_eq_ok, Except.ok.injEq, Prod.mk.injEq] at h
          rw [← h.2, getElem_overwrite _ _ hi]
          refine scanName_zeroFree h0 (fun j hj ↦ ?_) hscan i hi
          rw [NameScan.start, Vector.getElem_replicate]
          decide

theorem length_of_formatName {name name' : NameBuffer} (h : formatName name = .ok (0, name'))
    {s : List UInt8} (hs : cString name' = some s) : 11 ≤ s.length := by
  by_contra hlt
  have hend := cString_end hs
  have hne := formatName_getElem h rfl (show s.length < 11 by omega)
  rw [List.getElem?_eq_getElem (by simp; omega), Vector.getElem_toList, Option.some.injEq] at hend
  exact hne hend

/-- The name under which an entry is looked up and made; `none` when `format_name` rejects it. -/
def formattedName (op : DirOp) (entryName : List UInt8) : Exec (Option (List UInt8)) := do
  let name ← loadName op entryName
  let (rejected, name) ← formatName name
  if rejected ≠ 0 then return none
  match cString name with
  | none => .error .outOfBounds
  | some s => return some s

-- The buffer that holds a formatted name.
theorem formattedName_buffer {op : DirOp} {entryName s : List UInt8}
    (h : formattedName op entryName = .ok (some s)) :
    ∃ name name', loadName op entryName = .ok name ∧ formatName name = .ok (0, name') ∧
      cString name' = some s := by
  unfold formattedName at h
  obtain ⟨name, hload, h⟩ := bind_eq_ok.mp h
  obtain ⟨⟨r, name'⟩, hformat, h⟩ := bind_eq_ok.mp h
  simp only at h
  split at h
  · cases h
  · rename_i hr
    rw [not_not] at hr
    subst hr
    split at h
    · cases h
    · rename_i s' hs'
      cases h
      exact ⟨name, name', hload, hformat, hs'⟩

theorem formattedName_zeroFree {op : DirOp} {entryName s : List UInt8}
    (h : formattedName op entryName = .ok (some s)) : 0 ∉ s := by
  obtain ⟨_, _, _, _, hs⟩ := formattedName_buffer h
  exact (cString_eq_some_iff.mp hs).1

theorem formattedName_length {op : DirOp} {entryName s : List UInt8}
    (h : formattedName op entryName = .ok (some s)) : 11 ≤ s.length := by
  obtain ⟨_, _, _, hformat, hs⟩ := formattedName_buffer h
  exact length_of_formatName hformat hs

/-! ## The name of one letter -/

theorem cString_ofString {s : List UInt8} (h0 : 0 ∉ s) (hlen : s.length < 256) :
    cString (NameBuffer.ofString s) = some s := by
  refine cString_of_bytes h0 (fun i hi ↦ ?_) ?_
  · rw [List.getElem?_eq_getElem (by simp; omega), Vector.getElem_toList]
    simp [NameBuffer.ofString, hi]
  · rw [List.getElem?_eq_getElem (by simp; omega), Vector.getElem_toList]
    simp [NameBuffer.ofString]

section Letter

variable {c : UInt8} (hc : isUpper c = true)

include hc

theorem isUpper_bounds : 0x41 ≤ c.toNat ∧ c.toNat ≤ 0x5a := by
  simpa [isUpper, UInt8.le_iff_toNat_le] using hc

theorem toUpper_of_isUpper : toUpper c = c := by
  have hb := isUpper_bounds hc
  rw [toUpper, if_neg]
  simp [isLower, UInt8.le_iff_toNat_le]
  omega

theorem ne_of_isUpper {d : UInt8} (hd : d.toNat < 0x41) : c ≠ d := by
  have hb := isUpper_bounds hc
  rintro rfl
  omega

-- One letter is padded with blanks.
theorem formatName_letter : ∃ name, formatName (NameBuffer.ofString [c]) = .ok (0, name) ∧
    cString name = some (c :: List.replicate 10 0x20) := by
  have h0 : c ≠ 0 := ne_of_isUpper hc (by decide)
  have hdot : c ≠ 0x2e := ne_of_isUpper hc (by decide)
  have hupper : upperString [c] 11 = [c] := by
    simp [upperString, toUpper_of_isUpper hc]
  have hscan : scanName NameScan.start [c] =
      .ok (some ⟨false, 1, 8, (Vector.replicate 11 0x20).set 0 c⟩) := by
    rw [scanName, if_neg (by simp [isAlpha, hc]), if_neg hdot]
    rfl
  refine ⟨(NameBuffer.ofString [c]).overwrite ((Vector.replicate 11 0x20).set 0 c), ?_, ?_⟩
  · have hs : cString (NameBuffer.ofString [c]) = some [c] :=
      cString_ofString (by simpa using h0.symm) (by simp)
    rw [formatName, hs]
    simp only [hupper, hscan, ok_bind]
    rw [if_neg (by simp), if_neg (by simpa using hdot)]
    rfl
  · refine cString_of_bytes ?_ (fun i hi ↦ ?_) ?_
    · simpa using h0.symm
    · have hi' : i < 11 := by simpa using hi
      rw [List.getElem?_eq_getElem (by simp; omega), Vector.getElem_toList, getElem_overwrite _ _ hi',
        Vector.getElem_set]
      cases i with
      | zero => rfl
      | succ i =>
        rw [if_neg (by omega), Vector.getElem_replicate, List.getElem_cons_succ,
          List.getElem_replicate]
    · rw [List.getElem?_eq_getElem (by simp), Vector.getElem_toList]
      simp [NameBuffer.overwrite, NameBuffer.ofString]

theorem formattedName_letter (op : DirOp) :
    formattedName op [c] = .ok (some (c :: List.replicate 10 0x20)) := by
  have hload : loadName op [c] = .ok (NameBuffer.ofString [c]) := by
    cases op with
    | mkdir => rfl
    | create => rfl
  obtain ⟨name, hformat, hs⟩ := formatName_letter hc
  rw [formattedName, hload, ok_bind, hformat, ok_bind]
  simp only [hs]
  rfl

end Letter

end Ext2Fs
