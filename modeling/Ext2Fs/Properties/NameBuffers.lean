import Ext2Fs.Spec.Session
import Ext2Fs.Properties.NameGrammar

/-!
# The buffers of a name

How long a name may be for `ext2_mkdir`, `ext2_create`, `format_name` and `fill_entry` to stay inside
their buffers.
-/

open Reasoning

namespace Ext2Fs

/-- More than eight characters before the first dot, or more than three behind it. -/
def OverLong (s : List UInt8) : Prop :=
  8 < (s.takeWhile (· ≠ 0x2e)).length ∨ 3 < (s.dropWhile (· ≠ 0x2e)).tail.length

/-- `fill_entry` copies `name_len` bytes, and these stay inside `name[11]`. -/
def FillsWithin (str : List UInt8) : Prop :=
  ∀ entry inodeNum, 0 ≤ inodeNum → ∃ entry', fillEntry entry str inodeNum = .ok entry' ∧
    entry'.nameLen.toNat ≤ 11

/-- The name is copied with its terminator and formatted inside the buffers; what is accepted fits
the entry, and what is too long is refused. -/
def NameSafe (op : DirOp) (s : List UInt8) : Prop :=
  ∃ buf r name, loadName op s = .ok buf ∧ cString buf ≠ none ∧ formatName buf = .ok (r, name) ∧
    (r = ext2Success → ∃ str, cString name = some str ∧ FillsWithin str) ∧
    (OverLong s → r = ext2Error ∧ ∀ fs parent, ext2Make op fs parent s = .ok (ext2Error, none, fs))

/-- The names whose buffers are safe. -/
def NameFits (s : List UInt8) : Prop :=
  s.length ≤ 255 ∧
    if s.head? = some 0x2e then s.length ≤ 4 else RunsFit s ∧ ¬ (Regular s ∧ s.length = 12)

instance (s : List UInt8) : Decidable (NameFits s) :=
  inferInstanceAs (Decidable (s.length ≤ 255 ∧ if s.head? = some 0x2e then s.length ≤ 4
    else RunsFit s ∧ ¬ (Regular s ∧ s.length = 12)))

/-! ## Long and short names -/

section Lengths

variable {op : DirOp} {s : List UInt8}

theorem loadName_of_short (op : DirOp) (hlen : s.length < 256) :
    loadName op s = .ok (NameBuffer.ofString s) := by
  cases op with
  | mkdir => rfl
  | create => exact if_pos hlen

-- `strncpy` leaves no terminator behind 256 characters.
theorem cString_ofString_long (h0 : 0 ∉ s) (hlen : 256 ≤ s.length) :
    cString (NameBuffer.ofString s) = none := by
  apply if_neg
  intro hmem
  rcases List.getElem_of_mem hmem with ⟨i, hi, hzero⟩
  rw [Vector.length_toList] at hi
  have hi' : i < s.length := Nat.lt_of_lt_of_le hi hlen
  have hbyte : (NameBuffer.ofString s)[i] = s[i] := by
    simp [NameBuffer.ofString, hi']
  rw [Vector.getElem_toList, hbyte] at hzero
  exact h0 (hzero ▸ List.getElem_mem hi')

theorem not_nameSafe_of_long (h0 : 0 ∉ s) (hlen : 256 ≤ s.length) : ¬ NameSafe op s := by
  intro h
  rcases h with ⟨buf, r, name, hload, hstring, -⟩
  cases op with
  | mkdir =>
    rw [loadName, Except.ok.injEq] at hload
    rw [← hload] at hstring
    exact hstring (cString_ofString_long h0 hlen)
  | create =>
    rw [loadName, if_neg (by omega)] at hload
    cases hload

theorem overLong_dot (hdot : s.head? = some 0x2e) : OverLong s ↔ 4 < s.length := by
  cases s with
  | nil => cases hdot
  | cons c cs =>
    have hc : c = 0x2e := by simpa using hdot
    rw [OverLong, hc, List.takeWhile_cons_of_neg (by decide), List.dropWhile_cons_of_neg (by decide),
      List.tail_cons, List.length_cons, List.length_nil]
    omega

theorem Regular.not_overLong (hs : Regular s) : ¬ OverLong s := by
  have hrun : ∀ c ∈ baseRun s, decide (c ≠ 0x2e) = true :=
    fun c hc ↦ decide_eq_true (ne_dot_of_isNameChar (mem_baseRun c hc))
  rcases hs with ⟨hdone, -, hbase, hext⟩
  rcases scanned_shape hdone with ⟨hshape, -⟩ | hshape
  · rw [OverLong, hshape, List.takeWhile_eq_self_iff.mpr hrun, List.dropWhile_eq_nil_iff.mpr hrun]
    simpa using hbase
  · rw [OverLong, hshape, List.takeWhile_append_of_pos hrun, List.dropWhile_append_of_pos hrun,
      List.takeWhile_cons_of_neg (by decide), List.dropWhile_cons_of_neg (by decide),
      List.append_nil, List.tail_cons]
    omega

theorem fillsWithin_iff (hlo : 11 ≤ s.length) : FillsWithin s ↔ s.length ≤ 11 := by
  constructor
  · intro h
    rcases h Ext2DirEntry.zero 0 (Int.le_refl 0) with ⟨entry, hrun, hle⟩
    rw [fillEntry_eq (Int.le_refl 0) hlo] at hrun
    by_cases hhi : s.length ≤ 24
    · rw [if_pos hhi, Except.ok.injEq] at hrun
      rw [← hrun, filledEntry, UInt16.toNat_ofNat'] at hle
      omega
    · rw [if_neg hhi] at hrun
      cases hrun
  · intro h entry inodeNum hn
    refine ⟨filledEntry entry s (UInt32.ofInt inodeNum), ?_, ?_⟩
    · rw [fillEntry_eq hn hlo, if_pos (by omega)]
    · rw [filledEntry, UInt16.toNat_ofNat']
      omega

end Lengths

/-! ## Safe names -/

section Safe

variable {op : DirOp} {s : List UInt8} (h0 : 0 ∉ s) (hlen : s.length < 256)

include h0 hlen

-- Only the formatting is left to look at.
theorem nameSafe_of_short : NameSafe op s ↔
    ∃ r name, formatName (NameBuffer.ofString s) = .ok (r, name) ∧
      (r = ext2Success → ∃ str, cString name = some str ∧ FillsWithin str) ∧
      (OverLong s → r = ext2Error ∧
        ∀ fs parent, ext2Make op fs parent s = .ok (ext2Error, none, fs)) := by
  have hload := loadName_of_short op hlen
  constructor
  · intro h
    rcases h with ⟨buf, r, name, hbuf, -, hrest⟩
    rw [hload, Except.ok.injEq] at hbuf
    exact ⟨r, name, by rw [hbuf]; exact hrest.1, hrest.2⟩
  · intro h
    rcases h with ⟨r, name, hrest⟩
    refine ⟨_, r, name, hload, ?_, hrest⟩
    rw [cString_ofString h0 hlen]
    exact Option.some_ne_none s

theorem nameSafe_dot (hdot : s.head? = some 0x2e) : NameSafe op s ↔ s.length ≤ 4 := by
  rcases formatName_dots h0 hlen hdot with ⟨src, hfree, hrun, -⟩
  have hover := overLong_dot hdot
  rw [nameSafe_of_short h0 hlen]
  constructor
  · intro h
    rcases h with ⟨r, name, hrun', -, herror⟩
    rw [hrun, Except.ok.injEq, Prod.mk.injEq] at hrun'
    by_contra hlong
    have hr := (herror (hover.mpr (by omega))).1
    rw [← hrun'.1] at hr
    exact absurd hr (by decide)
  · intro h
    refine ⟨_, _, hrun, fun _ ↦ ⟨_, cString_overwrite h0 hlen hfree, ?_⟩,
      fun hlong ↦ absurd (hover.mp hlong) (by omega)⟩
    have hdrop : s.drop 11 = [] := List.drop_eq_nil_of_le (by omega)
    rw [hdrop, List.append_nil, fillsWithin_iff]
    · rw [Vector.length_toList]
    · rw [Vector.length_toList]

-- An over-long name that the scan survives is refused by both callers.
theorem nameSafe_regular (hdot : s.head? ≠ some 0x2e) :
    NameSafe op s ↔ RunsFit s ∧ ¬ (Regular s ∧ s.length = 12) := by
  have hrun := formatName_regular h0 hlen hdot
  have hupper : (upperString s 11).length < 256 := by
    rw [length_upperString]
    exact hlen
  have hstring := cString_overwrite (zero_notMem_upperString h0 11) hupper
    (regularOf_zeroFree (upperString s 11))
  rw [nameSafe_of_short h0 hlen]
  by_cases hfit : RunsFit s
  · rw [if_pos hfit] at hrun
    by_cases hregular : Regular s
    · rw [if_pos hregular] at hrun
      have hcount : (((regularOf (upperString s 11)).toList ++
          (upperString s 11).drop 11)).length = 11 + (s.length - 11) := by
        rw [List.length_append, Vector.length_toList, List.length_drop, length_upperString]
      have hle := hregular.length_le
      constructor
      · intro h
        rcases h with ⟨r, name, hrun', hfill, -⟩
        rw [hrun, Except.ok.injEq, Prod.mk.injEq] at hrun'
        rcases hrun' with ⟨rfl, rfl⟩
        refine ⟨hfit, fun hfull ↦ ?_⟩
        rcases hfill rfl with ⟨str, hstr, hwithin⟩
        rw [hstring, Option.some.injEq] at hstr
        rw [← hstr, fillsWithin_iff (by omega)] at hwithin
        have htwelve := hfull.2
        omega
      · intro h
        have hne : s.length ≠ 12 := fun htwelve ↦ h.2 ⟨hregular, htwelve⟩
        refine ⟨_, _, hrun, fun _ ↦ ⟨_, hstring, ?_⟩,
          fun hlong ↦ absurd hlong hregular.not_overLong⟩
        rw [fillsWithin_iff (by omega)]
        omega
    · rw [if_neg hregular] at hrun
      have hne : ext2Error ≠ ext2Success := by decide
      refine iff_of_true ?_ ⟨hfit, fun hfull ↦ hregular hfull.1⟩
      refine ⟨_, _, hrun, fun h ↦ absurd h hne, fun _ ↦ ⟨rfl, fun fs parent ↦ ?_⟩⟩
      apply ext2Make_rejected
      rw [formattedName, loadName_of_short op hlen, ok_bind, hrun, ok_bind]
      exact if_pos hne
  · rw [if_neg hfit] at hrun
    refine iff_of_false (fun h ↦ ?_) (fun h ↦ hfit h.1)
    rcases h with ⟨r, name, hrun', -⟩
    rw [hrun] at hrun'
    cases hrun'

end Safe

/-- The buffers are safe exactly for the names that fit. -/
theorem nameBuffers_iff {op : DirOp} {s : List UInt8} (h0 : 0 ∉ s) :
    NameSafe op s ↔ NameFits s := by
  unfold NameFits
  by_cases hlen : s.length < 256
  · have hle : s.length ≤ 255 := Nat.le_of_lt_succ hlen
    by_cases hdot : s.head? = some 0x2e
    · rw [if_pos hdot, nameSafe_dot h0 hlen hdot]
      exact (and_iff_right hle).symm
    · rw [if_neg hdot, nameSafe_regular h0 hlen hdot]
      exact (and_iff_right hle).symm
  · exact iff_of_false (not_nameSafe_of_long h0 (by omega)) (fun h ↦ hlen (by omega))

/-- The name `"A.TXT"`. -/
theorem nameBuffers_iff_short : 0 ∉ [(0x41 : UInt8), 0x2e, 0x54, 0x58, 0x54] ∧
    (NameSafe .mkdir [0x41, 0x2e, 0x54, 0x58, 0x54] ↔ NameFits [0x41, 0x2e, 0x54, 0x58, 0x54]) :=
  ⟨by decide, nameBuffers_iff (by decide)⟩

/-- Twelve letters are written behind `regularName`, and a name of 256 letters has no terminator in
the buffer of `ext2_mkdir`. -/
theorem not_nameBuffers :
    (0 ∉ List.replicate 12 (0x41 : UInt8) ∧ ¬ NameSafe .mkdir (List.replicate 12 0x41) ∧
      ¬ NameSafe .create (List.replicate 12 0x41)) ∧
      0 ∉ List.replicate 256 (0x41 : UInt8) ∧ ¬ NameSafe .mkdir (List.replicate 256 0x41) := by
  have h0 : ∀ n, 0 ∉ List.replicate n (0x41 : UInt8) := by
    intro n hmem
    exact absurd (List.eq_of_mem_replicate hmem) (by decide)
  have hbad : ¬ NameFits (List.replicate 12 0x41) := by decide
  refine ⟨⟨h0 12, ?_, ?_⟩, h0 256, ?_⟩
  · exact fun h ↦ hbad ((nameBuffers_iff (h0 12)).mp h)
  · exact fun h ↦ hbad ((nameBuffers_iff (h0 12)).mp h)
  · exact not_nameSafe_of_long (h0 256) (by rw [List.length_replicate])

end Ext2Fs
