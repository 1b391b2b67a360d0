import Ext2Fs.Spec.DirWrites
import Ext2Fs.Model.Ext2Shell
import Ext2Fs.Properties.NameBuffers

/-!
# Displayed names

The name that `ext2_entry_to_shell_entry` makes of a stored entry, against the name that was stored.
-/

open Reasoning

namespace Ext2Fs

/-! ## The property -/

/-- Where the name of an entry comes from: a user, or `ext2_mkdir` and `create_root` themselves. -/
inductive NameSource where
  | typed (s : List UInt8)
  | dot
  | dotdot

/-- In upper case and without a trailing dot, but for the two names that are nothing but dots. -/
def upperName (s : List UInt8) : List UInt8 :=
  if s = dotName ∨ s = dotdotName then s else (withoutDot s).map toUpper

def NameSource.expected : NameSource → List UInt8
  | .typed s => upperName s
  | .dot => dotName
  | .dotdot => dotdotName

/-- An entry that `fill_entry` has filled: with what `format_name` makes of a name, whatever the
entry held before, or with one of the two names of a new directory. -/
inductive Stored : NameSource → Ext2DirEntry → Prop where
  | typed {op : DirOp} {s str : List UInt8} {old entry : Ext2DirEntry} {inodeNum : Int} :
    0 ∉ s → formattedName op s = .ok (some str) → 0 ≤ inodeNum →
    fillEntry old str inodeNum = .ok entry → Stored (.typed s) entry
  | dot {entry : Ext2DirEntry} {inodeNum : Int} : 0 ≤ inodeNum →
    fillEntry Ext2DirEntry.zero dotName inodeNum = .ok entry → Stored .dot entry
  | dotdot {entry : Ext2DirEntry} {inodeNum : Int} : 0 ≤ inodeNum →
    fillEntry Ext2DirEntry.zero dotdotName inodeNum = .ok entry → Stored .dotdot entry

/-- The mode that `ext2_entry_to_shell_entry` looks at. -/
def shownMode (fs : Ext2Filesystem) (stack : StackInode) (entry : Ext2DirEntry) : UInt16 :=
  (ext2FillInode fs InodeVar.uninit entry.inode).iMode.getD stack.iMode

/-- The entry is displayed under the name `s`. -/
def Displays (fs : Ext2Filesystem) (stack : StackInode) (entry : Ext2DirEntry) (s : List UInt8) :
    Prop :=
  ∀ data : EntryData, data.node.entry = entry →
    cString (ext2EntryToShellEntry fs stack data).name = some s

/-- A full name of twelve characters that ends in lower case. -/
def LowerEnd (s : List UInt8) : Prop := s.length = 12 ∧ ∃ c, s.getLast? = some c ∧ isLower c = true

/-- The names that come back as they ought to. -/
def NameSource.Kept : NameSource → Prop
  | .typed s =>
    if s.head? = some 0x2e then s = [0x2e] ∨ s = [0x2e, 0x2e] ∨ s = [0x2e, 0x2e, 0x2e]
    else ¬ LowerEnd s
  | .dot => False
  | .dotdot => False

/-! ## The decoder -/

/-- The string that is shown of the bytes of a name. -/
def shownString (name : Bytes 24) : List UInt8 :=
  let str := myStrncpy [] name.toList 8
  if getElem name 8 extensionByte_lt = 0x20 then str
  else myStrncpy (myStrncpy str [0x2e] 1) (name.toList.drop 8) 3

def isShown (c : UInt8) : Bool := c ≠ 0 ∧ c ≠ 0x20

theorem myStrncpy_eq (dest src : List UInt8) (length : Nat) :
    myStrncpy dest src length = dest ++ (src.take length).takeWhile isShown := by
  rw [myStrncpy, List.take_takeWhile]
  rfl

theorem shownString_eq (name : Bytes 24) : shownString name =
    (name.toList.take 8).takeWhile isShown ++ if getElem name 8 extensionByte_lt = 0x20 then []
      else 0x2e :: ((name.toList.drop 8).take 3).takeWhile isShown := by
  unfold shownString
  simp only [myStrncpy_eq]
  split
  · rw [List.nil_append, List.append_nil]
  · simp [isShown]

theorem shownString_bounds (name : Bytes 24) :
    0 ∉ shownString name ∧ (shownString name).length < 256 := by
  have hzero : ∀ l : List UInt8, 0 ∉ l.takeWhile isShown := by
    intro l hmem
    exact absurd (List.mem_takeWhile_imp hmem) (by decide)
  have hlen : ∀ (l : List UInt8) (n : Nat), ((l.take n).takeWhile isShown).length ≤ n := by
    intro l n
    refine (List.takeWhile_sublist _).length_le.trans ?_
    rw [List.length_take]
    exact Nat.min_le_left _ _
  have h8 := hlen name.toList 8
  have h3 := hlen (name.toList.drop 8) 3
  rw [shownString_eq]
  split
  · rw [List.append_nil]
    exact ⟨hzero _, by omega⟩
  · rw [List.mem_append, List.mem_cons, not_or, not_or, List.length_append, List.length_cons]
    exact ⟨⟨hzero _, by decide, hzero _⟩, by omega⟩

theorem displays_iff {fs : Ext2Filesystem} {stack : StackInode} {entry : Ext2DirEntry}
    {s : List UInt8} (hmode : shownMode fs stack entry ≠ attrVolumeId) :
    Displays fs stack entry s ↔ shownString entry.name = s := by
  have hname : ∀ data : EntryData, data.node.entry = entry →
      cString (ext2EntryToShellEntry fs stack data).name = some (shownString entry.name) := by
    intro data hdata
    have hbounds := shownString_bounds entry.name
    have hshown : (ext2EntryToShellEntry fs stack data).name =
        NameBuffer.ofString (shownString entry.name) := by
      unfold ext2EntryToShellEntry
      rw [hdata]
      exact congrArg NameBuffer.ofString (if_pos hmode)
    rw [hshown, cString_ofString hbounds.1 hbounds.2]
  constructor
  · intro h
    have hdata := h ⟨none, ⟨entry, 0⟩⟩ rfl
    rw [hname _ rfl, Option.some.injEq] at hdata
    exact hdata
  · intro h data hdata
    rw [hname data hdata, h]

-- The decoder takes the padding off.
theorem shownString_padded {name : Bytes 24} {base ext : List UInt8}
    (hname : name.toList.take 11 = padded base ext) (hbase : ∀ c ∈ base, isShown c = true)
    (hext : ∀ c ∈ ext, isShown c = true) (h8 : base.length ≤ 8) (h3 : ext.length ≤ 3) :
    shownString name = joined base ext := by
  have hblanks : ∀ {l : List UInt8}, (∀ c ∈ l, isShown c = true) → ∀ k,
      (l ++ List.replicate k 0x20).takeWhile isShown = l := by
    intro l hl k
    rw [List.takeWhile_append_of_pos hl]
    cases k with
    | zero => rw [List.replicate_zero, List.takeWhile_nil, List.append_nil]
    | succ k => rw [List.replicate_succ, List.takeWhile_cons_of_neg (by decide), List.append_nil]
  have hfirst : name.toList.take 8 = base ++ List.replicate (8 - base.length) 0x20 := by
    have htake : name.toList.take 8 = (name.toList.take 11).take 8 := by
      rw [List.take_take]
      rfl
    rw [htake, hname, padded, List.take_left' (length_pad base h8)]
  have hlast : (name.toList.drop 8).take 3 = ext ++ List.replicate (3 - ext.length) 0x20 := by
    have hdrop : (name.toList.drop 8).take 3 = (name.toList.take 11).drop 8 := List.take_drop
    rw [hdrop, hname, padded, List.drop_left' (length_pad base h8)]
  have hbyte : getElem name 8 extensionByte_lt = ext.getD 0 0x20 := by
    have hget : (name.toList.take 11)[8]? = some (getElem name 8 extensionByte_lt) := by
      rw [List.getElem?_take_of_lt (by decide), List.getElem?_eq_getElem (by simp),
        Vector.getElem_toList]
    rw [hname, getElem?_padded h8 h3 (by decide), if_neg (by decide), Option.some.injEq] at hget
    exact hget.symm
  rw [shownString_eq, hfirst, hlast, hblanks hbase, hblanks hext, hbyte, joined]
  cases ext with
  | nil => rw [List.getD_nil, if_pos rfl, if_pos rfl, List.append_nil]
  | cons c cs =>
    have hc : c ≠ 0x20 := by
      have hshown := hext c List.mem_cons_self
      rw [isShown, decide_eq_true_eq] at hshown
      exact hshown.2
    rw [List.getD_cons_zero, if_neg hc, if_neg (List.cons_ne_nil c cs)]

/-! ## What is stored -/

-- The first eleven characters of a formatted name are what the entry shows.
theorem take_stored {str : List UInt8} {old entry : Ext2DirEntry} {inodeNum : Int}
    (hn : 0 ≤ inodeNum) (hlen : 11 ≤ str.length) (hfill : fillEntry old str inodeNum = .ok entry) :
    entry.name.toList.take 11 = str.take 11 := by
  rw [fillEntry_eq hn hlen] at hfill
  split at hfill
  · rw [Except.ok.injEq] at hfill
    rw [← hfill, filledEntry_name]
    apply List.ext_getElem
    · simp
      omega
    · intro i hi hi'
      have h11 : i < 11 := by
        rw [List.length_take] at hi
        omega
      rw [List.getElem_take, List.getElem_take, Vector.getElem_toList,
        getElem_copyName _ _ (by omega), dif_pos (by omega)]
  · cases hfill

section Formatted

variable {op : DirOp} {s str : List UInt8} (h0 : 0 ∉ s)
  (hname : formattedName op s = .ok (some str))

include h0 hname

theorem formatName_of_formattedName : s.length < 256 ∧
    ∃ name, formatName (NameBuffer.ofString s) = .ok (ext2Success, name) ∧
      cString name = some str := by
  rcases formattedName_buffer hname with ⟨buf, name, hload, hformat, hstr⟩
  have hlen : s.length < 256 := by
    by_contra hlong
    cases op with
    | mkdir =>
      rw [loadName, Except.ok.injEq] at hload
      have hnone := cString_ofString_long h0 (Nat.le_of_not_lt hlong)
      rw [← hload, formatName, hnone] at hformat
      cases hformat
    | create =>
      rw [loadName, if_neg hlong] at hload
      cases hload
  rw [loadName_of_short op hlen, Except.ok.injEq] at hload
  rw [← hload] at hformat
  exact ⟨hlen, name, hformat, hstr⟩

-- The eleven characters in front, and with them what is shown.
theorem take_formattedName :
    (s.take 2 = dotdotName ∧ str.take 11 = padded dotdotName []) ∨
      (s.take 2 ≠ dotdotName ∧ s.head? = some 0x2e ∧ str.take 11 = padded dotName []) ∨
      (s.head? ≠ some 0x2e ∧ Regular s ∧
        str.take 11 = padded (baseRun (upperString s 11)) (extRun (upperString s 11))) := by
  rcases formatName_of_formattedName h0 hname with ⟨hlen, name, hformat, hstr⟩
  have hfront : ∀ {t : List UInt8} {src : Bytes 11}, 0 ∉ t → t.length < 256 → ZeroFree src →
      cString ((NameBuffer.ofString t).overwrite src) = some str → str.take 11 = src.toList := by
    intro t src ht hlent hfree hstring
    rw [cString_overwrite ht hlent hfree, Option.some.injEq] at hstring
    rw [← hstring, List.take_left' (Vector.length_toList)]
  by_cases htwo : s.take 2 = dotdotName
  · rw [formatName_dotdot h0 hlen htwo, Except.ok.injEq, Prod.mk.injEq] at hformat
    rw [← hformat.2] at hstr
    exact Or.inl ⟨htwo, hfront h0 hlen dotdotRegular_zeroFree hstr⟩
  · right
    by_cases hdot : s.head? = some 0x2e
    · have hone : s.take 1 = [0x2e] := by
        cases s with
        | nil => cases hdot
        | cons c cs => simpa using hdot
      rw [formatName_dot h0 hlen htwo hone, Except.ok.injEq, Prod.mk.injEq] at hformat
      rw [← hformat.2] at hstr
      exact Or.inl ⟨htwo, hdot, hfront h0 hlen dotRegular_zeroFree hstr⟩
    · right
      rw [formatName_regular h0 hlen hdot] at hformat
      split at hformat
      · rw [Except.ok.injEq] at hformat
        split at hformat
        · rename_i hregular
          rw [Prod.mk.injEq] at hformat
          rw [← hformat.2] at hstr
          have hupper := (regular_class (map_nameClass_upperString s 11)).mpr hregular
          refine ⟨hdot, hregular, ?_⟩
          rw [hfront (zero_notMem_upperString h0 11) (by rw [length_upperString]; exact hlen)
            (regularOf_zeroFree _) hstr, regularOf_toList hupper.2.2.1 hupper.2.2.2]
        · rw [Prod.mk.injEq] at hformat
          exact absurd hformat.1 (by decide)
      · cases hformat

end Formatted

/-! ## Upper case -/

theorem toUpper_eq_self {c : UInt8} : toUpper c = c ↔ isLower c = false := by
  revert c
  apply forall_char
  decide +kernel

section Regular

variable {s : List UInt8} (hs : Regular s)

include hs

-- A full name ends in a letter or a digit.
theorem Regular.full (hlen : s.length = 12) :
    ∃ t c, s = t ++ [c] ∧ t.length = 11 ∧ c ≠ 0x2e := by
  rcases hs with ⟨hdone, -, hbase, hext⟩
  have hne : s ≠ [] := by
    rintro rfl
    cases hlen
  refine ⟨s.dropLast, s.getLast hne, (List.dropLast_concat_getLast hne).symm, ?_, fun hc ↦ ?_⟩
  · rw [List.length_dropLast, hlen]
  · rcases scanned_shape hdone with ⟨hshape, -⟩ | hshape
    · have hcount := congrArg List.length hshape
      omega
    · have hcount := congrArg List.length hshape
      rw [List.length_append, List.length_cons] at hcount
      have hext' : extRun s ≠ [] := by
        intro hnil
        rw [hnil, List.length_nil] at hcount
        omega
      have hlast := @getLast?_of_dot (baseRun s) (extRun s) hext'
      rw [← hshape, List.getLast?_eq_some_getLast hne, hc] at hlast
      exact getLast?_ne_dot mem_extRun hlast.symm

theorem upper_withoutDot :
    withoutDot (upperString s 11) = (withoutDot s).map toUpper ↔ ¬ LowerEnd s := by
  have hupper := (regular_class (map_nameClass_upperString s 11)).mpr hs
  have hle := hs.length_le
  by_cases hlen : s.length = 12
  · rcases hs.full hlen with ⟨t, c, hshape, ht, hc⟩
    have hconcat : ∀ {l : List UInt8} {d : UInt8}, d ≠ 0x2e → withoutDot (l ++ [d]) = l ++ [d] := by
      intro l d hd
      rw [withoutDot, List.getLast?_concat, if_neg]
      rw [Option.some.injEq]
      exact hd
    have hup : upperString s 11 = t.map toUpper ++ [c] := by
      rw [upperString, hshape, List.take_left' ht, List.drop_left' ht]
    rw [hup, hconcat hc, LowerEnd, hshape, hconcat hc, List.map_append, List.map_cons, List.map_nil,
      List.getLast?_concat]
    constructor
    · intro h hlower
      rcases hlower with ⟨-, d, hd, hlower⟩
      rw [Option.some.injEq] at hd
      have hself := (List.append_inj h rfl).2
      rw [List.cons.injEq, hd] at hself
      rw [toUpper_eq_self.mp hself.1.symm] at hlower
      cases hlower
    · intro h
      have hself : toUpper c = c := by
        rw [toUpper_eq_self, ← Bool.not_eq_true]
        intro hlower
        exact h ⟨hshape ▸ hlen, c, rfl, hlower⟩
      rw [hself]
  · have hshort : s.length ≤ 11 := by omega
    refine iff_of_true ?_ (fun h ↦ hlen h.1)
    rw [withoutDot_regular hupper, withoutDot_regular hs, map_joined, upperString_of_le hshort,
      baseRun_map_toUpper, extRun_map_toUpper]

end Regular

section Dots

variable {s : List UInt8}

-- Only a trailing dot makes the name shorter.
theorem length_of_withoutDot {u : List UInt8} (h : (withoutDot s).map toUpper = u) :
    s.length = u.length ∨ (s.length = u.length + 1 ∧ s.getLast? = some 0x2e) := by
  have hlen := congrArg List.length h
  rw [List.length_map] at hlen
  unfold withoutDot at hlen
  split at hlen
  · rename_i hlast
    cases s with
    | nil => cases hlast
    | cons c cs =>
      rw [List.length_dropLast, List.length_cons] at hlen
      rw [List.length_cons]
      exact Or.inr ⟨by omega, hlast⟩
  · exact Or.inl hlen

theorem upperName_dotdot (htwo : s.take 2 = dotdotName) :
    upperName s = dotdotName ↔ s = dotdotName ∨ s = [0x2e, 0x2e, 0x2e] := by
  obtain ⟨t, rfl⟩ : ∃ t, s = dotdotName ++ t :=
    ⟨s.drop 2, by rw [← htwo, List.take_append_drop]⟩
  constructor
  · intro h
    unfold upperName at h
    split at h
    · exact Or.inl h
    · rcases length_of_withoutDot h with hlen | ⟨hlen, hlast⟩
      · rw [List.length_append] at hlen
        rw [List.length_eq_zero_iff.mp (show t.length = 0 by omega), List.append_nil]
        exact Or.inl rfl
      · rw [List.length_append] at hlen
        rcases List.length_eq_one_iff.mp (show t.length = 1 by omega) with ⟨c, rfl⟩
        rw [List.getLast?_concat, Option.some.injEq] at hlast
        rw [hlast]
        exact Or.inr rfl
  · intro h
    rcases h with h | h
    · rw [h]
      rfl
    · rw [h]
      decide

theorem upperName_dot (htwo : s.take 2 ≠ dotdotName) (hdot : s.head? = some 0x2e) :
    upperName s = dotName ↔ s = dotName := by
  obtain ⟨t, rfl⟩ : ∃ t, s = dotName ++ t := by
    cases s with
    | nil => cases hdot
    | cons c cs =>
      refine ⟨cs, ?_⟩
      rw [List.head?_cons, Option.some.injEq] at hdot
      rw [hdot]
      rfl
  constructor
  · intro h
    unfold upperName at h
    split at h
    · exact h
    · rcases length_of_withoutDot h with hlen | ⟨hlen, hlast⟩
      · rw [List.length_append] at hlen
        rw [List.length_eq_zero_iff.mp (show t.length = 0 by omega), List.append_nil]
      · rw [List.length_append] at hlen
        rcases List.length_eq_one_iff.mp (show t.length = 1 by omega) with ⟨c, rfl⟩
        rw [List.getLast?_concat, Option.some.injEq] at hlast
        rw [hlast] at htwo
        exact absurd rfl htwo
  · intro h
    rw [h]
    rfl

end Dots

theorem isShown_of_isNameChar {c : UInt8} (hc : isNameChar c = true) : isShown c = true := by
  revert hc
  revert c
  apply forall_char
  decide +kernel

/-! ## Names that come back -/

section Kept

variable {op : DirOp} {s str : List UInt8} {old entry : Ext2DirEntry} {inodeNum : Int}

theorem shownString_typed (h0 : 0 ∉ s) (hname : formattedName op s = .ok (some str))
    (hn : 0 ≤ inodeNum) (hfill : fillEntry old str inodeNum = .ok entry) :
    shownString entry.name = upperName s ↔ (NameSource.typed s).Kept := by
  have htake := take_stored hn (formattedName_length hname) hfill
  have hdots : ∀ c ∈ dotdotName, isShown c = true := List.all_eq_true.mp (by decide)
  have hnil : ∀ c ∈ ([] : List UInt8), isShown c = true := fun c hc ↦ absurd hc List.not_mem_nil
  simp only [NameSource.Kept]
  rcases take_formattedName h0 hname with ⟨htwo, hstr⟩ | ⟨htwo, hdot, hstr⟩ | ⟨hdot, hs, hstr⟩
  · have hdot : s.head? = some 0x2e := by
      have hhead : (s.take 2).head? = s.head? := by
        rw [List.head?_take, if_neg (by decide)]
      rw [← hhead, htwo]
      rfl
    have hne : s ≠ dotName := by
      rintro rfl
      exact absurd htwo (by decide)
    rw [hstr] at htake
    rw [if_pos hdot, shownString_padded htake hdots hnil (by decide) (by decide), eq_comm]
    exact (upperName_dotdot htwo).trans (or_iff_right hne).symm
  · rw [hstr] at htake
    rw [if_pos hdot, shownString_padded htake (fun c hc ↦ hdots c (List.mem_cons_of_mem _ hc)) hnil
      (by decide) (by decide), eq_comm]
    refine (upperName_dot htwo hdot).trans (or_iff_left ?_).symm
    intro h
    rcases h with rfl | rfl
    · exact htwo rfl
    · exact htwo rfl
  · have hupper := (regular_class (map_nameClass_upperString s 11)).mpr hs
    have hnames : ¬ (s = dotName ∨ s = dotdotName) := by
      intro h
      rcases h with rfl | rfl
      · exact hdot rfl
      · exact hdot rfl
    rw [hstr] at htake
    rw [if_neg hdot, shownString_padded htake
      (fun c hc ↦ isShown_of_isNameChar (mem_baseRun c hc))
      (fun c hc ↦ isShown_of_isNameChar (mem_extRun c hc)) hupper.2.2.1 hupper.2.2.2,
      upperName, if_neg hnames, ← withoutDot_regular hupper, upper_withoutDot hs]

end Kept

-- The zeros behind the two names are taken for an extension.
theorem shownString_dot (inodeNum : UInt32) :
    shownString (dirEntry inodeNum dotName).name = [0x2e, 0x2e] := by
  have hname : (dirEntry inodeNum dotName).name = copyName (Vector.replicate 24 0) dotName := rfl
  rw [hname]
  decide

theorem shownString_dotdot (inodeNum : UInt32) :
    shownString (dirEntry inodeNum dotdotName).name = [0x2e, 0x2e, 0x2e] := by
  have hname : (dirEntry inodeNum dotdotName).name =
    copyName (Vector.replicate 24 0) dotdotName := rfl
  rw [hname]
  decide

theorem Stored.kept_iff {source : NameSource} {entry : Ext2DirEntry} (h : Stored source entry) :
    shownString entry.name = source.expected ↔ source.Kept := by
  cases h with
  | typed h0 hname hn hfill => exact shownString_typed h0 hname hn hfill
  | dot hn hfill =>
    rw [fillEntry_zero hn (by decide) (by decide), Except.ok.injEq] at hfill
    rw [← hfill, shownString_dot]
    exact iff_of_false (by decide) (fun h ↦ h)
  | dotdot hn hfill =>
    rw [fillEntry_zero hn (by decide) (by decide), Except.ok.injEq] at hfill
    rw [← hfill, shownString_dotdot]
    exact iff_of_false (by decide) (fun h ↦ h)

/-! ## Who stores names -/

section Stores

variable {op : DirOp} {s str : List UInt8}

theorem stored_filledEntry (h0 : 0 ∉ s) (hname : formattedName op s = .ok (some str))
    (hlen : str.length ≤ 24) (old : Ext2DirEntry) (n : Nat) :
    Stored (.typed s) (filledEntry old str (UInt32.ofNat n)) := by
  have hfill : fillEntry old str (n : Int) = .ok (filledEntry old str (UInt32.ofNat n)) := by
    rw [fillEntry_eq (Int.natCast_nonneg n) (formattedName_length hname), if_pos hlen,
      ofInt_natCast]
  exact .typed h0 hname (Int.natCast_nonneg n) hfill

variable {fs fs' : Ext2Filesystem} {parent child : Ext2Node}

theorem makeNamed_entry {r : Int} (h : makeNamed op fs parent str = .ok (r, some child, fs')) :
    ∃ n fs₁, addEntry op fs parent str = .ok (some child.entry, n, fs₁) := by
  cases op with
  | mkdir =>
    unfold makeNamed at h
    rcases bind_eq_ok.mp h with ⟨⟨new, n, fs₁⟩, hadd, h⟩
    cases new with
    | none => cases h
    | some entry =>
      simp only [makeDirectory] at h
      rcases bind_eq_ok.mp h with ⟨p, -, h⟩
      rcases bind_eq_ok.mp h with ⟨sector, -, h⟩
      rcases bind_eq_ok.mp h with ⟨fs₂, -, h⟩
      cases h
      exact ⟨n, fs₁, hadd⟩
  | create =>
    unfold makeNamed at h
    rcases bind_eq_ok.mp h with ⟨⟨new, n, fs₁⟩, hadd, h⟩
    cases new with
    | none => cases h
    | some entry =>
      cases h
      exact ⟨n, _, hadd⟩

-- The node that a call hands back, unless no inode was found for it.
theorem stored_of_make (h0 : 0 ∉ s)
    (hrun : ext2Make op fs parent s = .ok (ext2Success, some child, fs'))
    (hinode : child.entry.inode ≠ 0) : Stored (.typed s) child.entry := by
  rcases ext2Make_formatted hrun with ⟨name, hname⟩
  cases name with
  | none =>
    rw [ext2Make_rejected hname] at hrun
    cases hrun
  | some str =>
    rw [ext2Make_accepted hname] at hrun
    rcases makeNamed_entry hrun with ⟨n, fs₁, hadd⟩
    rcases addEntry_cases hadd with ⟨hnone, -⟩ | ⟨fs₂, entry, -, hfill, hnew⟩
    · cases hnone
    · have hentry : some child.entry = some entry := by
        rcases hnew with ⟨hnone, -⟩ | ⟨hsome, -⟩
        · cases hnone
        · exact hsome
      rw [Option.some.injEq] at hentry
      rw [← hentry] at hfill
      refine .typed h0 hname ?_ hfill
      by_contra hneg
      rw [fillEntry, if_pos (by omega), Except.ok.injEq] at hfill
      apply hinode
      rw [← hfill]
      cases op with
      | mkdir => rfl
      | create => rfl

-- The slot of the root that a call fills.
theorem Makes.stored {k b d : Nat} (h : Makes op fs fs' str k b d) (h0 : 0 ∉ s)
    (hname : formattedName op s = .ok (some str)) (hlen : str.length ≤ 24)
    (hslot : terminator fs.disk < (rootSlots fs.disk).length) :
    ∃ entry, (rootSlots fs'.disk)[terminator fs.disk]? = some entry ∧ Stored (.typed s) entry := by
  have hentry := stored_filledEntry h0 hname hlen (blockSlot fs.disk 36 (terminator fs.disk))
    (nextInode k)
  refine ⟨_, ?_, hentry⟩
  rw [h.slots, List.getElem?_set_self hslot]

end Stores

-- The first entries of a new directory, and those behind the first one of the root.
theorem stored_newDirEntries {self parent : UInt32} :
    Stored .dot (getElem (newDirEntries self parent) 0 firstRecord_lt) ∧
      Stored .dotdot (getElem (newDirEntries self parent) 1 secondRecord_lt) := by
  have hback : ∀ n : UInt32, UInt32.ofInt (n.toNat : Int) = n := fun n ↦ by
    rw [ofInt_natCast, UInt32.ofNat_toNat]
  rw [newDirEntries, getElem_entriesOf _ (by decide), getElem_entriesOf _ (by decide)]
  constructor
  · refine .dot (Int.natCast_nonneg self.toNat) ?_
    rw [fillEntry_zero (Int.natCast_nonneg _) (by decide) (by decide), hback]
    rfl
  · refine .dotdot (Int.natCast_nonneg parent.toNat) ?_
    rw [fillEntry_zero (Int.natCast_nonneg _) (by decide) (by decide), hback]
    rfl

theorem stored_rootEntries : Stored .dot (getElem rootEntries 1 secondRecord_lt) ∧
    Stored .dotdot (getElem rootEntries 2 thirdRecord_lt) := by
  rw [rootEntries, getElem_entriesOf _ (by decide), getElem_entriesOf _ (by decide)]
  constructor
  · exact .dot (show (0 : Int) ≤ 2 by decide) (fillEntry_zero (by decide) (by decide) (by decide))
  · exact .dotdot (show (0 : Int) ≤ 2 by decide)
      (fillEntry_zero (by decide) (by decide) (by decide))

/-! ## Results -/

/-- A stored name is displayed as it ought to be exactly if it is one of those that are kept. -/
theorem displayedNames_iff {fs : Ext2Filesystem} {stack : StackInode} {source : NameSource}
    {entry : Ext2DirEntry} (hstored : Stored source entry)
    (hmode : shownMode fs stack entry ≠ attrVolumeId) :
    Displays fs stack entry source.expected ↔ source.Kept := by
  rw [displays_iff hmode]
  exact hstored.kept_iff

-- Of an inode behind the first four of its table, the mode is what the stack holds.
theorem shownMode_of_ge {fs : Ext2Filesystem} {stack : StackInode} {entry : Ext2DirEntry}
    (hslot : 4 ≤ (entry.inode % inodesPerGroup).toNat) : shownMode fs stack entry = stack.iMode := by
  rw [shownMode, ext2FillInode, inodeEntry_of_slot hslot]
  rfl

/-- `create A` in the root of a fresh file system. -/
theorem displayedNames_iff_letter : ∃ (s : Session) (fs' : Ext2Filesystem),
    ext2Make .create s.fs s.root [0x41] = .ok (ext2Success, some (newNode .create 11 nameA), fs') ∧
    Stored (.typed [0x41]) (newNode .create 11 nameA).entry ∧
    shownMode fs' ⟨0, 0⟩ (newNode .create 11 nameA).entry ≠ attrVolumeId ∧
    (Displays fs' ⟨0, 0⟩ (newNode .create 11 nameA).entry (NameSource.typed [0x41]).expected ↔
      (NameSource.typed [0x41]).Kept) := by
  rcases zeroedDisk_make .create with ⟨s, fs', -, hmake, -⟩
  have hstored := stored_of_make (by decide) hmake (by decide)
  have hmode : shownMode fs' ⟨0, 0⟩ (newNode .create 11 nameA).entry ≠ attrVolumeId := by
    rw [shownMode_of_ge (by decide)]
    decide
  exact ⟨s, fs', hmake, hstored, hmode, displayedNames_iff hstored hmode⟩

/-- The entry for itself of the directory made by `mkdir A` is displayed as `".."`. -/
theorem not_displayedNames : ∃ (s : Session) (fs' : Ext2Filesystem),
    ext2Make .mkdir s.fs s.root [0x41] = .ok (ext2Success, some (newNode .mkdir 11 nameA), fs') ∧
    Stored .dot (getElem (newDirEntries 11 2) 0 firstRecord_lt) ∧
    shownMode fs' ⟨0, 0⟩ (getElem (newDirEntries 11 2) 0 firstRecord_lt) ≠ attrVolumeId ∧
    ¬ Displays fs' ⟨0, 0⟩ (getElem (newDirEntries 11 2) 0 firstRecord_lt) dotName := by
  rcases zeroedDisk_make .mkdir with ⟨s, fs', -, hmake, -⟩
  have hstored := (@stored_newDirEntries 11 2).1
  have hentry : getElem (newDirEntries 11 2) 0 firstRecord_lt = dirEntry 11 dotName := by
    rw [newDirEntries, getElem_entriesOf _ (by decide)]
    rfl
  have hmode : shownMode fs' ⟨0, 0⟩ (dirEntry 11 dotName) ≠ attrVolumeId := by
    rw [shownMode_of_ge (by decide)]
    decide
  rw [hentry] at hstored ⊢
  refine ⟨s, fs', hmake, hstored, hmode, ?_⟩
  rw [displays_iff hmode, shownString_dot]
  decide

end Ext2Fs
