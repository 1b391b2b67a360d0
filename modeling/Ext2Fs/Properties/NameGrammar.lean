import Ext2Fs.Spec.NameGrammar

/-!
# Names and their formatted strings

Which names `format_name` accepts, and which of them it takes for the same.
-/

open Reasoning

namespace Ext2Fs

/-! ## The grammar -/

/-- A name as it is typed: ASCII characters in a buffer of `MAX_NAME_LENGTH` bytes. -/
def Typed (s : List UInt8) : Prop := s.length ≤ 255 ∧ ∀ c ∈ s, 0 < c ∧ c < 128

instance (s : List UInt8) : Decidable (Typed s) :=
  @instDecidableAnd _ _ (Nat.decLe _ _) (List.decidableBAll _ s)

/-- One to eight letters or digits, and perhaps a dot and up to three more. -/
def RegularName (s : List UInt8) : Prop :=
  ∃ base ext : List UInt8, (∀ c ∈ base ++ ext, isNameChar c = true) ∧ 1 ≤ base.length ∧
    base.length ≤ 8 ∧ ext.length ≤ 3 ∧ ((s = base ∧ ext = []) ∨ s = base ++ 0x2e :: ext)

def GrammarName (s : List UInt8) : Prop := s = [0x2e] ∨ s = [0x2e, 0x2e] ∨ RegularName s

/-- Base name and extension in upper case, each padded with blanks. -/
def canonical (s : List UInt8) : List UInt8 :=
  if s.head? = some 0x2e then s ++ List.replicate (11 - s.length) 0x20
  else padded ((baseRun s).map toUpper) ((extRun s).map toUpper)

def withoutDot (s : List UInt8) : List UInt8 := if s.getLast? = some 0x2e then s.dropLast else s

/-- Equal but for case and a trailing dot. -/
def SameName (s t : List UInt8) : Prop := (withoutDot s).map toUpper = (withoutDot t).map toUpper

instance (s t : List UInt8) : Decidable (SameName s t) := inferInstanceAs (Decidable (_ = _))

/-- The name is accepted exactly when it is of the grammar, and then the buffer holds its eleven
characters. -/
def FormatsName (s : List UInt8) : Prop :=
  ∃ r name, formatName (NameBuffer.ofString s) = .ok (r, name) ∧
    (GrammarName s → r = ext2Success) ∧ (¬ GrammarName s → r = ext2Error) ∧
    (r = ext2Success → cString name = some (canonical s) ∧ (canonical s).length = 11)

/-- Accepted names give the same string exactly when they are the same. -/
def SameStrings (s t : List UInt8) : Prop :=
  ∀ name name', formatName (NameBuffer.ofString s) = .ok (ext2Success, name) →
    formatName (NameBuffer.ofString t) = .ok (ext2Success, name') →
      (cString name = cString name' ↔ SameName s t)

/-- What `format_name` does right: no dot starts the name but of `"."` and `".."`, the runs fit the
regular name, and there is a terminator behind the eleventh character. -/
def WellFormatted (s : List UInt8) : Prop :=
  if s.head? = some 0x2e then s = [0x2e] ∨ s = [0x2e, 0x2e]
  else RunsFit s ∧ ¬ (Regular s ∧ s.length = 12)

instance (s : List UInt8) : Decidable (WellFormatted s) :=
  inferInstanceAs (Decidable (if s.head? = some 0x2e then s = [0x2e] ∨ s = [0x2e, 0x2e]
    else RunsFit s ∧ ¬ (Regular s ∧ s.length = 12)))

theorem Typed.zeroFree {s : List UInt8} (h : Typed s) : 0 ∉ s := by
  intro hmem
  exact absurd (h.2 0 hmem).1 (by decide)

/-! ## The runs of a name of the grammar -/

section Runs

variable {base ext : List UInt8} (hbase : ∀ c ∈ base, isNameChar c = true)
  (hext : ∀ c ∈ ext, isNameChar c = true)

include hbase

theorem afterBase_of_run : baseRun base = base ∧ afterBase base = [] :=
  ⟨List.takeWhile_eq_self_iff.mpr hbase, List.dropWhile_eq_nil_iff.mpr hbase⟩

theorem afterBase_of_dot (rest : List UInt8) :
    baseRun (base ++ 0x2e :: rest) = base ∧ afterBase (base ++ 0x2e :: rest) = 0x2e :: rest := by
  unfold baseRun afterBase
  rw [List.takeWhile_append_of_pos hbase, List.dropWhile_append_of_pos hbase,
    List.takeWhile_cons_of_neg (by decide), List.dropWhile_cons_of_neg (by decide),
    List.append_nil]
  exact ⟨rfl, rfl⟩

include hext

theorem runs_of_dot : baseRun (base ++ 0x2e :: ext) = base ∧ extRun (base ++ 0x2e :: ext) = ext ∧
    Scanned (base ++ 0x2e :: ext) := by
  rcases afterBase_of_dot hbase ext with ⟨hrun, hafter⟩
  rcases extRun_of_dot hafter with ⟨hext', hdone⟩
  exact ⟨hrun, hext'.trans (List.takeWhile_eq_self_iff.mpr hext),
    hdone.mpr (List.dropWhile_eq_nil_iff.mpr hext)⟩

end Runs

theorem mem_baseRun {s : List UInt8} : ∀ c ∈ baseRun s, isNameChar c = true :=
  fun _ hc ↦ isNameChar_of_mem_run hc

theorem mem_extRun {s : List UInt8} : ∀ c ∈ extRun s, isNameChar c = true :=
  fun _ hc ↦ isNameChar_of_mem_run hc

theorem regularName_iff {s : List UInt8} : RegularName s ↔ Regular s := by
  constructor
  · intro h
    rcases h with ⟨base, ext, hall, hlo, hhi, hshort, hs⟩
    rw [List.forall_mem_append] at hall
    rcases hs with ⟨rfl, rfl⟩ | rfl
    · rcases afterBase_of_run hall.1 with ⟨hrun, hafter⟩
      rcases extRun_of_end hafter with ⟨hext, hdone⟩
      refine ⟨hdone, ?_, ?_, ?_⟩
      · rwa [hrun]
      · rwa [hrun]
      · rw [hext]
        exact hshort
    · rcases runs_of_dot hall.1 hall.2 with ⟨hrun, hext, hdone⟩
      refine ⟨hdone, ?_, ?_, ?_⟩
      · rwa [hrun]
      · rwa [hrun]
      · rwa [hext]
  · intro h
    rcases h with ⟨hdone, hlo, hhi, hshort⟩
    exact ⟨baseRun s, extRun s, List.forall_mem_append.mpr ⟨mem_baseRun, mem_extRun⟩, hlo, hhi,
      hshort, scanned_shape hdone⟩

theorem not_regular_of_dot {s : List UInt8} (h : s.head? = some 0x2e) : ¬ Regular s := by
  intro hregular
  cases s with
  | nil => cases h
  | cons c cs =>
    have hc : c = 0x2e := by simpa using h
    have hrun : baseRun (c :: cs) = [] := by
      rw [baseRun, hc, List.takeWhile_cons_of_neg (by decide)]
    have hlo := hregular.2.1
    rw [hrun] at hlo
    exact absurd hlo (by decide)

theorem grammarName_regular {s : List UInt8} (h : s.head? ≠ some 0x2e) :
    GrammarName s ↔ Regular s := by
  rw [GrammarName, regularName_iff]
  constructor
  · intro hs
    rcases hs with rfl | rfl | hs
    · exact absurd rfl h
    · exact absurd rfl h
    · exact hs
  · exact fun hs ↦ Or.inr (Or.inr hs)

theorem grammarName_dot {s : List UInt8} (h : s.head? = some 0x2e) :
    GrammarName s ↔ s = [0x2e] ∨ s = [0x2e, 0x2e] := by
  rw [GrammarName, regularName_iff]
  have hs := not_regular_of_dot h
  simp [hs]

/-! ## One name -/

section One

variable {s : List UInt8}

-- Names that start with a dot are accepted, whatever follows.
theorem formatName_dots (h0 : 0 ∉ s) (hlen : s.length < 256) (hdot : s.head? = some 0x2e) :
    ∃ src : Bytes 11, ZeroFree src ∧ formatName (NameBuffer.ofString s) =
      .ok (ext2Success, (NameBuffer.ofString s).overwrite src) ∧
      (s = [0x2e] ∨ s = [0x2e, 0x2e] → src.toList = canonical s) := by
  by_cases htwo : s.take 2 = [0x2e, 0x2e]
  · refine ⟨dotdotRegular, dotdotRegular_zeroFree, formatName_dotdot h0 hlen htwo, fun hs ↦ ?_⟩
    rcases hs with rfl | rfl
    · exact absurd htwo (by decide)
    · decide
  · have hone : s.take 1 = [0x2e] := by
      cases s with
      | nil => cases hdot
      | cons c cs => simpa using hdot
    refine ⟨dotRegular, dotRegular_zeroFree, formatName_dot h0 hlen htwo hone, fun hs ↦ ?_⟩
    rcases hs with rfl | rfl
    · decide
    · exact absurd rfl htwo

-- A regular name of at most eleven characters.
theorem cString_regular (h0 : 0 ∉ s) (hs : Regular s) (hlen : s.length ≤ 11)
    (hdot : s.head? ≠ some 0x2e) :
    cString ((NameBuffer.ofString (upperString s 11)).overwrite (regularOf (upperString s 11))) =
      some (canonical s) := by
  rcases hs with ⟨-, -, hbase, hext⟩
  have hupper := upperString_of_le hlen
  rw [cString_overwrite (zero_notMem_upperString h0 11) (by rw [length_upperString]; omega)
    (regularOf_zeroFree _), drop_upperString, List.drop_eq_nil_of_le hlen, List.append_nil, hupper,
    regularOf_toList, baseRun_map_toUpper, extRun_map_toUpper, canonical, if_neg hdot]
  · rw [baseRun_map_toUpper, List.length_map]
    exact hbase
  · rw [extRun_map_toUpper, List.length_map]
    exact hext

theorem length_canonical (hs : GrammarName s) : (canonical s).length = 11 := by
  by_cases hdot : s.head? = some 0x2e
  · rcases (grammarName_dot hdot).mp hs with rfl | rfl
    · rfl
    · rfl
  · rcases (grammarName_regular hdot).mp hs with ⟨-, -, hbase, hext⟩
    rw [canonical, if_neg hdot, length_padded]
    · rw [List.length_map]
      exact hbase
    · rw [List.length_map]
      exact hext

theorem formatsName_iff (hs : Typed s) : FormatsName s ↔ WellFormatted s := by
  have h0 := hs.zeroFree
  have hlen : s.length < 256 := Nat.lt_succ_of_le hs.1
  have hne : ext2Success ≠ ext2Error := by decide
  unfold WellFormatted
  by_cases hdot : s.head? = some 0x2e
  · rcases formatName_dots h0 hlen hdot with ⟨src, hfree, hrun, hsrc⟩
    rw [if_pos hdot, ← grammarName_dot hdot]
    constructor
    · intro h
      rcases h with ⟨r, name, hrun', -, hbad, -⟩
      rw [hrun, Except.ok.injEq, Prod.mk.injEq] at hrun'
      by_contra hgrammar
      exact hne (hrun'.1.trans (hbad hgrammar))
    · intro hgrammar
      refine ⟨_, _, hrun, fun _ ↦ rfl, fun h ↦ absurd hgrammar h, fun _ ↦ ⟨?_, ?_⟩⟩
      · have hnames := (grammarName_dot hdot).mp hgrammar
        have hshort : s.length ≤ 11 := by
          rcases hnames with rfl | rfl
          · decide
          · decide
        rw [cString_overwrite h0 hlen hfree, hsrc hnames, List.drop_eq_nil_of_le hshort,
          List.append_nil]
      · exact length_canonical hgrammar
  · have hrun := formatName_regular h0 hlen hdot
    rw [if_neg hdot]
    by_cases hfit : RunsFit s
    · rw [if_pos hfit] at hrun
      by_cases hregular : Regular s
      · rw [if_pos hregular] at hrun
        have hgrammar := (grammarName_regular hdot).mpr hregular
        constructor
        · intro h
          rcases h with ⟨r, name, hrun', -, -, hstring⟩
          rw [hrun, Except.ok.injEq, Prod.mk.injEq] at hrun'
          rcases hrun' with ⟨rfl, rfl⟩
          refine ⟨hfit, fun hfull ↦ ?_⟩
          -- the twelfth character is left behind the other eleven
          rcases hstring rfl with ⟨hcanonical, heleven⟩
          rw [cString_overwrite (zero_notMem_upperString h0 11) (by rw [length_upperString]; omega)
            (regularOf_zeroFree _), drop_upperString, Option.some.injEq] at hcanonical
          rw [← hcanonical, List.length_append, Vector.length_toList, List.length_drop,
            hfull.2] at heleven
          exact absurd heleven (by decide)
        · intro h
          have hle := hregular.length_le
          have hne12 : s.length ≠ 12 := fun h12 ↦ h.2 ⟨hregular, h12⟩
          exact ⟨_, _, hrun, fun _ ↦ rfl, fun hbad ↦ absurd hgrammar hbad,
            fun _ ↦ ⟨cString_regular h0 hregular (by omega) hdot, length_canonical hgrammar⟩⟩
      · rw [if_neg hregular] at hrun
        have hgrammar : ¬ GrammarName s := fun h ↦ hregular ((grammarName_regular hdot).mp h)
        refine iff_of_true ?_ ⟨hfit, fun hfull ↦ hregular hfull.1⟩
        exact ⟨_, _, hrun, fun h ↦ absurd h hgrammar, fun _ ↦ rfl,
          fun h ↦ absurd h.symm hne⟩
    · rw [if_neg hfit] at hrun
      refine iff_of_false (fun h ↦ ?_) (fun h ↦ hfit h.1)
      rcases h with ⟨r, name, hrun', -⟩
      rw [hrun] at hrun'
      cases hrun'

end One

/-! ## Two names -/

section Padding

variable {base ext base' ext' : List UInt8} (hbase : ∀ c ∈ base, isNameChar c = true)
  (hext : ∀ c ∈ ext, isNameChar c = true)

theorem takeWhile_blanks {l : List UInt8} (hl : ∀ c ∈ l, isNameChar c = true) (k : Nat) :
    (l ++ List.replicate k 0x20).takeWhile isNameChar = l := by
  rw [List.takeWhile_append_of_pos hl]
  cases k with
  | zero => rw [List.replicate_zero, List.takeWhile_nil, List.append_nil]
  | succ k =>
    rw [List.replicate_succ, List.takeWhile_cons_of_neg (by decide), List.append_nil]

-- Blanks are no name characters, so that the padding can be taken off again.
theorem pad_inj {l m : List UInt8} (hl : ∀ c ∈ l, isNameChar c = true)
    (hm : ∀ c ∈ m, isNameChar c = true) {i k : Nat}
    (h : l ++ List.replicate i 0x20 = m ++ List.replicate k 0x20) : l = m := by
  rw [← takeWhile_blanks hl i, h, takeWhile_blanks hm]

include hbase hext

theorem padded_inj (hbase' : ∀ c ∈ base', isNameChar c = true)
    (hext' : ∀ c ∈ ext', isNameChar c = true) (hlen : base.length ≤ 8) (hlen' : base'.length ≤ 8) :
    padded base ext = padded base' ext' ↔ base = base' ∧ ext = ext' := by
  constructor
  · intro h
    have hparts := List.append_inj h (by rw [length_pad base hlen, length_pad base' hlen'])
    exact ⟨pad_inj hbase hbase' hparts.1, pad_inj hext hext' hparts.2⟩
  · rintro ⟨rfl, rfl⟩
    rfl

end Padding

/-- A regular name without a trailing dot. -/
def joined (base ext : List UInt8) : List UInt8 :=
  if ext = [] then base else base ++ 0x2e :: ext

theorem joined_inj {base ext base' ext' : List UInt8} (hbase : ∀ c ∈ base, isNameChar c = true)
    (hext : ∀ c ∈ ext, isNameChar c = true) (hbase' : ∀ c ∈ base', isNameChar c = true)
    (hext' : ∀ c ∈ ext', isNameChar c = true) :
    joined base ext = joined base' ext' ↔ base = base' ∧ ext = ext' := by
  have hruns : ∀ {b e : List UInt8}, (∀ c ∈ b, isNameChar c = true) →
      (∀ c ∈ e, isNameChar c = true) →
      baseRun (joined b e) = b ∧ extRun (joined b e) = e := by
    intro b e hb he
    unfold joined
    split
    · rename_i hnil
      rw [hnil]
      rcases afterBase_of_run hb with ⟨hrun, hafter⟩
      exact ⟨hrun, (extRun_of_end hafter).1⟩
    · exact ⟨(runs_of_dot hb he).1, (runs_of_dot hb he).2.1⟩
  constructor
  · intro h
    have hleft := hruns hbase hext
    have hright := hruns hbase' hext'
    rw [h] at hleft
    exact ⟨hleft.1.symm.trans hright.1, hleft.2.symm.trans hright.2⟩
  · rintro ⟨rfl, rfl⟩
    rfl

theorem toUpper_dot : toUpper 0x2e = 0x2e := by decide

section Regular

variable {s t : List UInt8}

theorem getLast?_ne_dot {l : List UInt8} (hl : ∀ c ∈ l, isNameChar c = true) :
    l.getLast? ≠ some 0x2e := by
  intro h
  exact ne_dot_of_isNameChar (hl _ (List.mem_of_getLast? h)) rfl

theorem getLast?_of_dot {base ext : List UInt8} (hext : ext ≠ []) :
    (base ++ 0x2e :: ext).getLast? = ext.getLast? := by
  rw [List.getLast?_append, List.getLast?_cons_of_ne_nil hext, List.getLast?_eq_some_getLast hext,
    Option.some_or]

theorem withoutDot_regular (hs : Regular s) : withoutDot s = joined (baseRun s) (extRun s) := by
  unfold withoutDot joined
  rcases scanned_shape hs.1 with ⟨hshape, hext⟩ | hshape
  · rw [if_pos hext, if_neg]
    · exact hshape
    · rw [hshape]
      exact getLast?_ne_dot mem_baseRun
  · by_cases hext : extRun s = []
    · rw [if_pos hext, if_pos]
      · rw [hext] at hshape
        conv => lhs; rw [hshape]
        rw [List.dropLast_concat]
      · rw [hext] at hshape
        rw [hshape, List.getLast?_concat]
    · rw [if_neg hext, if_neg]
      · exact hshape
      · rw [hshape, getLast?_of_dot hext]
        exact getLast?_ne_dot mem_extRun

theorem map_joined (base ext : List UInt8) :
    (joined base ext).map toUpper = joined (base.map toUpper) (ext.map toUpper) := by
  unfold joined
  by_cases hext : ext = []
  · rw [if_pos hext, hext, List.map_nil, if_pos rfl]
  · rw [if_neg hext, if_neg (fun h ↦ hext (List.map_eq_nil_iff.mp h)), List.map_append,
      List.map_cons, toUpper_dot]

theorem mem_map_toUpper {l : List UInt8} (hl : ∀ c ∈ l, isNameChar c = true) :
    ∀ c ∈ l.map toUpper, isNameChar c = true := by
  intro c hc
  rcases List.mem_map.mp hc with ⟨d, hd, rfl⟩
  rw [isNameChar_toUpper]
  exact hl d hd

-- The formatted string and the name without its dot carry the same two runs.
theorem canonical_eq_iff_regular (hs : Regular s) (ht : Regular t) (hdots : s.head? ≠ some 0x2e)
    (hdott : t.head? ≠ some 0x2e) : canonical s = canonical t ↔ SameName s t := by
  have hsb := mem_map_toUpper (mem_baseRun (s := s))
  have hse := mem_map_toUpper (mem_extRun (s := s))
  have htb := mem_map_toUpper (mem_baseRun (s := t))
  have hte := mem_map_toUpper (mem_extRun (s := t))
  rw [canonical, if_neg hdots, canonical, if_neg hdott, SameName, withoutDot_regular hs,
    withoutDot_regular ht, map_joined, map_joined, joined_inj hsb hse htb hte,
    padded_inj hsb hse htb hte]
  · rw [List.length_map]
    exact hs.2.2.1
  · rw [List.length_map]
    exact ht.2.2.1

-- A regular name starts with a letter or a digit.
theorem Regular.head (hs : Regular s) : ∃ c cs, s = c :: cs ∧ isNameChar c = true := by
  cases s with
  | nil => exact absurd hs.2.1 (by decide)
  | cons c cs =>
    refine ⟨c, cs, rfl, ?_⟩
    by_contra hc
    have hlo := hs.2.1
    rw [baseRun, List.takeWhile_cons_of_neg hc] at hlo
    exact absurd hlo (by decide)

theorem canonical_ne_dot (hs : Regular s) (hdots : s.head? ≠ some 0x2e) :
    (canonical s).head? ≠ some 0x2e := by
  intro h
  have hb := mem_map_toUpper (mem_baseRun (s := s))
  rw [canonical, if_neg hdots] at h
  cases hrun : (baseRun s).map toUpper with
  | nil =>
    have hlo := hs.2.1
    rw [List.map_eq_nil_iff.mp hrun] at hlo
    exact absurd hlo (by decide)
  | cons c cs =>
    rw [hrun] at h hb
    have hc : c = 0x2e := by simpa [padded] using h
    exact ne_dot_of_isNameChar (hb c List.mem_cons_self) hc

theorem sameName_ne_dot (hs : Regular s) (ht : t = [0x2e] ∨ t = [0x2e, 0x2e]) :
    ¬ SameName s t := by
  intro h
  rcases hs.head with ⟨c, cs, hshape, hc⟩
  have hupper := (isNameChar_toUpper c).trans hc
  have hrun : baseRun s ≠ [] := by
    intro hnil
    have hlo := hs.2.1
    rw [hnil] at hlo
    exact absurd hlo (by decide)
  unfold SameName at h
  rw [withoutDot_regular hs, map_joined] at h
  have hhead : ∀ c ∈ (joined ((baseRun s).map toUpper) ((extRun s).map toUpper)).head?,
      isNameChar c = true := by
    intro d hd
    have hb := mem_map_toUpper (mem_baseRun (s := s))
    cases hbase : (baseRun s).map toUpper with
    | nil => exact absurd (List.map_eq_nil_iff.mp hbase) hrun
    | cons e es =>
      rw [hbase] at hd hb
      have hde : e = d := by
        unfold joined at hd
        split at hd
        · simpa using hd
        · simpa using hd
      rw [← hde]
      exact hb e List.mem_cons_self
  have hne : joined ((baseRun s).map toUpper) ((extRun s).map toUpper) ≠ [] := by
    unfold joined
    split
    · exact fun hnil ↦ hrun (List.map_eq_nil_iff.mp hnil)
    · simp
  rcases ht with rfl | rfl
  · exact hne h
  · rw [h] at hhead
    exact absurd (hhead 0x2e rfl) (by decide)

theorem canonical_of_dot (hs : s = [0x2e] ∨ s = [0x2e, 0x2e]) :
    (canonical s).head? = some 0x2e ∧ s.head? = some 0x2e := by
  rcases hs with rfl | rfl
  · decide
  · decide

theorem SameName.symm (h : SameName s t) : SameName t s := Eq.symm h

-- Over the grammar, the formatted string is as fine as the names are.
theorem canonical_eq_iff (hs : GrammarName s) (ht : GrammarName t) :
    canonical s = canonical t ↔ SameName s t := by
  by_cases hdots : s.head? = some 0x2e
  · have hnames := (grammarName_dot hdots).mp hs
    by_cases hdott : t.head? = some 0x2e
    · rcases hnames with rfl | rfl
      · rcases (grammarName_dot hdott).mp ht with rfl | rfl
        · decide
        · decide
      · rcases (grammarName_dot hdott).mp ht with rfl | rfl
        · decide
        · decide
    · have hregular := (grammarName_regular hdott).mp ht
      refine iff_of_false (fun h ↦ ?_) (fun h ↦ sameName_ne_dot hregular hnames h.symm)
      apply canonical_ne_dot hregular hdott
      rw [← h]
      exact (canonical_of_dot hnames).1
  · have hregular := (grammarName_regular hdots).mp hs
    by_cases hdott : t.head? = some 0x2e
    · have hnames := (grammarName_dot hdott).mp ht
      refine iff_of_false (fun h ↦ ?_) (sameName_ne_dot hregular hnames)
      apply canonical_ne_dot hregular hdots
      rw [h]
      exact (canonical_of_dot hnames).1
    · exact canonical_eq_iff_regular hregular ((grammarName_regular hdott).mp ht) hdots hdott

end Regular

theorem FormatsName.of_success {s : List UInt8} {name : NameBuffer} (h : FormatsName s)
    (hrun : formatName (NameBuffer.ofString s) = .ok (ext2Success, name)) :
    GrammarName s ∧ cString name = some (canonical s) := by
  rcases h with ⟨r, name', hrun', -, hbad, hstring⟩
  rw [hrun, Except.ok.injEq, Prod.mk.injEq] at hrun'
  rcases hrun' with ⟨rfl, rfl⟩
  refine ⟨?_, (hstring rfl).1⟩
  by_contra hgrammar
  exact absurd (hbad hgrammar) (by decide)

theorem sameStrings {s t : List UInt8} (hs : FormatsName s) (ht : FormatsName t) :
    SameStrings s t := by
  intro name name' hrun hrun'
  rcases hs.of_success hrun with ⟨hsgrammar, hsstring⟩
  rcases ht.of_success hrun' with ⟨htgrammar, htstring⟩
  rw [hsstring, htstring, Option.some.injEq]
  exact canonical_eq_iff hsgrammar htgrammar

/-- Two names are accepted and formatted as they ought to be exactly if each is well formatted. -/
theorem nameGrammar_iff {s t : List UInt8} (hs : Typed s) (ht : Typed t) :
    FormatsName s ∧ FormatsName t ∧ SameStrings s t ↔ WellFormatted s ∧ WellFormatted t := by
  constructor
  · intro h
    exact ⟨(formatsName_iff hs).mp h.1, (formatsName_iff ht).mp h.2.1⟩
  · intro h
    have hformats := (formatsName_iff hs).mpr h.1
    have hformatt := (formatsName_iff ht).mpr h.2
    exact ⟨hformats, hformatt, sameStrings hformats hformatt⟩

/-- The names `"a.txt"` and `"A.TXT"`. -/
theorem nameGrammar_iff_upperCase :
    Typed [0x61, 0x2e, 0x74, 0x78, 0x74] ∧ Typed [0x41, 0x2e, 0x54, 0x58, 0x54] ∧
      (FormatsName [0x61, 0x2e, 0x74, 0x78, 0x74] ∧ FormatsName [0x41, 0x2e, 0x54, 0x58, 0x54] ∧
        SameStrings [0x61, 0x2e, 0x74, 0x78, 0x74] [0x41, 0x2e, 0x54, 0x58, 0x54] ↔
        WellFormatted [0x61, 0x2e, 0x74, 0x78, 0x74] ∧
          WellFormatted [0x41, 0x2e, 0x54, 0x58, 0x54]) :=
  ⟨by decide, by decide, nameGrammar_iff (by decide) (by decide)⟩

/-- `".A"` is accepted, and `"ABCDEFGH.TXT"` keeps its last character behind the eleven. -/
theorem not_nameGrammar :
    (Typed [0x2e, 0x41] ∧ ¬ FormatsName [0x2e, 0x41]) ∧
      Typed [0x41, 0x42, 0x43, 0x44, 0x45, 0x46, 0x47, 0x48, 0x2e, 0x54, 0x58, 0x54] ∧
      ¬ FormatsName [0x41, 0x42, 0x43, 0x44, 0x45, 0x46, 0x47, 0x48, 0x2e, 0x54, 0x58, 0x54] :=
  ⟨⟨by decide, fun h ↦ absurd ((formatsName_iff (by decide)).mp h) (by decide)⟩, by decide,
    fun h ↦ absurd ((formatsName_iff (by decide)).mp h) (by decide)⟩

end Ext2Fs
