import Mathlib.Data.List.GetD
import Ext2Fs.Spec.Names

/-!
# The scan of a name

`format_name` reads a run of letters and digits, then perhaps a dot and another run.  Both runs are
copied before their lengths are looked at.
-/

open Reasoning

namespace Ext2Fs

/-! ## The runs of a name -/

def isNameChar (c : UInt8) : Bool := isDigit c || isAlpha c

/-- The letters and digits that a name starts with. -/
def baseRun (s : List UInt8) : List UInt8 := s.takeWhile isNameChar

def afterBase (s : List UInt8) : List UInt8 := s.dropWhile isNameChar

/-- What follows the dot that ends the first run. -/
def afterDot (s : List UInt8) : List UInt8 :=
  if (afterBase s).head? = some 0x2e then (afterBase s).tail else []

/-- The letters and digits behind that dot. -/
def extRun (s : List UInt8) : List UInt8 := (afterDot s).takeWhile isNameChar

/-- The scan meets nothing that it rejects. -/
def Scanned (s : List UInt8) : Prop :=
  afterBase s = [] ∨
    ((afterBase s).head? = some 0x2e ∧ (afterDot s).dropWhile isNameChar = [])

instance (s : List UInt8) : Decidable (Scanned s) :=
  inferInstanceAs (Decidable (_ ∨ _))

theorem base_append (s : List UInt8) : baseRun s ++ afterBase s = s :=
  List.takeWhile_append_dropWhile

theorem isNameChar_of_mem_run {l : List UInt8} {c : UInt8} (hc : c ∈ l.takeWhile isNameChar) :
    isNameChar c = true := List.mem_takeWhile_imp hc

theorem isNameChar_head {l t : List UInt8} {c : UInt8} (h : l.dropWhile isNameChar = c :: t) :
    isNameChar c = false := by
  have hhead := List.head?_dropWhile_not isNameChar l
  rw [h] at hhead
  exact hhead

theorem ne_dot_of_isNameChar {c : UInt8} (hc : isNameChar c = true) : c ≠ 0x2e := by
  rintro rfl
  exact absurd hc (by decide)

/-! ### Upper case -/

/-- All that the scan asks of a character. -/
def nameClass (c : UInt8) : Bool × Bool := (isNameChar c, decide (c = 0x2e))

-- A property of every character is a finite check.
theorem forall_char {P : UInt8 → Prop} (h : ∀ k, k < 256 → P (UInt8.ofNat k)) (c : UInt8) :
    P c := by
  have hc := h c.toNat c.toNat_lt
  rwa [UInt8.ofNat_toNat] at hc

theorem nameClass_toUpper (c : UInt8) : nameClass (toUpper c) = nameClass c := by
  revert c
  apply forall_char
  decide +kernel

theorem isNameChar_toUpper (c : UInt8) : isNameChar (toUpper c) = isNameChar c :=
  congrArg Prod.fst (nameClass_toUpper c)

theorem map_nameClass_upperString (s : List UInt8) (length : Nat) :
    (upperString s length).map nameClass = s.map nameClass := by
  unfold upperString
  rw [List.map_append, List.map_map]
  have hclass : nameClass ∘ toUpper = nameClass := funext nameClass_toUpper
  rw [hclass, ← List.map_append, List.take_append_drop]

-- Names of the same classes have runs of the same lengths.
section Classes

variable {s t : List UInt8} (h : s.map nameClass = t.map nameClass)

theorem map_takeWhile_nameClass (l : List UInt8) :
    (l.takeWhile isNameChar).map nameClass = (l.map nameClass).takeWhile Prod.fst := by
  rw [List.takeWhile_map]
  rfl

theorem map_dropWhile_nameClass (l : List UInt8) :
    (l.dropWhile isNameChar).map nameClass = (l.map nameClass).dropWhile Prod.fst := by
  rw [List.dropWhile_map]
  rfl

theorem eq_dot_of_nameClass {c d : UInt8} (hclass : nameClass c = nameClass d) :
    c = 0x2e ↔ d = 0x2e := decide_eq_decide.mp (congrArg Prod.snd hclass)

include h

theorem baseRun_class : (baseRun s).map nameClass = (baseRun t).map nameClass := by
  unfold baseRun
  rw [map_takeWhile_nameClass, map_takeWhile_nameClass, h]

theorem afterBase_class : (afterBase s).map nameClass = (afterBase t).map nameClass := by
  unfold afterBase
  rw [map_dropWhile_nameClass, map_dropWhile_nameClass, h]

theorem head_dot_class :
    (afterBase s).head? = some 0x2e ↔ (afterBase t).head? = some 0x2e := by
  have hafter := afterBase_class h
  cases hs : afterBase s with
  | nil =>
    rw [hs, List.map_nil, eq_comm, List.map_eq_nil_iff] at hafter
    rw [hafter]
  | cons c cs =>
    cases ht : afterBase t with
    | nil =>
      rw [hs, ht] at hafter
      cases hafter
    | cons d ds =>
      rw [hs, ht, List.map_cons, List.map_cons, List.cons.injEq] at hafter
      simpa using eq_dot_of_nameClass hafter.1

theorem afterDot_class : (afterDot s).map nameClass = (afterDot t).map nameClass := by
  have hhead := head_dot_class h
  unfold afterDot
  by_cases hs : (afterBase s).head? = some 0x2e
  · rw [if_pos hs, if_pos (hhead.mp hs), List.map_tail, List.map_tail, afterBase_class h]
  · rw [if_neg hs, if_neg (fun ht ↦ hs (hhead.mpr ht))]

theorem baseRun_length_class : (baseRun s).length = (baseRun t).length := by
  simpa using congrArg List.length (baseRun_class h)

theorem extRun_length_class : (extRun s).length = (extRun t).length := by
  have hdot := afterDot_class h
  have hrun : (extRun s).map nameClass = (extRun t).map nameClass := by
    unfold extRun
    rw [map_takeWhile_nameClass, map_takeWhile_nameClass, hdot]
  simpa using congrArg List.length hrun

theorem scanned_class : Scanned s ↔ Scanned t := by
  have hnil : ∀ {l m : List UInt8}, l.map nameClass = m.map nameClass → (l = [] ↔ m = []) := by
    intro l m hlm
    rw [← List.map_eq_nil_iff (f := nameClass), hlm, List.map_eq_nil_iff]
  have hrest : ((afterDot s).dropWhile isNameChar).map nameClass =
      ((afterDot t).dropWhile isNameChar).map nameClass := by
    rw [map_dropWhile_nameClass, map_dropWhile_nameClass, afterDot_class h]
  unfold Scanned
  rw [hnil (afterBase_class h), head_dot_class h, hnil hrest]

end Classes

/-! ## The scan -/

/-- The run copied into the regular name from position `k` on. -/
def storeRun (regularName : Bytes 11) (k : Nat) (run : List UInt8) : Bytes 11 :=
  Vector.ofFn fun i ↦
    if k ≤ i.val then run.getD (i.val - k) regularName[i.val] else regularName[i.val]

theorem getElem_storeRun (regularName : Bytes 11) (k : Nat) (run : List UInt8) {i : Nat}
    (hi : i < 11) : (storeRun regularName k run)[i] =
      if k ≤ i then run.getD (i - k) regularName[i] else regularName[i] := by
  simp [storeRun]

theorem storeRun_nil (regularName : Bytes 11) (k : Nat) : storeRun regularName k [] = regularName := by
  apply Vector.ext
  intro i hi
  rw [getElem_storeRun _ _ _ hi, List.getD_nil, ite_self]

theorem storeRun_cons (regularName : Bytes 11) {k : Nat} (hk : k < 11) (c : UInt8)
    (cs : List UInt8) :
    storeRun (regularName.set k c) (k + 1) cs = storeRun regularName k (c :: cs) := by
  apply Vector.ext
  intro i hi
  rw [getElem_storeRun _ _ _ hi, getElem_storeRun _ _ _ hi, Vector.getElem_set]
  by_cases hlt : i < k
  · rw [if_neg (by omega), if_neg (by omega), if_neg (by omega)]
  · by_cases heq : k = i
    · subst heq
      rw [if_neg (by omega), if_pos rfl, if_pos (Nat.le_refl k), Nat.sub_self, List.getD_cons_zero]
    · obtain ⟨m, rfl⟩ : ∃ m, i = k + 1 + m := ⟨i - (k + 1), by omega⟩
      rw [if_pos (by omega), if_neg heq, if_pos (by omega), show k + 1 + m - k = m + 1 by omega,
        List.getD_cons_succ, Nat.add_sub_cancel_left]

section Scan

variable {st : NameScan} {c : UInt8} {cs rest : List UInt8}

theorem scanName_stop (hc : isNameChar c = false) (hdot : c ≠ 0x2e) :
    scanName st (c :: cs) = .ok none := by
  have hclass : ¬ isDigit c = true ∧ ¬ isAlpha c = true := by
    simpa [isNameChar] using hc
  rw [scanName, if_pos ⟨hdot, hclass⟩]

theorem not_rejected (hc : isNameChar c = true) :
    ¬ (c ≠ 0x2e ∧ ¬ isDigit c = true ∧ ¬ isAlpha c = true) := by
  intro h
  rw [isNameChar, Bool.or_eq_true] at hc
  rcases hc with hdigit | halpha
  · exact h.2.1 hdigit
  · exact h.2.2 halpha

theorem scanName_dot (hst : st.extender = false) :
    scanName st (0x2e :: cs) = scanName { st with extender := true } cs := by
  rw [scanName, if_neg (by simp), if_pos rfl, if_neg (by simp [hst])]

theorem scanName_dot_again (hst : st.extender = true) : scanName st (0x2e :: cs) = .ok none := by
  rw [scanName, if_neg (by simp), if_pos rfl, if_pos hst]

-- One letter or digit, before the dot and behind it.
theorem scanName_base_cons (hst : st.extender = false) (hc : isNameChar c = true) :
    scanName st (c :: cs) = storeRegular st.regularName st.nameLength c >>= fun regularName ↦
      scanName { st with regularName := regularName, nameLength := st.nameLength + 1 } cs := by
  rw [scanName, if_neg (not_rejected hc), if_neg (ne_dot_of_isNameChar hc), if_neg (by simp [hst])]

theorem scanName_ext_cons (hst : st.extender = true) (hc : isNameChar c = true) :
    scanName st (c :: cs) = storeRegular st.regularName st.extenderCurrent c >>= fun regularName ↦
      scanName { st with regularName := regularName, extenderCurrent := st.extenderCurrent + 1 }
        cs := by
  rw [scanName, if_neg (not_rejected hc), if_neg (ne_dot_of_isNameChar hc), if_pos hst]

theorem storeRegular_of_lt (regularName : Bytes 11) {k : Nat} (hk : k < 11) (c : UInt8) :
    storeRegular regularName k c = .ok (regularName.set k c) := dif_pos hk

theorem storeRegular_of_ge (regularName : Bytes 11) {k : Nat} (hk : 11 ≤ k) (c : UInt8) :
    storeRegular regularName k c = .error .outOfBounds := dif_neg (Nat.not_lt.mpr hk)

-- A whole run: it is copied as long as there is room in the regular name.
theorem scanName_base (hst : st.extender = false) {run : List UInt8}
    (hrun : ∀ c ∈ run, isNameChar c = true) (hk : st.nameLength ≤ 11) :
    scanName st (run ++ rest) =
      if st.nameLength + run.length ≤ 11 then
        scanName { st with
          regularName := storeRun st.regularName st.nameLength run
          nameLength := st.nameLength + run.length } rest
      else .error .outOfBounds := by
  induction run generalizing st with
  | nil => rw [List.length_nil, Nat.add_zero, if_pos hk, storeRun_nil, List.nil_append]
  | cons c run ih =>
    rw [List.forall_mem_cons] at hrun
    rw [List.cons_append, scanName_base_cons hst hrun.1, List.length_cons]
    by_cases hfull : st.nameLength < 11
    · rw [storeRegular_of_lt _ hfull, ok_bind]
      rw [ih (by exact hst) hrun.2 (by exact hfull)]
      simp only [storeRun_cons _ hfull]
      rw [show st.nameLength + 1 + run.length = st.nameLength + (run.length + 1) by omega]
    · rw [storeRegular_of_ge _ (by omega), error_bind, if_neg (by omega)]

theorem scanName_ext (hst : st.extender = true) {run : List UInt8}
    (hrun : ∀ c ∈ run, isNameChar c = true) (hk : st.extenderCurrent ≤ 11) :
    scanName st (run ++ rest) =
      if st.extenderCurrent + run.length ≤ 11 then
        scanName { st with
          regularName := storeRun st.regularName st.extenderCurrent run
          extenderCurrent := st.extenderCurrent + run.length } rest
      else .error .outOfBounds := by
  induction run generalizing st with
  | nil => rw [List.length_nil, Nat.add_zero, if_pos hk, storeRun_nil, List.nil_append]
  | cons c run ih =>
    rw [List.forall_mem_cons] at hrun
    rw [List.cons_append, scanName_ext_cons hst hrun.1, List.length_cons]
    by_cases hfull : st.extenderCurrent < 11
    · rw [storeRegular_of_lt _ hfull, ok_bind]
      rw [ih (by exact hst) hrun.2 (by exact hfull)]
      simp only [storeRun_cons _ hfull]
      rw [show st.extenderCurrent + 1 + run.length = st.extenderCurrent + (run.length + 1) by omega]
    · rw [storeRegular_of_ge _ (by omega), error_bind, if_neg (by omega)]

end Scan

/-- Both runs stay inside the regular name. -/
def RunsFit (s : List UInt8) : Prop := (baseRun s).length ≤ 11 ∧ (extRun s).length ≤ 3

instance (s : List UInt8) : Decidable (RunsFit s) := inferInstanceAs (Decidable (_ ∧ _))

/-- The regular name that the two runs leave. -/
def regularOf (s : List UInt8) : Bytes 11 :=
  storeRun (storeRun (Vector.replicate 11 0x20) 0 (baseRun s)) 8 (extRun s)

section Shapes

variable {s cs : List UInt8} {c : UInt8}

theorem extRun_of_end (h : afterBase s = []) : extRun s = [] ∧ Scanned s := by
  refine ⟨?_, Or.inl h⟩
  rw [extRun, afterDot, h]
  rfl

theorem extRun_of_dot (h : afterBase s = 0x2e :: cs) :
    extRun s = cs.takeWhile isNameChar ∧ (Scanned s ↔ cs.dropWhile isNameChar = []) := by
  have hdot : afterDot s = cs := by
    rw [afterDot, h]
    rfl
  rw [extRun, Scanned, hdot, h]
  simp

theorem extRun_of_stop (h : afterBase s = c :: cs) (hc : c ≠ 0x2e) :
    extRun s = [] ∧ ¬ Scanned s := by
  have hdot : afterDot s = [] := by
    rw [afterDot, h, if_neg (by simpa using hc)]
  rw [extRun, Scanned, hdot, h]
  simp [hc]

end Shapes

-- The scan behind the first run: the second one is copied, and the rest decides.
theorem scanName_afterBase {st : NameScan} (hst : st.extender = false) (h8 : st.extenderCurrent = 8)
    (s : List UInt8) :
    scanName st (afterBase s) =
      if (extRun s).length ≤ 3 then
        .ok (if Scanned s then some { st with
          extender := decide ((afterBase s).head? = some 0x2e)
          extenderCurrent := 8 + (extRun s).length
          regularName := storeRun st.regularName 8 (extRun s) } else none)
      else .error .outOfBounds := by
  cases hafter : afterBase s with
  | nil =>
    rcases extRun_of_end hafter with ⟨hext, hdone⟩
    rw [hext, if_pos (by decide), if_pos hdone, storeRun_nil, scanName]
    obtain ⟨extender, nameLength, extenderCurrent, regularName⟩ := st
    simp only at hst h8
    rw [hst, h8]
    rfl
  | cons c cs =>
    by_cases hdot : c = 0x2e
    · rw [hdot] at hafter ⊢
      rcases extRun_of_dot hafter with ⟨hext, hscanned⟩
      have hrun : ∀ c ∈ cs.takeWhile isNameChar, isNameChar c = true :=
        fun c hc ↦ isNameChar_of_mem_run hc
      have hsplit := List.takeWhile_append_dropWhile (p := isNameChar) (l := cs)
      rw [scanName_dot hst, hext]
      conv => lhs; rw [← hsplit]
      rw [@scanName_ext { st with extender := true } _ rfl _ hrun
        (show st.extenderCurrent ≤ 11 by omega)]
      simp only [h8]
      by_cases hfit : (cs.takeWhile isNameChar).length ≤ 3
      · rw [if_pos (by omega), if_pos hfit]
        cases hrest : cs.dropWhile isNameChar with
        | nil =>
          rw [if_pos (hscanned.mpr hrest), scanName]
          rfl
        | cons d ds =>
          rw [if_neg (fun hdone ↦ by rw [hscanned.mp hdone] at hrest; cases hrest)]
          by_cases hd : d = 0x2e
          · rw [hd, scanName_dot_again rfl]
          · rw [scanName_stop (isNameChar_head hrest) hd]
      · rw [if_neg (by omega), if_neg hfit]
    · rcases extRun_of_stop hafter hdot with ⟨hext, hundone⟩
      rw [scanName_stop (isNameChar_head hafter) hdot, hext, if_pos (by decide), if_neg hundone]

-- What the scan comes to.
theorem scanName_start (s : List UInt8) :
    scanName NameScan.start s =
      if RunsFit s then
        .ok (if Scanned s then some ⟨decide ((afterBase s).head? = some 0x2e),
          (baseRun s).length, 8 + (extRun s).length, regularOf s⟩ else none)
      else .error .outOfBounds := by
  have hbase : ∀ c ∈ baseRun s, isNameChar c = true := fun c hc ↦ isNameChar_of_mem_run hc
  conv => lhs; rw [← base_append s]
  rw [scanName_base rfl hbase (show NameScan.start.nameLength ≤ 11 by decide)]
  have hzero : NameScan.start.nameLength + (baseRun s).length = (baseRun s).length :=
    Nat.zero_add _
  rw [hzero]
  by_cases hfit : (baseRun s).length ≤ 11
  · rw [if_pos hfit, scanName_afterBase rfl rfl]
    by_cases hext : (extRun s).length ≤ 3
    · have hruns : RunsFit s := ⟨hfit, hext⟩
      rw [if_pos hext, if_pos hruns]
      rfl
    · have hruns : ¬ RunsFit s := fun h ↦ hext h.2
      rw [if_neg hext, if_neg hruns]
  · have hruns : ¬ RunsFit s := fun h ↦ hfit h.1
    rw [if_neg hfit, if_neg hruns]

/-! ## format_name -/

/-- The scan ends in a name of at most eight and three characters. -/
def Regular (s : List UInt8) : Prop :=
  Scanned s ∧ 1 ≤ (baseRun s).length ∧ (baseRun s).length ≤ 8 ∧ (extRun s).length ≤ 3

instance (s : List UInt8) : Decidable (Regular s) := inferInstanceAs (Decidable (_ ∧ _))

theorem regular_class {s t : List UInt8} (h : s.map nameClass = t.map nameClass) :
    Regular s ↔ Regular t := by
  unfold Regular
  rw [scanned_class h, baseRun_length_class h, extRun_length_class h]

theorem runsFit_class {s t : List UInt8} (h : s.map nameClass = t.map nameClass) :
    RunsFit s ↔ RunsFit t := by
  unfold RunsFit
  rw [baseRun_length_class h, extRun_length_class h]

theorem length_upperString (s : List UInt8) (length : Nat) :
    (upperString s length).length = s.length := by
  have h := congrArg List.length (map_nameClass_upperString s length)
  simpa using h

section Format

variable {s : List UInt8} (h0 : 0 ∉ s) (hlen : s.length < 256)

include h0 hlen

theorem formatName_dotdot (hdot : s.take 2 = [0x2e, 0x2e]) :
    formatName (NameBuffer.ofString s) =
      .ok (ext2Success, (NameBuffer.ofString s).overwrite dotdotRegular) := by
  rw [formatName, cString_ofString h0 hlen]
  exact if_pos hdot

theorem formatName_dot (hdot : s.take 2 ≠ [0x2e, 0x2e]) (hone : s.take 1 = [0x2e]) :
    formatName (NameBuffer.ofString s) =
      .ok (ext2Success, (NameBuffer.ofString s).overwrite dotRegular) := by
  rw [formatName, cString_ofString h0 hlen]
  exact (if_neg hdot).trans (if_pos hone)

-- A name that does not start with a dot.
theorem formatName_regular (hone : s.head? ≠ some 0x2e) :
    formatName (NameBuffer.ofString s) =
      if RunsFit s then
        .ok (if Regular s then (ext2Success,
            (NameBuffer.ofString (upperString s 11)).overwrite (regularOf (upperString s 11)))
          else (ext2Error, NameBuffer.ofString (upperString s 11)))
      else .error .outOfBounds := by
  have hclass := map_nameClass_upperString s 11
  have htwo : s.take 2 ≠ [0x2e, 0x2e] := by
    intro h
    cases s with
    | nil => cases h
    | cons c cs => simp_all
  have htake : s.take 1 ≠ [0x2e] := by
    intro h
    cases s with
    | nil => cases h
    | cons c cs => simp_all
  rw [formatName, cString_ofString h0 hlen]
  simp only [if_neg htwo, if_neg htake]
  rw [scanName_start]
  have hfits := runsFit_class hclass
  have hregulars := regular_class hclass
  by_cases hfit : RunsFit s
  · rw [if_pos (hfits.mpr hfit), if_pos hfit, ok_bind]
    by_cases hregular : Regular s
    · rcases hregulars.mpr hregular with ⟨hdone, hlo, hhi, hext⟩
      have hgood : ¬ ((baseRun (upperString s 11)).length > 8 ∨
          (baseRun (upperString s 11)).length = 0 ∨ 8 + (extRun (upperString s 11)).length > 11) := by
        omega
      rw [if_pos hdone, if_pos hregular]
      exact if_neg hgood
    · rw [if_neg hregular]
      by_cases hdone : Scanned (upperString s 11)
      · have hbad : (baseRun (upperString s 11)).length > 8 ∨
            (baseRun (upperString s 11)).length = 0 ∨
            8 + (extRun (upperString s 11)).length > 11 := by
          by_contra hgood
          exact hregular (hregulars.mp ⟨hdone, by omega, by omega, by omega⟩)
        rw [if_pos hdone]
        exact if_pos hbad
      · rw [if_neg hdone]
        rfl
  · rw [if_neg (fun h ↦ hfit (hfits.mp h)), if_neg hfit, error_bind]

end Format

/-! ## Formatted strings -/

/-- A base name and an extension, each padded with blanks. -/
def padded (base ext : List UInt8) : List UInt8 :=
  (base ++ List.replicate (8 - base.length) 0x20) ++ (ext ++ List.replicate (3 - ext.length) 0x20)

theorem length_padded {base ext : List UInt8} (hbase : base.length ≤ 8) (hext : ext.length ≤ 3) :
    (padded base ext).length = 11 := by
  simp [padded]
  omega

theorem getElem?_pad (l : List UInt8) {width i : Nat} (hlen : l.length ≤ width) (hi : i < width) :
    (l ++ List.replicate (width - l.length) 0x20)[i]? = some (l.getD i 0x20) := by
  by_cases hlt : i < l.length
  · rw [List.getElem?_append_left hlt, List.getD_eq_getElem?_getD, List.getElem?_eq_getElem hlt,
      Option.getD_some]
  · rw [List.getElem?_append_right (by omega), List.getElem?_replicate, if_pos (by omega),
      List.getD_eq_default _ _ (by omega)]

theorem length_pad (l : List UInt8) {width : Nat} (hlen : l.length ≤ width) :
    (l ++ List.replicate (width - l.length) (0x20 : UInt8)).length = width := by
  rw [List.length_append, List.length_replicate]
  omega

theorem getElem?_padded {base ext : List UInt8} (hbase : base.length ≤ 8) (hext : ext.length ≤ 3)
    {i : Nat} (hi : i < 11) :
    (padded base ext)[i]? =
      some (if i < 8 then base.getD i 0x20 else ext.getD (i - 8) 0x20) := by
  have hlen := length_pad base hbase
  unfold padded
  by_cases hlt : i < 8
  · rw [if_pos hlt, List.getElem?_append_left (by omega), getElem?_pad base hbase hlt]
  · rw [if_neg hlt, List.getElem?_append_right (by omega), hlen,
      getElem?_pad ext hext (show i - 8 < 3 by omega)]

theorem regularOf_toList {s : List UInt8} (hbase : (baseRun s).length ≤ 8)
    (hext : (extRun s).length ≤ 3) : (regularOf s).toList = padded (baseRun s) (extRun s) := by
  apply List.ext_getElem?
  intro i
  by_cases hi : i < 11
  · rw [getElem?_padded hbase hext hi, List.getElem?_eq_getElem (by simpa using hi),
      Vector.getElem_toList, regularOf, getElem_storeRun _ _ _ hi, getElem_storeRun _ _ _ hi,
      if_pos (Nat.zero_le i), Vector.getElem_replicate, Nat.sub_zero]
    by_cases hlt : i < 8
    · rw [if_neg (by omega), if_pos hlt]
    · have hblank : (baseRun s).getD i 0x20 = 0x20 := List.getD_eq_default _ _ (by omega)
      rw [if_pos (by omega), if_neg hlt, hblank]
  · rw [List.getElem?_eq_none (by simpa using hi), List.getElem?_eq_none]
    rw [length_padded hbase hext]
    omega

-- The eleven bytes are followed by what was there of the name.
theorem cString_overwrite {s : List UInt8} (h0 : 0 ∉ s) (hlen : s.length < 256) {src : Bytes 11}
    (hsrc : ZeroFree src) :
    cString ((NameBuffer.ofString s).overwrite src) = some (src.toList ++ s.drop 11) := by
  have hbyte : ∀ i, i < 256 → ((NameBuffer.ofString s).overwrite src).toList[i]? =
      some (if h : i < 11 then src[i] else s.getD i 0) := by
    intro i hi
    rw [List.getElem?_eq_getElem (by simpa using hi), Vector.getElem_toList]
    simp [NameBuffer.overwrite, NameBuffer.ofString]
  apply cString_of_bytes
  · rw [List.mem_append, not_or]
    refine ⟨fun hmem ↦ ?_, fun hmem ↦ h0 (List.mem_of_mem_drop hmem)⟩
    rcases List.getElem_of_mem hmem with ⟨i, hi, hzero⟩
    rw [Vector.getElem_toList] at hzero
    exact hsrc i _ hzero
  · intro i hi
    have hi' : i < 256 := by
      rw [List.length_append, Vector.length_toList, List.length_drop] at hi
      omega
    rw [hbyte i hi', Option.some.injEq]
    by_cases hlt : i < 11
    · rw [dif_pos hlt, List.getElem_append_left (by simpa using hlt), Vector.getElem_toList]
    · have hin : i < s.length := by
        rw [List.length_append, Vector.length_toList, List.length_drop] at hi
        omega
      rw [dif_neg hlt, List.getElem_append_right (by simpa using hlt), List.getElem_drop,
        List.getD_eq_getElem?_getD, List.getElem?_eq_getElem hin, Option.getD_some]
      congr 1
      rw [Vector.length_toList]
      omega
  · rw [List.length_append, Vector.length_toList, List.length_drop]
    rw [hbyte _ (by omega), dif_neg (by omega), List.getD_eq_default _ _ (by omega)]

theorem isNameChar_ne_zero {c : UInt8} (hc : isNameChar c = true) : c ≠ 0 := by
  rintro rfl
  exact absurd hc (by decide)

theorem regularOf_zeroFree (s : List UInt8) : ZeroFree (regularOf s) := by
  have hstore : ∀ {l : List UInt8} {regularName : Bytes 11} (k : Nat), ZeroFree regularName →
      ZeroFree (storeRun regularName k (l.takeWhile isNameChar)) := by
    intro l regularName k hname i hi
    rw [getElem_storeRun _ _ _ hi]
    split
    · by_cases hlt : i - k < (l.takeWhile isNameChar).length
      · rw [List.getD_eq_getElem?_getD, List.getElem?_eq_getElem hlt, Option.getD_some]
        exact isNameChar_ne_zero (isNameChar_of_mem_run (List.getElem_mem hlt))
      · rw [List.getD_eq_default _ _ (by omega)]
        exact hname i hi
    · exact hname i hi
  refine hstore 8 (hstore 0 fun i hi ↦ ?_)
  rw [Vector.getElem_replicate]
  decide

theorem drop_upperString (s : List UInt8) (length : Nat) :
    (upperString s length).drop length = s.drop length := by
  have hfront : ((s.take length).map toUpper).length = min length s.length := by
    rw [List.length_map, List.length_take]
  unfold upperString
  by_cases hlen : length ≤ s.length
  · rw [List.drop_append_of_le_length (by omega), List.drop_eq_nil_of_le (by omega),
      List.nil_append]
  · have hall := List.drop_eq_nil_of_le (Nat.le_of_not_le hlen)
    rw [hall, List.append_nil, List.drop_eq_nil_of_le (by omega)]

-- Short names are upper-cased as a whole.
theorem upperString_of_le {s : List UInt8} {length : Nat} (hlen : s.length ≤ length) :
    upperString s length = s.map toUpper := by
  rw [upperString, List.take_of_length_le hlen, List.drop_eq_nil_of_le hlen, List.append_nil]

section Upper

variable (s : List UInt8)

theorem isNameChar_comp_toUpper : isNameChar ∘ toUpper = isNameChar := funext isNameChar_toUpper

theorem baseRun_map_toUpper : baseRun (s.map toUpper) = (baseRun s).map toUpper := by
  rw [baseRun, List.takeWhile_map, isNameChar_comp_toUpper, baseRun]

theorem afterBase_map_toUpper : afterBase (s.map toUpper) = (afterBase s).map toUpper := by
  rw [afterBase, List.dropWhile_map, isNameChar_comp_toUpper, afterBase]

theorem map_nameClass_toUpper : (s.map toUpper).map nameClass = s.map nameClass := by
  rw [List.map_map]
  exact congrArg (s.map ·) (funext nameClass_toUpper)

theorem extRun_map_toUpper : extRun (s.map toUpper) = (extRun s).map toUpper := by
  have hdot : afterDot (s.map toUpper) = (afterDot s).map toUpper := by
    have hhead := head_dot_class (map_nameClass_toUpper s)
    unfold afterDot
    by_cases hs : (afterBase s).head? = some 0x2e
    · rw [if_pos (hhead.mpr hs), if_pos hs, afterBase_map_toUpper, List.map_tail]
    · rw [if_neg (fun h ↦ hs (hhead.mp h)), if_neg hs, List.map_nil]
  rw [extRun, hdot, List.takeWhile_map, isNameChar_comp_toUpper, extRun]

end Upper

-- A name that is scanned to its end.
theorem scanned_shape {s : List UInt8} (h : Scanned s) :
    (s = baseRun s ∧ extRun s = []) ∨ s = baseRun s ++ 0x2e :: extRun s := by
  have hsplit := base_append s
  cases hafter : afterBase s with
  | nil =>
    left
    rw [hafter, List.append_nil] at hsplit
    exact ⟨hsplit.symm, (extRun_of_end hafter).1⟩
  | cons c cs =>
    by_cases hc : c = 0x2e
    · right
      rw [hc] at hafter
      rcases extRun_of_dot hafter with ⟨hext, hdone⟩
      have hrest := List.takeWhile_append_dropWhile (p := isNameChar) (l := cs)
      rw [hdone.mp h, List.append_nil] at hrest
      rw [hext, hrest, ← hafter, hsplit]
    · exact absurd h (extRun_of_stop hafter hc).2

theorem Regular.length_le {s : List UInt8} (h : Regular s) : s.length ≤ 12 := by
  rcases h with ⟨hdone, -, hbase, hext⟩
  rcases scanned_shape hdone with ⟨hs, -⟩ | hs
  · have hlen := congrArg List.length hs
    omega
  · have hlen := congrArg List.length hs
    rw [List.length_append, List.length_cons] at hlen
    omega

end Ext2Fs
