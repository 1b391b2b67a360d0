import Mathlib.Data.Nat.Count
import Ext2Fs.Reasoning.Bytes

/-!
# Bitmaps whose bytes are runs of leading ones

Bit `k` of a bitmap is bit `k % 8`, counted from the most significant end, of byte `k / 8`.  An
allocator that always takes the first clear bit of a byte keeps every byte of the form `1…10…0`; a
bitmap of that kind is determined by the length of the run in each byte.
-/

namespace Reasoning

/-- Bit `k` of a bitmap. -/
def bitAt {n : Nat} (b : Bytes n) (k : Nat) : Bool :=
  if h : k / 8 < n then b[k / 8].toNat.testBit (7 - k % 8) else false

/-- The number of clear bits among the first `count`. -/
def clearCount (bit : Nat → Bool) (count : Nat) : Nat := Nat.count (fun k ↦ bit k = false) count

/-- The byte with only bit `r` set. -/
def bitMask (r : Nat) : UInt8 := UInt8.ofNat (2 ^ (7 - r))

/-- The byte that starts with `p` ones and goes on with zeros. -/
def leadingOnes (p : Nat) : UInt8 := UInt8.ofNat (256 - 2 ^ (8 - p))

theorem leadingOnes_testBit {p r : Nat} (hp : p ≤ 8) (hr : r < 8) :
    (leadingOnes p).toNat.testBit (7 - r) = decide (r < p) := by
  have h : ∀ p, p ≤ 8 → ∀ r, r < 8 →
      (leadingOnes p).toNat.testBit (7 - r) = decide (r < p) := by decide
  exact h p hp r hr

theorem leadingOnes_or_bitMask {p : Nat} (hp : p < 8) :
    leadingOnes p ||| bitMask p = leadingOnes (p + 1) := by
  have h : ∀ p, p < 8 → leadingOnes p ||| bitMask p = leadingOnes (p + 1) := by decide
  exact h p hp

theorem leadingOnes_eq_full {p : Nat} (hp : p ≤ 8) : leadingOnes p = 0xFF ↔ p = 8 := by
  have h : ∀ p, p ≤ 8 → (leadingOnes p = 0xFF ↔ p = 8) := by decide
  exact h p hp

/-- Bit `r`, counted from the most significant one, is the first clear bit. -/
def FirstClear (byte : UInt8) (r : Nat) : Prop :=
  r < 8 ∧ byte.toNat.testBit (7 - r) = false ∧ ∀ q, q < r → byte.toNat.testBit (7 - q) = true

theorem firstClear_leadingOnes {p : Nat} (hp : p < 8) : FirstClear (leadingOnes p) p := by
  refine ⟨hp, ?_, fun q hq ↦ ?_⟩
  · rw [leadingOnes_testBit (Nat.le_of_lt hp) hp]
    exact decide_eq_false (Nat.lt_irrefl p)
  · rw [leadingOnes_testBit (Nat.le_of_lt hp) (Nat.lt_trans hq hp)]
    exact decide_eq_true hq

/-- The bitmap whose byte `j` starts with `run j` ones. -/
def leadingRuns (n : Nat) (run : Nat → Nat) : Bytes n := Vector.ofFn fun j ↦ leadingOnes (run j.val)

@[simp] theorem getElem_leadingRuns {n : Nat} (run : Nat → Nat) {j : Nat} (hj : j < n) :
    (leadingRuns n run)[j] = leadingOnes (run j) := by
  simp [leadingRuns]

section Runs

variable {n : Nat} {run : Nat → Nat}

theorem bitAt_leadingRuns {k : Nat} (hk : k / 8 < n) (hrun : run (k / 8) ≤ 8) :
    bitAt (leadingRuns n run) k = decide (k % 8 < run (k / 8)) := by
  rw [bitAt, dif_pos hk, getElem_leadingRuns]
  exact leadingOnes_testBit hrun (Nat.mod_lt k (by decide))

theorem leadingRuns_congr {run' : Nat → Nat} (h : ∀ j, j < n → run j = run' j) :
    leadingRuns n run = leadingRuns n run' := by
  apply Vector.ext
  intro j hj
  rw [getElem_leadingRuns, getElem_leadingRuns, h j hj]

-- Setting the first clear bit of byte `j` lengthens its run by one.
theorem leadingRuns_set {j : Nat} (hj : j < n) (hrun : run j < 8) :
    (leadingRuns n run).set j ((leadingRuns n run)[j] ||| bitMask (run j)) =
      leadingRuns n (Function.update run j (run j + 1)) := by
  apply Vector.ext
  intro i hi
  rw [Vector.getElem_set, getElem_leadingRuns, getElem_leadingRuns, getElem_leadingRuns]
  by_cases h : j = i
  · subst h
    rw [if_pos rfl, Function.update_self, leadingOnes_or_bitMask hrun]
  · rw [if_neg h, Function.update_of_ne (Ne.symm h)]

theorem getElem?_leadingRuns {j : Nat} (hj : j < n) :
    (leadingRuns n run).toList[j]? = some (leadingOnes (run j)) := by
  rw [List.getElem?_eq_getElem (by simpa using hj), Vector.getElem_toList, getElem_leadingRuns]

/-- Every byte of the bitmap is a run of leading ones. -/
def IsRuns (b : Bytes n) : Prop := ∃ run : Nat → Nat, (∀ j, run j ≤ 8) ∧ b = leadingRuns n run

theorem IsRuns.exists_leadingOnes {b : Bytes n} (h : IsRuns b) {byte : UInt8}
    (hbyte : byte ∈ b.toList) : ∃ p, p ≤ 8 ∧ byte = leadingOnes p := by
  rcases h with ⟨run, hle, rfl⟩
  rcases List.getElem_of_mem hbyte with ⟨j, hj, rfl⟩
  rw [Vector.getElem_toList, getElem_leadingRuns]
  exact ⟨run j, hle j, rfl⟩

-- The first clear bit of a byte is set.
theorem isRuns_update (hle : ∀ j, run j ≤ 8) {j : Nat} (hj : run j < 8) :
    IsRuns (leadingRuns n (Function.update run j (run j + 1))) := by
  refine ⟨_, fun i ↦ ?_, rfl⟩
  by_cases hij : i = j
  · rw [hij, Function.update_self]
    exact hj
  · rw [Function.update_of_ne hij]
    exact hle i

end Runs

/-! ## Prefixes of ones -/

/-- The run lengths of the bitmap whose first `m` bits are set. -/
def prefixRun (m j : Nat) : Nat := min 8 (m - 8 * j)

theorem prefixRun_le (m j : Nat) : prefixRun m j ≤ 8 := Nat.min_le_left ..

/-- The bitmap whose first `m` bits are set and whose other bits are clear. -/
def onesPrefix (n m : Nat) : Bytes n := leadingRuns n (prefixRun m)

theorem isRuns_onesPrefix (n m : Nat) : IsRuns (onesPrefix n m) :=
  ⟨prefixRun m, prefixRun_le m, rfl⟩

theorem getElem_onesPrefix {n m j : Nat} (hj : j < n) :
    (onesPrefix n m)[j] = leadingOnes (prefixRun m j) := getElem_leadingRuns _ hj

theorem onesPrefix_full_iff {n m j : Nat} (hj : j < n) :
    (onesPrefix n m)[j] = 0xFF ↔ 8 * (j + 1) ≤ m := by
  rw [getElem_onesPrefix hj, leadingOnes_eq_full (prefixRun_le _ _)]
  unfold prefixRun
  omega

theorem bitAt_onesPrefix {n m k : Nat} (hk : k < 8 * n) :
    bitAt (onesPrefix n m) k = decide (k < m) := by
  rw [onesPrefix, bitAt_leadingRuns (by omega) (prefixRun_le _ _)]
  unfold prefixRun
  apply decide_eq_decide.mpr
  omega

theorem onesPrefix_zero (n : Nat) : onesPrefix n 0 = Vector.replicate n 0 := by
  apply Vector.ext
  intro j hj
  rw [getElem_onesPrefix hj, Vector.getElem_replicate]
  unfold prefixRun
  rw [Nat.zero_sub, Nat.min_zero]
  rfl

-- Setting bit `m` of the prefix of length `m`.
theorem onesPrefix_set {n m : Nat} (hm : m / 8 < n) :
    (onesPrefix n m).set (m / 8) ((onesPrefix n m)[m / 8] ||| bitMask (m % 8)) =
      onesPrefix n (m + 1) := by
  have hrun : prefixRun m (m / 8) = m % 8 := by
    unfold prefixRun
    omega
  unfold onesPrefix
  rw [← hrun, leadingRuns_set hm (by omega)]
  apply leadingRuns_congr
  intro j _
  by_cases h : j = m / 8
  · subst h
    rw [Function.update_self]
    unfold prefixRun
    omega
  · rw [Function.update_of_ne h]
    unfold prefixRun
    omega

-- Where the set bits are a prefix, the bits beyond it are clear.
theorem clearCount_prefix {bit : Nat → Bool} {m count : Nat}
    (h : ∀ k, k < count → bit k = decide (k < m)) : clearCount bit count = count - m := by
  induction count with
  | zero => simp [clearCount]
  | succ count ih =>
    have hprev := ih (fun k hk ↦ h k (by omega))
    unfold clearCount at hprev ⊢
    rw [Nat.count_succ, hprev, h count (by omega)]
    by_cases hm : count < m
    · simp [hm]
      omega
    · simp [hm]
      omega

theorem clearCount_le (bit : Nat → Bool) (count : Nat) : clearCount bit count ≤ count :=
  Nat.count_le _

theorem clearCount_pos {bit : Nat → Bool} {k count : Nat} (hk : k < count) (h : bit k = false) :
    0 < clearCount bit count :=
  Nat.pos_of_ne_zero (Nat.count_ne_iff_exists.mpr ⟨k, hk, h⟩)

-- The first byte that is not full.
theorem findIdx_onesPrefix {n m : Nat} :
    (onesPrefix n m).toList.findIdx? (· ≠ 0xFF) = if m < 8 * n then some (m / 8) else none := by
  split
  · rename_i h
    rw [List.findIdx?_eq_some_iff_getElem]
    refine ⟨by simp; omega, ?_, fun j hj ↦ ?_⟩
    · rw [Vector.getElem_toList, decide_eq_true_eq, ne_eq, onesPrefix_full_iff (by omega)]
      omega
    · rw [Vector.getElem_toList, decide_eq_true_eq, not_not, onesPrefix_full_iff (by omega)]
      omega
  · rename_i h
    rw [List.findIdx?_eq_none_iff]
    intro x hx
    obtain ⟨j, hj, rfl⟩ := List.getElem_of_mem hx
    have hjn : j < n := by simpa using hj
    rw [Vector.getElem_toList, decide_eq_false_iff_not, not_not, onesPrefix_full_iff hjn]
    omega

end Reasoning
