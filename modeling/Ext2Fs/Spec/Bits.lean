import Ext2Fs.Reasoning.Bitmap
import Ext2Fs.Model.Alloc

/-!
# The bit operations of the program on bitmaps of leading ones

`set_bit` and the two decoding tables of the allocators, on bytes of the form `1…10…0`.
-/

open Reasoning

namespace Ext2Fs

/-! ## set_bit -/

theorem bitValue_eq {r : Nat} (hr : r < 8) : bitValue r = bitMask r := by
  have h : ∀ r, r < 8 → bitValue r = bitMask r := by decide
  exact h r hr

theorem setBit_of_lt {sector : Sector} {k : Nat} (hk : k / 8 < 512) :
    setBit sector k = .ok (sector.set (k / 8) (sector[k / 8] ||| bitMask (k % 8))) := by
  rw [setBit, dif_pos hk, bitValue_eq (Nat.mod_lt k (by decide))]

theorem setBit_of_ge {sector : Sector} {k : Nat} (hk : 4096 ≤ k) :
    setBit sector k = .error .outOfBounds := by
  rw [setBit, dif_neg (by omega)]

theorem setBit_onesPrefix {m : Nat} (hm : m < 4096) :
    setBit (onesPrefix 512 m) m = .ok (onesPrefix 512 (m + 1)) := by
  rw [setBit_of_lt (by omega), onesPrefix_set (by omega)]

-- Setting the first clear bit of byte `j`.
theorem setBit_leadingRuns {run : Nat → Nat} {j : Nat} (hj : j < 512) (hrun : run j < 8) :
    setBit (leadingRuns 512 run) (j * 8 + run j) =
      .ok (leadingRuns 512 (Function.update run j (run j + 1))) := by
  have hdiv : (j * 8 + run j) / 8 = j := by omega
  have hmod : (j * 8 + run j) % 8 = run j := by omega
  rw [setBit_of_lt (by omega)]
  simp only [hdiv, hmod]
  rw [leadingRuns_set hj hrun]

theorem setBits_zeroSector {count : Nat} (hc : count ≤ 4096) :
    setBits count zeroSector = .ok (onesPrefix 512 count) := by
  obtain ⟨s, hrun, rfl⟩ := forEach_range (fun i (s : Sector) ↦ s = onesPrefix 512 i) count
    (onesPrefix_zero 512).symm (by
      rintro i s hi rfl
      exact ⟨_, setBit_onesPrefix (by omega), rfl⟩)
  exact hrun

/-! ## Decoding tables -/

theorem lowNibbleOffset_leadingOnes {p : Nat} (hlo : 4 ≤ p) (hhi : p < 8) :
    lowNibbleOffset (leadingOnes p) = some p := by
  have h : ∀ p, p < 8 → 4 ≤ p → lowNibbleOffset (leadingOnes p) = some p := by decide
  exact h p hhi hlo

theorem highNibbleOffset_leadingOnes {p : Nat} (hp : p < 4) :
    highNibbleOffset (leadingOnes p) = some p := by
  have h : ∀ p, p < 4 → highNibbleOffset (leadingOnes p) = some p := by decide
  exact h p hp

theorem leadingOnes_ge_iff {p : Nat} (hp : p ≤ 8) : leadingOnes p ≥ 0xF0 ↔ 4 ≤ p := by
  have h : ∀ p, p ≤ 8 → (leadingOnes p ≥ 0xF0 ↔ 4 ≤ p) := by decide
  exact h p hp

/-- What the two switches assign to `offset` for a byte that is not full. -/
def decodedOffset (byte : UInt8) : Option Nat :=
  if byte ≥ 0xF0 then lowNibbleOffset byte else highNibbleOffset byte

-- a position in the byte
theorem decodedOffset_lt {byte : UInt8} {r : Nat} (h : decodedOffset byte = some r) : r < 8 := by
  have hall : ∀ o ∈ [lowNibbleOffset byte, highNibbleOffset byte], ∀ r ∈ o, r < 8 := by
    unfold lowNibbleOffset highNibbleOffset
    grind
  unfold decodedOffset at h
  split at h
  · exact hall _ (by simp) r h
  · exact hall _ (by simp) r h

theorem lowNibbleOffset_ne_zero (byte : UInt8) : lowNibbleOffset byte ≠ some 0 := by
  unfold lowNibbleOffset
  split
  · simp
  split
  · simp
  split
  · simp
  split <;> simp

theorem highNibbleOffset_zero {byte : UInt8} (h : highNibbleOffset byte = some 0) :
    byte / 0x10 = 0 := by
  unfold highNibbleOffset at h
  split at h
  · assumption
  split at h
  · simp at h
  split at h
  · simp at h
  split at h <;> simp at h

-- The tables give the first clear bit of a byte of leading ones that is not full.
theorem blockOffset_leadingOnes {p : Nat} (hp : p < 8) :
    (if leadingOnes p ≥ 0xF0 then lowNibbleOffset (leadingOnes p)
      else highNibbleOffset (leadingOnes p)) = some p := by
  split
  · rename_i h
    exact lowNibbleOffset_leadingOnes ((leadingOnes_ge_iff (by omega)).mp h) hp
  · rename_i h
    rw [leadingOnes_ge_iff (by omega)] at h
    exact highNibbleOffset_leadingOnes (by omega)

/-! ## The byte loop of alloc_free_inode -/

-- The loop passes over the bytes whose upper half is full and stops at the first other one.
theorem scanInodeBytes_leadingRuns {n : Nat} {run : Nat → Nat} (hle : ∀ j, run j ≤ 8) {stop : Nat}
    (hstop : stop < n) (hbefore : ∀ j, j < stop → 4 ≤ run j) (hat : run stop < 4)
    (offset : Option Nat) :
    scanInodeBytes (leadingRuns n run).toList 0 offset = .found stop (some (run stop)) := by
  have htail : ∀ d j offset, j + d = stop →
      scanInodeBytes ((leadingRuns n run).toList.drop j) j offset =
        .found stop (some (run stop)) := by
    intro d
    induction d with
    | zero =>
      intro j offset hj
      obtain rfl : j = stop := by omega
      rw [List.drop_eq_getElem_cons (by simpa using hstop), Vector.getElem_toList,
        getElem_leadingRuns, scanInodeBytes, if_neg, if_neg, highNibbleOffset_leadingOnes hat]
      · rfl
      · rw [leadingOnes_ge_iff (hle _)]
        omega
      · rw [leadingOnes_eq_full (hle _)]
        omega
    | succ d ih =>
      intro j offset hj
      have hjn : j < n := by omega
      have hfull := hbefore j (by omega)
      rw [List.drop_eq_getElem_cons (by simpa using hjn), Vector.getElem_toList,
        getElem_leadingRuns, scanInodeBytes]
      split
      · exact ih (j + 1) offset (by omega)
      · rw [if_pos ((leadingOnes_ge_iff (hle _)).mpr hfull)]
        exact ih (j + 1) _ (by omega)
  exact htail stop 0 offset (by omega)

end Ext2Fs
