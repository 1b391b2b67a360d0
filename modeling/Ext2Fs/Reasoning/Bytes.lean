import Mathlib.Logic.Equiv.Basic
import Ext2Fs.Reasoning.Exec

/-!
# Records laid out in bytes

A layout identifies a type with the byte strings of a fixed length.  Because it is an equivalence,
rewriting one field of a record rewrites the bytes of that field and no others, and a buffer may be
viewed through several layouts at once: this is what a C pointer cast does.
-/

namespace Reasoning

abbrev Bytes (n : Nat) := Vector UInt8 n

abbrev Layout (α : Type) (w : Nat) := α ≃ Bytes w

/-- The `w` bytes of a buffer that start at `off`. -/
def slice {n : Nat} (b : Bytes n) (off w : Nat) (h : off + w ≤ n) : Bytes w :=
  Vector.ofFn fun i ↦ b[off + i.val]

@[simp] theorem getElem_slice {n : Nat} (b : Bytes n) (off w i : Nat) (h : off + w ≤ n)
    (hi : i < w) : (slice b off w h)[i] = b[off + i] := by
  simp [slice]

theorem slice_slice {n : Nat} (b : Bytes n) (off w off' w' : Nat) (h : off + w ≤ n)
    (h' : off' + w' ≤ w) :
    slice (slice b off w h) off' w' h' = slice b (off + off') w' (by omega) := by
  apply Vector.ext
  intro i hi
  simp [Nat.add_assoc]

namespace Layout

/-- A 16-bit integer, least significant byte first. -/
def u16 : Layout UInt16 2 where
  toFun x := #v[UInt8.ofNat x.toNat, UInt8.ofNat (x.toNat / 256)]
  invFun b := UInt16.ofNat (b[0].toNat + 256 * b[1].toNat)
  left_inv x := by
    apply UInt16.toNat_inj.mp
    have hx := x.toNat_lt
    simp
    omega
  right_inv b := by
    have h0 := b[0].toNat_lt
    have h1 := b[1].toNat_lt
    apply Vector.ext
    intro i hi
    have hcases : i = 0 ∨ i = 1 := by omega
    rcases hcases with rfl | rfl
    · apply UInt8.toNat_inj.mp
      simp
    · apply UInt8.toNat_inj.mp
      simp
      omega

/-- A 32-bit integer, least significant byte first. -/
def u32 : Layout UInt32 4 where
  toFun x := #v[UInt8.ofNat x.toNat, UInt8.ofNat (x.toNat / 256), UInt8.ofNat (x.toNat / 65536),
    UInt8.ofNat (x.toNat / 16777216)]
  invFun b := UInt32.ofNat
    (b[0].toNat + 256 * b[1].toNat + 65536 * b[2].toNat + 16777216 * b[3].toNat)
  left_inv x := by
    apply UInt32.toNat_inj.mp
    have hx := x.toNat_lt
    simp
    omega
  right_inv b := by
    have h0 := b[0].toNat_lt
    have h1 := b[1].toNat_lt
    have h2 := b[2].toNat_lt
    have h3 := b[3].toNat_lt
    apply Vector.ext
    intro i hi
    have hcases : i = 0 ∨ i = 1 ∨ i = 2 ∨ i = 3 := by omega
    rcases hcases with rfl | rfl | rfl | rfl <;> apply UInt8.toNat_inj.mp
    · simp
      omega
    · simp
      omega
    · simp
      omega
    · simp
      omega

/-- `w` plain bytes. -/
def bytes (w : Nat) : Layout (Bytes w) w := Equiv.refl _

/-- Two records one after the other. -/
def pair {α β : Type} {m n : Nat} (e : Layout α m) (f : Layout β n) :
    Layout (α × β) (m + n) where
  toFun p := e p.1 ++ f p.2
  invFun b := (e.symm (slice b 0 m (by omega)), f.symm (slice b m n (by omega)))
  left_inv p := by
    apply Prod.ext
    · apply e.injective
      rw [Equiv.apply_symm_apply]
      apply Vector.ext
      intro i hi
      simp [hi]
    · apply f.injective
      rw [Equiv.apply_symm_apply]
      apply Vector.ext
      intro i hi
      simp
  right_inv b := by
    apply Vector.ext
    intro i hi
    rw [Vector.getElem_append]
    split
    · simp
    · simp [show m + (i - m) = i by omega]

section Pair

variable {α β : Type} {m n : Nat} (e : Layout α m) (f : Layout β n) (a : α) (b : β)

theorem getElem_pair_left {i : Nat} (hi : i < m) : (pair e f (a, b))[i] = (e a)[i] := by
  simp [pair, hi]

theorem getElem_pair_right {i j : Nat} (hj : j < n) (hi : i = m + j) :
    (pair e f (a, b))[i] = (f b)[j] := by
  subst hi
  simp [pair]

-- A byte of the first record is changed.
theorem pair_set_left {i : Nat} (hi : i < m) (x : UInt8) :
    (pair e f (a, b)).set i x = pair e f (e.symm ((e a).set i x), b) := by
  apply Vector.ext
  intro j hj
  by_cases hij : i = j
  · subst hij
    simp [pair, hi]
  · simp [pair, Vector.getElem_append, hij]

-- A byte of the second record is changed.
theorem pair_set_right {i j : Nat} (hj : j < n) (hi : i = m + j) (x : UInt8) :
    (pair e f (a, b)).set i x = pair e f (a, f.symm ((f b).set j x)) := by
  subst hi
  apply Vector.ext
  intro k hk
  simp [pair, Vector.getElem_set, Vector.getElem_append]

end Pair

-- Two records of equal bytes make a record of equal bytes.
theorem pair_replicate {α β : Type} {m n : Nat} {e : Layout α m} {f : Layout β n} {a : α} {b : β}
    {x : UInt8} (ha : e a = Vector.replicate m x) (hb : f b = Vector.replicate n x) :
    pair e f (a, b) = Vector.replicate (m + n) x := by
  apply Vector.ext
  intro i hi
  simp [pair, ha, hb]

/-- `k` records one after the other. -/
def array {α : Type} {w : Nat} (e : Layout α w) (k : Nat) : Layout (Vector α k) (k * w) where
  toFun v := (v.map e).flatten
  invFun b := Vector.ofFn fun j : Fin k ↦
    e.symm (slice b (j.val * w) w (by
      have h := Nat.mul_le_mul_right w (Nat.succ_le_of_lt j.isLt)
      rw [Nat.succ_mul] at h
      exact h))
  left_inv v := by
    apply Vector.ext
    intro j hj
    apply e.injective
    simp only [Vector.getElem_ofFn, Equiv.apply_symm_apply]
    apply Vector.ext
    intro i hi
    have hdiv : (j * w + i) / w = j := by
      rw [Nat.mul_comm, Nat.mul_add_div (by omega), Nat.div_eq_of_lt hi, Nat.add_zero]
    have hmod : (j * w + i) % w = i := by
      rw [Nat.mul_comm, Nat.mul_add_mod, Nat.mod_eq_of_lt hi]
    simp [Vector.getElem_flatten, hdiv, hmod]
  right_inv b := by
    apply Vector.ext
    intro i hi
    simp [Vector.getElem_flatten, Nat.div_add_mod']

theorem getElem_array_symm {α : Type} {w k : Nat} (e : Layout α w) (b : Bytes (k * w)) {j : Nat}
    (hj : j < k) (h : j * w + w ≤ k * w) :
    ((array e k).symm b)[j] = e.symm (slice b (j * w) w h) := by
  simp [array]

-- Equal records of equal bytes make an array of equal bytes.
theorem array_replicate {α : Type} {w : Nat} {e : Layout α w} {a : α} {x : UInt8} (k : Nat)
    (h : e a = Vector.replicate w x) :
    array e k (Vector.replicate k a) = Vector.replicate (k * w) x := by
  apply Vector.ext
  intro i hi
  simp [array, h]

end Layout

section Cast

/-! ## Buffers seen through a cast pointer -/

variable {α : Type} {n k : Nat} (c : Bytes n ≃ Vector α k)

/-- `((T *) buf)[i]`, indeterminate past the buffer. -/
def loadAt (buf : Bytes n) (i : Nat) : Option α := (c buf)[i]?

/-- `((T *) buf)[i]` replaced by its image under `f`, undefined past the buffer. -/
def modifyAt (buf : Bytes n) (i : Nat) (f : α → α) : Exec (Bytes n) :=
  if h : i < k then .ok (c.symm ((c buf).set i (f (c buf)[i]))) else .error .outOfBounds

theorem loadAt_of_lt {buf : Bytes n} {i : Nat} (h : i < k) : loadAt c buf i = some (c buf)[i] := by
  simp [loadAt, h]

theorem loadAt_of_ge {buf : Bytes n} {i : Nat} (h : k ≤ i) : loadAt c buf i = none := by
  simp [loadAt, h]

theorem modifyAt_of_lt {buf : Bytes n} {i : Nat} (f : α → α) (h : i < k) :
    modifyAt c buf i f = .ok (c.symm ((c buf).set i (f (c buf)[i]))) := dif_pos h

/-- The buffer after such a replacement inside it. -/
def updateAt (buf : Bytes n) (i : Nat) (f : α → α) : Bytes n :=
  if h : i < k then c.symm ((c buf).set i (f (c buf)[i])) else buf

theorem modifyAt_eq_updateAt {buf : Bytes n} {i : Nat} (f : α → α) (h : i < k) :
    modifyAt c buf i f = .ok (updateAt c buf i f) := by
  rw [modifyAt_of_lt c f h, updateAt, dif_pos h]

theorem getElem_updateAt {buf : Bytes n} {i j : Nat} (f : α → α) (hj : j < k) :
    (c (updateAt c buf i f))[j] = if i = j then f (c buf)[j] else (c buf)[j] := by
  unfold updateAt
  split
  · simp only [Equiv.apply_symm_apply, Vector.getElem_set]
    by_cases hij : i = j
    · subst hij
      rw [if_pos rfl]
    · rw [if_neg hij, if_neg hij]
  · rw [if_neg (by omega)]

theorem updateAt_updateAt (buf : Bytes n) (i : Nat) (f g : α → α) :
    updateAt c (updateAt c buf i f) i g = updateAt c buf i (g ∘ f) := by
  apply c.injective
  apply Vector.ext
  intro j hj
  rw [getElem_updateAt c g hj, getElem_updateAt c f hj, getElem_updateAt c (g ∘ f) hj]
  split <;> rfl

end Cast

end Reasoning
