import Mathlib.Logic.Function.Basic

/-!
# Arrays of cells that refuse accesses past their end
-/

namespace Reasoning

/-- `size` cells; an access to a cell `size` or beyond is refused and changes nothing. -/
structure Store (β : Type) where
  size : Nat
  cell : Nat → β

namespace Store

variable {β : Type}

def read? (s : Store β) (a : Nat) : Option β := if a < s.size then some (s.cell a) else none

def write (s : Store β) (a : Nat) (v : β) : Store β :=
  if a < s.size then { s with cell := Function.update s.cell a v } else s

@[simp] theorem size_write (s : Store β) (a : Nat) (v : β) : (s.write a v).size = s.size := by
  unfold write
  split <;> rfl

theorem read?_of_lt {s : Store β} {a : Nat} (h : a < s.size) : s.read? a = some (s.cell a) :=
  if_pos h

theorem read?_of_ge {s : Store β} {a : Nat} (h : s.size ≤ a) : s.read? a = none :=
  if_neg (Nat.not_lt.mpr h)

theorem cell_write (s : Store β) (a x : Nat) (v : β) :
    (s.write a v).cell x = if x = a ∧ a < s.size then v else s.cell x := by
  unfold write
  by_cases ha : a < s.size
  · by_cases hx : x = a
    · simp [ha, hx]
    · simp [ha, hx]
  · simp [ha]

theorem cell_write_self {s : Store β} {a : Nat} (v : β) (h : a < s.size) :
    (s.write a v).cell a = v := by
  rw [cell_write, if_pos ⟨rfl, h⟩]

theorem cell_write_of_ne {s : Store β} {a x : Nat} (v : β) (h : x ≠ a) :
    (s.write a v).cell x = s.cell x := by
  rw [cell_write, if_neg (fun hx ↦ h hx.1)]

/-- The same value into every cell of a list of addresses. -/
def writeAll (s : Store β) (v : β) (as : List Nat) : Store β :=
  as.foldl (fun s a ↦ s.write a v) s

@[simp] theorem writeAll_nil (s : Store β) (v : β) : s.writeAll v [] = s := rfl

@[simp] theorem writeAll_cons (s : Store β) (v : β) (a : Nat) (as : List Nat) :
    s.writeAll v (a :: as) = (s.write a v).writeAll v as := rfl

@[simp] theorem size_writeAll (s : Store β) (v : β) (as : List Nat) :
    (s.writeAll v as).size = s.size := by
  induction as generalizing s with
  | nil => rfl
  | cons a as ih => rw [writeAll_cons, ih, size_write]

theorem cell_writeAll_of_notMem {s : Store β} {v : β} {as : List Nat} {x : Nat} (h : x ∉ as) :
    (s.writeAll v as).cell x = s.cell x := by
  induction as generalizing s with
  | nil => rfl
  | cons a as ih =>
    rw [List.mem_cons, not_or] at h
    rw [writeAll_cons, ih h.2, cell_write_of_ne v h.1]

theorem cell_writeAll_of_mem {s : Store β} {v : β} {as : List Nat} {x : Nat} (h : x ∈ as)
    (hx : x < s.size) : (s.writeAll v as).cell x = v := by
  induction as generalizing s with
  | nil => cases h
  | cons a as ih =>
    rw [writeAll_cons]
    by_cases hmem : x ∈ as
    · exact ih hmem (by rw [size_write]; exact hx)
    · have hxa : x = a := by simpa [hmem] using h
      subst hxa
      rw [cell_writeAll_of_notMem hmem, cell_write_self v hx]

end Store

/-! ## Images -/

section Overlay

variable {α β : Type}

/-- An image laid over cells: its own values, and the cells where it has none. -/
def overlay (image : α → Option β) (cells : α → β) : α → β := fun a ↦ (image a).getD (cells a)

/-- The first image on top of the second one. -/
def onTop (image below : α → Option β) : α → Option β := fun a ↦ (image a).or (below a)

variable {image below : α → Option β} {cells cells' : α → β}

theorem overlay_of_some {a : α} {v : β} (h : image a = some v) : overlay image cells a = v := by
  rw [overlay, h]
  rfl

theorem overlay_of_none {a : α} (h : image a = none) : overlay image cells a = cells a := by
  rw [overlay, h]
  rfl

theorem overlay_onTop (image below : α → Option β) (cells : α → β) :
    overlay (onTop image below) cells = overlay image (overlay below cells) := by
  funext a
  cases h : image a with
  | none => rw [overlay_of_none h, overlay, onTop, h, Option.none_or, overlay]
  | some v => rw [overlay_of_some h, overlay, onTop, h, Option.some_or, Option.getD_some]

-- The second time an image changes nothing, also when other cells were written in between.
theorem overlay_eq_self (h : ∀ a, image a = none ∨ cells' a = overlay image cells a) :
    overlay image cells' = cells' := by
  funext a
  cases hv : image a with
  | none => exact overlay_of_none hv
  | some v =>
    rcases h a with hnone | hcell
    · rw [hv] at hnone
      cases hnone
    · rw [hcell, overlay_of_some hv, overlay_of_some hv]

theorem overlay_overlay (image : α → Option β) (cells : α → β) :
    overlay image (overlay image cells) = overlay image cells :=
  overlay_eq_self fun _ ↦ Or.inr rfl

-- Two arrays under one image differ only where it is open.
theorem overlay_cases (image : α → Option β) (cells cells' : α → β) (a : α) :
    overlay image cells a = overlay image cells' a ∨
      (overlay image cells a = cells a ∧ overlay image cells' a = cells' a) := by
  cases h : image a with
  | none => exact Or.inr ⟨overlay_of_none h, overlay_of_none h⟩
  | some v => exact Or.inl (by rw [overlay_of_some h, overlay_of_some h])

end Overlay

end Reasoning
