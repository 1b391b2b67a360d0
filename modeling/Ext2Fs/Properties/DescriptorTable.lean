import Ext2Fs.Spec.Mount

/-!
# The group descriptor table

The table has as many copies as there are groups, and `read_desc` looks for every descriptor in the
first sector of the first copy.
-/

open Reasoning

namespace Ext2Fs

/-- Descriptor `g` in the copy of the table that group `j` holds. -/
def DiskOperations.storedDesc (disk : DiskOperations) (j g : Nat) : Ext2GroupDesc :=
  getElem (asDescs (disk.content (262144 * j + 8 + g / 16))) (g % 16) (record_lt g)

/-- The descriptor that `fill_desc` computes for group `g`, with the counters that `create_root`
updates for the first one. -/
def formattedDesc (disk : DiskOperations) (g : Nat) : Ext2GroupDesc :=
  if g = 0 then countRoot (fillDesc disk disk.newSb 0) else fillDesc disk disk.newSb (UInt32.ofNat g)

/-- After `ext2_format` every copy of the table holds the descriptor of every group, and
`read_desc` returns the six fields of each. -/
def DescTableStored (disk : DiskOperations) : Prop :=
  ∃ fs root, Mounted disk fs root ∧ ∀ g, g < disk.groups →
    (∀ j, j < disk.groups → fs.disk.storedDesc j g = formattedDesc disk g) ∧
    readDesc fs (UInt32.ofNat g) = some (copyDesc (formattedDesc disk g))

section Table

variable {disk : DiskOperations}

theorem formattedDesc_eq (hpos : 1 ≤ disk.groups) (g : Nat) :
    formattedDesc disk g = if g = 0 then countRoot newDesc else newDesc := by
  unfold formattedDesc
  rw [fillDesc_eq hpos, fillDesc_eq hpos]

-- The descriptors of at most sixteen groups share one sector.
theorem Formatted.storedDesc_eq {disk' : DiskOperations} (h : Formatted disk disk') {j g : Nat}
    (hfew : disk.groups ≤ 16) (hj : j < disk.groups) (hg : g < disk.groups) :
    disk'.storedDesc j g = formattedDesc disk g := by
  have hsector : 262144 * j + 8 + g / 16 = 262144 * j + 8 := by omega
  have hslot : g % 16 = g := by omega
  unfold DiskOperations.storedDesc
  simp only [hsector, hslot, h.descs j hj, Equiv.apply_symm_apply]
  rw [getElem_newDescs (by omega), formattedDesc_eq (by omega), if_pos hg]

theorem descTableStored_of_le (hpos : 1 ≤ disk.groups) (hfew : disk.groups ≤ 16) :
    DescTableStored disk := by
  obtain ⟨disk', h, hmount⟩ := exists_mounted hpos hfew
  refine ⟨_, _, hmount, fun g hg ↦ ⟨fun j hj ↦ h.storedDesc_eq hfew hj hg, ?_⟩⟩
  have hgroups : (newFs disk disk').disk.groups = disk.groups := groups_congr h.sectors_eq
  rw [readDesc_of_lt (newFs disk disk') rfl (by omega) (UInt32.toNat_ofNat_of_lt' (by
    change g < 4294967296; omega)) (show g < 16 by omega)]
  have hstored := h.storedDesc_eq hfew hpos hg
  unfold DiskOperations.storedDesc at hstored
  have hsector : 262144 * 0 + 8 + g / 16 = 8 := by omega
  have hslot : g % 16 = g := by omega
  simp only [hsector, hslot] at hstored
  rw [← hstored]
  rfl

-- Past sixteen groups `create_root` finds no descriptor where it looks.
theorem FormattedLarge.storedDesc_zero {disk' : DiskOperations} (h : FormattedLarge disk disk')
    (hpos : 0 < disk.groups) : disk'.storedDesc 0 0 = countRoot Ext2GroupDesc.zero := by
  unfold DiskOperations.storedDesc
  simp only [Nat.zero_div, Nat.add_zero, Nat.zero_mod, h.descs 0 hpos, Equiv.apply_symm_apply]
  rw [Vector.getElem_set_self]

theorem not_descTableStored_of_lt (hmany : 16 < disk.groups) : ¬ DescTableStored disk := by
  rintro ⟨fs, root, hmount, htable⟩
  obtain ⟨disk', count, h, -, hmount'⟩ := exists_mounted_large hmany
  obtain ⟨rfl, -⟩ := mounted_unique hmount hmount'
  have hstored := (htable 0 (by omega)).1 0 (by omega)
  rw [largeFs_disk, h.storedDesc_zero (by omega), formattedDesc_eq (by omega), if_pos rfl] at hstored
  exact absurd hstored (by decide)

end Table

/-- The descriptor table is right exactly when it fits one sector. -/
theorem descTableStored_iff {disk : DiskOperations} (hpos : 1 ≤ disk.groups) :
    DescTableStored disk ↔ disk.groups ≤ 16 := by
  refine ⟨fun h ↦ ?_, descTableStored_of_le hpos⟩
  by_contra hmany
  exact not_descTableStored_of_lt (by omega) h

theorem descTableStored_iff_zeroedDisk :
    DescTableStored (zeroedDisk 262144) ↔ (zeroedDisk 262144).groups ≤ 16 :=
  descTableStored_iff (by decide)

theorem not_descTableStored_seventeen :
    (zeroedDisk 4456448).groups = 17 ∧ ¬ DescTableStored (zeroedDisk 4456448) :=
  ⟨by decide, not_descTableStored_of_lt (by decide)⟩

end Ext2Fs
