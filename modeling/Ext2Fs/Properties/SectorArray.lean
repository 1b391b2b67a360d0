import Ext2Fs.Reasoning.Runs
import Ext2Fs.Spec.DiskSim

/-!
# The disk simulator

A simulated disk is to be an array of sectors: what is written to a sector is read from it, the
other sectors keep their content, and sectors past the end are refused.
-/

open Reasoning

namespace Ext2Fs

/-- The disk is an array of sectors of `size` bytes. -/
structure IsSectorArray (this : DiskSim) (size : Nat) : Prop where
  write_read : ∀ a b, a < this.numberOfSectors → b < this.numberOfSectors →
    ∀ d buf : List UInt8, d.length = size → buf.length = size →
      ∃ this' previous, disksimWrite this a d = .ok (0, this') ∧
        disksimRead this b buf = .ok (0, previous) ∧
        disksimRead this' b buf = .ok (0, if a = b then d else previous)
  refused : ∀ sector, this.numberOfSectors ≤ sector → ∀ data,
    disksimRead this sector data = .ok (-1, data) ∧ disksimWrite this sector data = .ok (-1, this)

/-- A disk is used through `disksim_write`, with any sector and buffer. -/
def DiskSim.call (this : DiskSim) (c : UInt32 × List UInt8) : Exec DiskSim := do
  let (_, this) ← disksimWrite this c.1 c.2
  return this

/-- The disk that `disksim_init` opens is an array of sectors, and stays one. -/
def SimulatesSectors (malloc : Nat → Option (List UInt8))
    (numberOfSectors bytesPerSector : UInt32) : Prop :=
  ∀ disk, ∃ this, disksimInit malloc numberOfSectors bytesPerSector (some disk) = (0, some this) ∧
    ∀ s, Reachable DiskSim.call (fun _ _ ↦ True) (· = this) s →
      IsSectorArray s bytesPerSector.toNat

section Opened

variable {this : DiskSim} {n b : UInt32} {area : List UInt8}

theorem DiskSim.Opened.call (h : this.Opened n b area) {c : UInt32 × List UInt8} {s : DiskSim}
    (hcall : this.call c = .ok s) : ∃ area', s.Opened n b area' := by
  unfold DiskSim.call at hcall
  rcases bind_eq_ok.mp hcall with ⟨⟨r, this'⟩, hwrite, hcall⟩
  simp only [pure_eq_ok, Except.ok.injEq] at hcall
  rw [← hcall]
  exact disksimWrite_opened h hwrite

-- The geometry and the size of the area are the same all the time.
theorem reachable_opened (h : this.Opened n b area) {s : DiskSim}
    (hs : Reachable DiskSim.call (fun _ _ ↦ True) (· = this) s) : ∃ area', s.Opened n b area' := by
  apply Reachable.invariant (fun s ↦ ∃ area', s.Opened n b area') _ _ hs
  · intro s hs
    rw [hs]
    exact ⟨area, h⟩
  · intro s c s' hinv _ hcall
    rcases hinv with ⟨area', h'⟩
    exact h'.call hcall

-- Where no product wraps, the sectors are ranges of the area that do not overlap.
theorem isSectorArray_of_fits (h : this.Opened n b area) (hb : b.toNat < 2147483648)
    (hfits : n.toNat * b.toNat < 4294967296) : IsSectorArray this b.toNat where
  write_read := by
    intro a c ha hc d buf hd hbuf
    rw [h.numberOfSectors_eq] at ha hc
    rcases disksimWrite_of_fits h hb hfits ha hd with ⟨area', hstore, hwrite⟩
    have h' := h.stored (length_of_storeRange hstore)
    have hin := (offset_of_fits h hb hfits hc).2
    have hin' := (offset_of_fits h' hb hfits hc).2
    refine ⟨_, _, hwrite, disksimRead_of_fits h hb hfits hc hbuf, ?_⟩
    rw [disksimRead_of_fits h' hb hfits hc hbuf]
    by_cases hac : a = c
    · subst hac
      have hself := loadRange_storeRange_self hstore
      rw [hd, loadRange_of_le hin', Except.ok.injEq] at hself
      rw [if_pos rfl, hself]
    · -- two different multiples of the size of a sector are at least that size apart
      have hne : a.toNat ≠ c.toNat := fun heq ↦ hac (UInt32.toNat_inj.mp heq)
      have hapart : a.toNat * b.toNat + b.toNat ≤ c.toNat * b.toNat ∨
          c.toNat * b.toNat + b.toNat ≤ a.toNat * b.toNat := by
        rcases Nat.lt_or_gt_of_ne hne with hlt | hlt
        · left
          rw [← Nat.succ_mul]
          exact Nat.mul_le_mul_right _ hlt
        · right
          rw [← Nat.succ_mul]
          exact Nat.mul_le_mul_right _ hlt
      have hother : loadRange area' (c.toNat * b.toNat) b.toNat =
          loadRange area (c.toNat * b.toNat) b.toNat :=
        loadRange_storeRange_disjoint hstore (by rw [hd]; exact hapart)
      rw [loadRange_of_le hin, loadRange_of_le hin', Except.ok.injEq] at hother
      rw [if_neg hac, hother]
  refused := by
    intro sector hsector data
    rw [h.numberOfSectors_eq] at hsector
    exact ⟨disksimRead_refused h hsector data, disksimWrite_refused h hsector data⟩

-- Without sectors there is nothing to transfer.
theorem isSectorArray_zero (h : this.Opened 0 b area) (size : Nat) : IsSectorArray this size where
  write_read := by
    intro a c ha
    rw [h.numberOfSectors_eq] at ha
    exact absurd ha UInt32.not_lt_zero
  refused := by
    intro sector _ data
    exact ⟨disksimRead_refused h UInt32.zero_le data, disksimWrite_refused h UInt32.zero_le data⟩

-- An `int` that is negative where `memcpy` expects a size: every transfer leaves the buffer.
theorem not_isSectorArray_of_large (h : this.Opened n b area) (hn : n ≠ 0)
    (hb : 2147483648 ≤ b.toNat) : ¬ IsSectorArray this b.toNat := by
  intro harray
  have hpos : 0 < n := UInt32.pos_iff_ne_zero.mpr hn
  have hlen : (List.replicate b.toNat (0 : UInt8)).length = b.toNat := List.length_replicate
  rcases harray.write_read 0 0 (by rw [h.numberOfSectors_eq]; exact hpos)
    (by rw [h.numberOfSectors_eq]; exact hpos) _ _ hlen hlen with ⟨this', previous, hwrite, -⟩
  rw [disksimWrite_eq h hpos, h.toNat_copySize, if_neg (by omega),
    loadRange_of_gt (by omega)] at hwrite
  cases hwrite

-- A product that wraps: the area ends inside a sector of the disk.
theorem not_isSectorArray_of_wrap (h : this.Opened n b area) (hb : b.toNat < 2147483648)
    (hwrap : 4294967296 ≤ n.toNat * b.toNat) : ¬ IsSectorArray this b.toNat := by
  intro harray
  have hpos : 0 < b.toNat := by
    apply Nat.pos_of_ne_zero
    intro h0
    rw [h0, Nat.mul_zero] at hwrap
    omega
  have hlen := h.length_eq
  -- the first sector that does not fit the area
  have hstart : area.length / b.toNat * b.toNat ≤ area.length := Nat.div_mul_le_self _ _
  have hend : area.length < area.length / b.toNat * b.toNat + b.toNat := Nat.lt_div_mul_add hpos
  have hlt : area.length / b.toNat < n.toNat := by
    apply Nat.lt_of_mul_lt_mul_right (a := b.toNat)
    omega
  have hn := n.toNat_lt
  have hsector : (UInt32.ofNat (area.length / b.toNat)).toNat = area.length / b.toNat :=
    UInt32.toNat_ofNat_of_lt (Nat.lt_trans hlt hn)
  have hin : UInt32.ofNat (area.length / b.toNat) < n := by
    rw [UInt32.lt_iff_toNat_lt, hsector]
    exact hlt
  have hbuf : (List.replicate b.toNat (0 : UInt8)).length = b.toNat := List.length_replicate
  rcases harray.write_read _ _ (by rw [h.numberOfSectors_eq]; exact hin)
    (by rw [h.numberOfSectors_eq]; exact hin) _ _ hbuf hbuf with ⟨this', previous, hwrite, -⟩
  rw [disksimWrite_eq h hin, copySize_of_fits h hb, loadRange_all hbuf, ok_bind, h.offset_eq,
    hsector, Nat.mod_eq_of_lt (by omega), storeRange_of_gt (by rw [hbuf]; exact hend)] at hwrite
  cases hwrite

end Opened

section Geometry

variable {malloc : Nat → Option (List UInt8)}

/-- A geometry gives an array of sectors exactly when its size in bytes fits 32 bits and that of a
sector an `int`, or when it has no sectors at all. -/
theorem simulatesSectors_iff
    (hmalloc : ∀ size, ∃ area, malloc size = some area ∧ area.length = size)
    (numberOfSectors bytesPerSector : UInt32) :
    SimulatesSectors malloc numberOfSectors bytesPerSector ↔
      numberOfSectors = 0 ∨ (bytesPerSector.toNat < 2147483648 ∧
        numberOfSectors.toNat * bytesPerSector.toNat < 4294967296) := by
  constructor
  · intro hsim
    rcases disksimInit_opened hmalloc numberOfSectors bytesPerSector ⟨0, 0, none⟩ with
      ⟨this, area, hinit, h⟩
    rcases hsim ⟨0, 0, none⟩ with ⟨this', hinit', harray⟩
    rw [hinit, Prod.mk.injEq, Option.some.injEq] at hinit'
    have hthis := harray this (Reachable.start hinit'.2)
    by_cases hn : numberOfSectors = 0
    · exact Or.inl hn
    right
    by_cases hb : bytesPerSector.toNat < 2147483648
    · refine ⟨hb, Nat.lt_of_not_le fun hwrap ↦ ?_⟩
      exact not_isSectorArray_of_wrap h hb hwrap hthis
    · exact absurd hthis (not_isSectorArray_of_large h hn (by omega))
  · intro hgeometry disk
    rcases disksimInit_opened hmalloc numberOfSectors bytesPerSector disk with
      ⟨this, area, hinit, h⟩
    refine ⟨this, hinit, fun s hs ↦ ?_⟩
    rcases reachable_opened h hs with ⟨area', h'⟩
    rcases hgeometry with rfl | ⟨hb, hfits⟩
    · exact isSectorArray_zero h' _
    · exact isSectorArray_of_fits h' hb hfits

/-- A `malloc` that always succeeds. -/
def zeroedArea (size : Nat) : Option (List UInt8) := some (List.replicate size 0)

theorem zeroedArea_succeeds (size : Nat) :
    ∃ area, zeroedArea size = some area ∧ area.length = size :=
  ⟨_, rfl, List.length_replicate⟩

theorem simulatesSectors_iff_shell :
    SimulatesSectors zeroedArea 524288 512 ↔ (524288 : UInt32) = 0 ∨
      ((512 : UInt32).toNat < 2147483648 ∧
        (524288 : UInt32).toNat * (512 : UInt32).toNat < 4294967296) :=
  simulatesSectors_iff zeroedArea_succeeds 524288 512

/-- 8388608 sectors of 512 bytes: the area allocated for them is empty. -/
theorem not_simulatesSectors : ¬ SimulatesSectors zeroedArea 8388608 512 := by
  intro hsim
  rcases disksimInit_opened zeroedArea_succeeds 8388608 512 ⟨0, 0, none⟩ with ⟨this, area, hinit, h⟩
  rcases hsim ⟨0, 0, none⟩ with ⟨this', hinit', harray⟩
  rw [hinit, Prod.mk.injEq, Option.some.injEq] at hinit'
  exact not_isSectorArray_of_wrap h (by decide) (by decide) (harray this (Reachable.start hinit'.2))

end Geometry

end Ext2Fs
