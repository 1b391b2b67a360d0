import Ext2Fs.Spec.FormatTrace
import Ext2Fs.Spec.Mount

/-!
# Geometry

The counts that `ext2_format` computes against the size of the disk.  The product
`numberOfSectors * bytesPerSector` has 32 bits, and is rounded down to whole groups without a test
for zero.
-/

open Reasoning

namespace Ext2Fs

/-! ## Exact counts -/

/-- The number of groups, computed without wrap. -/
def exactGroups (disk : DiskOperations) : Nat :=
  disk.numberOfSectors.toNat * disk.bytesPerSector.toNat / 134217728

/-- The number of blocks of the descriptor table. -/
def exactDescBlocks (groups : Nat) : Nat := (32 * groups + 4095) / 4096

/-- The format returns.  A disk without a group is rejected; on success the counts of the superblock
on the disk are exact, and so is the free count that `fill_sb` computes before the root is made; and
only existing sectors are written. -/
def GeometryExact (disk : DiskOperations) : Prop :=
  ∃ r t, TracedDisk.ext2Format disk = .ok (r, t) ∧
    (exactGroups disk = 0 → r = ext2Error) ∧
    (r = ext2Success →
      (asSuperBlock (t.disk.content 0)).sBlocksCount.toNat = 32768 * exactGroups disk ∧
      (asSuperBlock (t.disk.content 0)).sInodesCount.toNat = 1024 * exactGroups disk ∧
      (fillSb disk.numberOfSectors disk.bytesPerSector).sFreeBlocksCount.toNat +
        exactGroups disk * (35 + exactDescBlocks (exactGroups disk)) = 32768 * exactGroups disk ∧
      ∀ sector ∈ t.written, sector.toNat < disk.numberOfSectors.toNat)

variable {disk : DiskOperations}

theorem exactGroups_eq (disk : DiskOperations) :
    exactGroups disk = disk.numberOfSectors.toNat / 262144 := by
  rw [exactGroups, disk.bytesPerSector_eq]
  simp
  omega

theorem groups_eq_mod (disk : DiskOperations) : disk.groups = exactGroups disk % 32 := by
  rw [exactGroups_eq, disk.groups_eq]
  omega

-- No path of `ext2_format` returns `EXT2_ERROR`.
theorem ext2Format_success {r : Int} {t : TracedDisk}
    (h : TracedDisk.ext2Format disk = .ok (r, t)) : r = ext2Success := by
  unfold TracedDisk.ext2Format at h
  rcases bind_eq_ok.mp h with ⟨st, -, h⟩
  rcases bind_eq_ok.mp h with ⟨t', -, h⟩
  simp only [pure_eq_ok, Except.ok.injEq, Prod.mk.injEq] at h
  exact h.1.symm

theorem GeometryExact.groups_pos (h : GeometryExact disk) : 1 ≤ exactGroups disk := by
  rcases h with ⟨r, t, hrun, hreject, -⟩
  have hsuccess := ext2Format_success hrun
  apply Nat.pos_of_ne_zero
  intro hzero
  rw [hreject hzero] at hsuccess
  cases hsuccess

/-! ## Disks whose size wraps to no group -/

theorem newSb_sFreeBlocksCount_zero (hzero : disk.groups = 0) : disk.newSb.sFreeBlocksCount = 0 := by
  have hcount : disk.groupCount = 0 := UInt32.toNat_inj.mp hzero
  change (((32768 * ((disk.numberOfSectors * disk.bytesPerSector).toUInt64 / 134217728)).toUInt32
    ).toUInt64 - (disk.numberOfSectors * disk.bytesPerSector).toUInt64 / 134217728 *
      (128 * 1024 / 4096 + (descBlockCount disk.groupCount).toUInt64 + 3)).toUInt32 = 0
  rw [diskSize_div, hcount]
  decide

theorem GeometryExact.groups_ne (h : GeometryExact disk) : disk.groups ≠ 0 := by
  intro hzero
  have hpos := h.groups_pos
  have hlt := disk.numberOfSectors.toNat_lt
  have hexact := exactGroups_eq disk
  rcases h with ⟨r, t, hrun, -, hcounts⟩
  have hfree := (hcounts (ext2Format_success hrun)).2.2.1
  rw [newSb_sFreeBlocksCount_zero hzero, UInt32.toNat_zero, Nat.zero_add,
    Nat.mul_comm 32768] at hfree
  have hdesc := Nat.eq_of_mul_eq_mul_left hpos hfree
  unfold exactDescBlocks at hdesc
  omega

/-! ## Disks whose size wraps to some groups -/

-- The inode count in the first sector tells the number of groups that were formatted.
theorem GeometryExact.groups_eq (h : GeometryExact disk) (hfew : disk.groups ≤ 16) :
    disk.groups = exactGroups disk := by
  have hpos : 1 ≤ disk.groups := Nat.pos_of_ne_zero h.groups_ne
  rcases h with ⟨r, t, hrun, -, hcounts⟩
  have hinodes := (hcounts (ext2Format_success hrun)).2.1
  rcases TracedDisk.ext2Format_inRange hpos hfew with ⟨t', hrun', hformatted, -⟩
  rw [hrun, Except.ok.injEq, Prod.mk.injEq] at hrun'
  rcases hrun' with ⟨-, rfl⟩
  have hsb := hformatted.superBlock 0 hpos
  rw [Nat.mul_zero] at hsb
  have hcount : (countRootSb disk.newSb).sInodesCount.toNat = 1024 * disk.groups :=
    newSb_sInodesCount disk
  rw [hsb, Equiv.apply_symm_apply, hcount] at hinodes
  omega

-- Past sixteen groups `create_root` sets a bit in the block count of the first superblock.
theorem GeometryExact.few (h : GeometryExact disk) : disk.groups ≤ 16 := by
  apply Nat.le_of_not_lt
  intro hmany
  rcases h with ⟨r, t, hrun, -, hcounts⟩
  rcases hcounts (ext2Format_success hrun) with ⟨hblocks, -⟩
  rcases ext2Format_formattedLarge hmany with ⟨disk', hformat, hlarge⟩
  rw [TracedDisk.ext2Format_erase, hrun, ok_bind, Except.ok.injEq, Prod.mk.injEq] at hformat
  rcases hformat with ⟨-, rfl⟩
  have hset := hlarge.superBlock
  rw [setBit_of_lt (by decide), Except.ok.injEq] at hset
  rcases superBlock_set (countRootSb disk.newSb)
    ((asSuperBlock.symm (countRootSb disk.newSb))[4] ||| bitMask (32 % 8)) with ⟨count, hcount⟩
  have hcontent : t.disk.content 0 =
      asSuperBlock.symm ((countRootSb disk.newSb).withBlocksCount count) := by
    rw [← hset]
    exact hcount
  rw [hcontent, Equiv.apply_symm_apply] at hblocks
  -- an exact block count has a clear low byte, but the bit is set there
  have hbyte := superBlock_blocksCount ((countRootSb disk.newSb).withBlocksCount count)
  rw [hblocks, ← hcount, Vector.getElem_set_self] at hbyte
  have hlow : ∀ groups, UInt8.ofNat (32768 * groups) = 0 := by
    intro groups
    apply UInt8.toNat_inj.mp
    simp
  have hold : (asSuperBlock.symm (countRootSb disk.newSb))[4] = 0 := by
    rw [superBlock_blocksCount]
    exact (congrArg UInt8.ofNat (newSb_sBlocksCount disk)).trans (hlow disk.groups)
  rw [hlow, hold] at hbyte
  exact absurd hbyte (by decide)

/-! ## The condition -/

theorem geometryExact_of_few (hpos : 1 ≤ disk.groups) (hfew : disk.groups ≤ 16)
    (hexact : disk.groups = exactGroups disk) : GeometryExact disk := by
  rcases TracedDisk.ext2Format_inRange hpos hfew with ⟨t, hrun, hformatted, hwritten⟩
  have hsb := hformatted.superBlock 0 hpos
  rw [Nat.mul_zero] at hsb
  have hdesc : exactDescBlocks (exactGroups disk) = 1 := by
    unfold exactDescBlocks
    omega
  refine ⟨ext2Success, t, hrun, fun hzero ↦ absurd hzero (by omega), fun _ ↦ ?_⟩
  rw [hsb, Equiv.apply_symm_apply, hdesc, ← hexact]
  refine ⟨newSb_sBlocksCount disk, newSb_sInodesCount disk, ?_, hwritten⟩
  have hfree := newSb_sFreeBlocksCount disk hpos
  change disk.newSb.sFreeBlocksCount.toNat + _ = _
  omega

/-- The geometry is exact on disks of 1 to 16 groups. -/
theorem geometryExact_iff (disk : DiskOperations) :
    GeometryExact disk ↔
      262144 ≤ disk.numberOfSectors.toNat ∧ disk.numberOfSectors.toNat < 4456448 := by
  have hexact := exactGroups_eq disk
  have hmod := groups_eq_mod disk
  constructor
  · intro h
    have hpos := h.groups_pos
    have hfew := h.few
    have hgroups := h.groups_eq hfew
    omega
  · intro h
    exact geometryExact_of_few (by omega) (by omega) (by omega)

/-- Too small a disk, and one whose size in bytes wraps around. -/
theorem not_geometryExact :
    ¬ GeometryExact (zeroedDisk 262143) ∧ ¬ GeometryExact (zeroedDisk 8650752) := by
  constructor
  · intro h
    exact absurd h.groups_pos (by decide)
  · intro h
    exact absurd (h.groups_eq (by decide)) (by decide)

end Ext2Fs
