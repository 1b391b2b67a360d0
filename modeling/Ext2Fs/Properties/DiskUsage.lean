import Ext2Fs.Model.Ext2Shell
import Ext2Fs.Properties.MkdirCounters
import Mathlib.Algebra.Order.BigOperators.Group.Finset

/-!
# Disk usage

What `ext2_df` reports of a file system in use, against the bitmaps on its disk.
-/

open Reasoning

namespace Ext2Fs

/-! ## The property -/

/-- The number of clear bits in the block bitmaps of all groups. -/
def clearBlocks (fs : Ext2Filesystem) : Nat :=
  ∑ g ∈ Finset.range fs.disk.groups,
    clearCount (fs.disk.blockBit (fs.disk.storedDesc 0 g).bgBlockBitmap) 32768

/-- Both outputs are assigned, in numbers that leave out nothing, and the free figure is the space
that the bitmaps show as free. -/
structure UsageReported (fs : Ext2Filesystem) : Prop where
  outputs : ∃ total used : UInt32, (ext2Df fs DfOutputs.uninit).2 = ⟨some total, some used⟩ ∧
    total.toNat = 8 * fs.spb.sBlocksCount.toNat ∧ used.toNat ≤ total.toNat ∧
    total.toNat - used.toNat = 8 * clearBlocks fs
  printed : ∃ free, (shellCmdDf fs).free = some free ∧ free.toNat = 8 * clearBlocks fs

/-! ## What the code does -/

section State

variable {fs : Ext2Filesystem}

-- The total is not assigned when there are blocks.
theorem ext2Df_of_ne (h : fs.spb.sBlocksCount ≠ 0) (out : DfOutputs) :
    (ext2Df fs out).2.totalSectors = out.totalSectors := by
  unfold ext2Df
  rw [if_pos h]

theorem ext2Df_of_eq (h : fs.spb.sBlocksCount = 0) (out : DfOutputs) :
    (ext2Df fs out).2 =
      ⟨some (fs.spb.sFreeBlocksCount * 8), some ((0 - fs.spb.sFreeBlocksCount) * 8)⟩ := by
  unfold ext2Df
  rw [if_neg (not_not.mpr h), h]

theorem not_usageReported (h : fs.spb.sBlocksCount ≠ 0) : ¬ UsageReported fs := by
  intro hreported
  rcases hreported.outputs with ⟨total, used, hout, -⟩
  have htotal := ext2Df_of_ne h DfOutputs.uninit
  rw [hout] at htotal
  cases htotal

theorem usageReported_iff_state : UsageReported fs ↔
    fs.spb.sBlocksCount = 0 ∧ fs.spb.sFreeBlocksCount * 8 = 0 ∧ clearBlocks fs = 0 := by
  constructor
  · intro h
    have hzero : fs.spb.sBlocksCount = 0 := by
      by_contra hne
      exact not_usageReported hne h
    rcases h.outputs with ⟨total, used, hout, htotal, -, hfree⟩
    rw [ext2Df_of_eq hzero, DfOutputs.mk.injEq, Option.some.injEq] at hout
    rw [hzero, UInt32.toNat_zero, Nat.mul_zero] at htotal
    refine ⟨hzero, ?_, by omega⟩
    rw [hout.1]
    exact UInt32.toNat_inj.mp htotal
  · rintro ⟨hzero, hwrap, hclear⟩
    have hused : (0 - fs.spb.sFreeBlocksCount) * 8 = 0 := by
      rw [UInt32.zero_sub, UInt32.neg_mul, hwrap]
      rfl
    have hout := ext2Df_of_eq hzero DfOutputs.uninit
    rw [hwrap, hused] at hout
    constructor
    · refine ⟨0, 0, hout, ?_, Nat.le_refl _, ?_⟩
      · rw [hzero]
        rfl
      · rw [hclear]
        rfl
    · refine ⟨0, ?_, ?_⟩
      · unfold shellCmdDf fsStat
        simp only [hout]
        rfl
      · rw [hclear]
        rfl

end State

/-! ## The number of blocks -/

section Blocks

variable {disk : DiskOperations} {s : Session}

theorem sBlocksCount_callSb (op : DirOp) (sb : Ext2SuperBlock) :
    (callSb op sb).sBlocksCount = sb.sBlocksCount := by
  cases op with
  | mkdir => rfl
  | create => rfl

-- No call changes the number that the format wrote.
theorem InUse.sBlocksCount_eq (h : InUse disk s) (hpos : 1 ≤ disk.groups)
    (hfew : disk.groups ≤ 16) : s.fs.spb.sBlocksCount = disk.newSb.sBlocksCount := by
  have hboth : Serving disk s ∧ s.fs.spb.sBlocksCount = disk.newSb.sBlocksCount := by
    refine Reachable.invariant
      (fun s ↦ Serving disk s ∧ s.fs.spb.sBlocksCount = disk.newSb.sBlocksCount) ?_ ?_ h
    · intro s hs
      refine ⟨(Session.Fresh.serving hs hpos hfew).1, ?_⟩
      rcases exists_mounted hpos hfew with ⟨disk', -, hmount⟩
      rw [(mounted_unique hs.1 hmount).1]
      rfl
    · intro s c s' hs hknows hcall
      refine ⟨hs.1.call hknows hcall, ?_⟩
      rcases hs.1.call_counted hknows hcall with rfl | ⟨fs', m, -, hcounted, rfl⟩
      · exact hs.2
      · simp only [hcounted.spb_eq]
        rw [sBlocksCount_callSb, hs.2]
  exact hboth.2

-- On more than sixteen groups the mark of the root's block goes into the number itself.
theorem InUse.sBlocksCount_large (h : InUse disk s) (hmany : 16 < disk.groups) :
    s.fs.spb.sBlocksCount ≠ 0 := by
  rcases exists_mounted_large hmany with ⟨disk', count, hlarge, hsb, hmount⟩
  rw [(mounted_unique (h.fresh hmany).1 hmount).1]
  intro hzero
  have hbyte := superBlock_blocksCount (largeFs disk disk' count).spb
  rw [hzero] at hbyte
  have hset := hlarge.superBlock
  rw [setBit_of_lt (show 32 / 8 < 512 by decide), Except.ok.injEq, hsb] at hset
  have hmarked := congrArg (fun sector : Sector ↦ getElem sector 4 (by decide)) hset
  change getElem (Vector.set _ 4 _ _) 4 _ = getElem (asSuperBlock.symm _) 4 _ at hmarked
  rw [Vector.getElem_set_self, hbyte] at hmarked
  exact absurd (UInt8.or_eq_zero_iff.mp hmarked).2 (by decide)

theorem InUse.sBlocksCount_ne_zero (h : InUse disk s) (hpos : 1 ≤ disk.groups) :
    s.fs.spb.sBlocksCount ≠ 0 := by
  by_cases hfew : disk.groups ≤ 16
  · intro hzero
    have hcount := newSb_sBlocksCount disk
    rw [← h.sBlocksCount_eq hpos hfew, hzero, UInt32.toNat_zero] at hcount
    omega
  · exact h.sBlocksCount_large (Nat.lt_of_not_le hfew)

/-- The usage is reported only of a file system without blocks, and a disk with a block group never
holds one. -/
theorem usageReported_iff (h : InUse disk s) :
    (UsageReported s.fs ↔ s.fs.spb.sBlocksCount = 0 ∧ s.fs.spb.sFreeBlocksCount * 8 = 0 ∧
      clearBlocks s.fs = 0) ∧
    (1 ≤ disk.groups → ¬ UsageReported s.fs) :=
  ⟨usageReported_iff_state, fun hpos ↦ not_usageReported (h.sBlocksCount_ne_zero hpos)⟩

end Blocks

theorem zeroedDisk_inUse : ∃ s : Session, InUse (zeroedDisk 262144) s := by
  rcases exists_mounted (show 1 ≤ (zeroedDisk 262144).groups by decide) (by decide) with
    ⟨disk', -, hmount⟩
  exact ⟨⟨_, _, []⟩, .start ⟨hmount, rfl⟩⟩

theorem usageReported_iff_zeroedDisk : ∃ s : Session, InUse (zeroedDisk 262144) s ∧
    ((UsageReported s.fs ↔ s.fs.spb.sBlocksCount = 0 ∧ s.fs.spb.sFreeBlocksCount * 8 = 0 ∧
      clearBlocks s.fs = 0) ∧
    (1 ≤ (zeroedDisk 262144).groups → ¬ UsageReported s.fs)) := by
  rcases zeroedDisk_inUse with ⟨s, huse⟩
  exact ⟨s, huse, usageReported_iff huse⟩

/-- `df` right after a disk of one group was formatted and mounted. -/
theorem not_usageReported_zeroedDisk : ¬ ∀ (disk : DiskOperations) (s : Session), InUse disk s →
    UsageReported s.fs := by
  intro hall
  rcases zeroedDisk_inUse with ⟨s, huse⟩
  exact not_usageReported (huse.sBlocksCount_ne_zero (by decide)) (hall _ s huse)

end Ext2Fs
