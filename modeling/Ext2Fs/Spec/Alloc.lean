import Ext2Fs.Spec.Mount

/-!
# What the allocators do on a formatted disk

The descriptor of every group designates the bitmaps of the first one, so that both allocators scan
and mark the sectors 16 and 24, whatever group they count for.
-/

open Reasoning

namespace Ext2Fs

/-! ## Counters -/

section Decrement

-- A positive counter goes down by one.
theorem toNat_pred16 {c : UInt16} (hc : 0 < c.toNat) : (c - 1).toNat + 1 = c.toNat := by
  have hlt := c.toNat_lt
  rw [UInt16.toNat_sub]
  simp
  omega

theorem toNat_pred32 {c : UInt32} (hc : 0 < c.toNat) : (c - 1).toNat + 1 = c.toNat := by
  have hlt := c.toNat_lt
  rw [UInt32.toNat_sub]
  simp
  omega

theorem toNat_pos16 {c : UInt16} (hc : c ≠ 0) : 0 < c.toNat := by
  apply Nat.pos_of_ne_zero
  exact fun h ↦ hc (UInt16.toNat_inj.mp h)

theorem toNat_pos32 {c : UInt32} (hc : c ≠ 0) : 0 < c.toNat := by
  apply Nat.pos_of_ne_zero
  exact fun h ↦ hc (UInt32.toNat_inj.mp h)

end Decrement

/-- The sectors of a disk after both counters were written back. -/
def countedContent (disk : DiskOperations) (spb : Ext2SuperBlock) (first : Nat)
    (descs : Vector Ext2GroupDesc 16) (x : Nat) : Sector :=
  if x % 262144 = 8 ∧ x / 262144 < disk.groups then asDescs.symm descs
  else if x % 262144 = 0 ∧ first ≤ x / 262144 ∧ x / 262144 < disk.groups then asSuperBlock.symm spb
  else disk.content x

theorem writeCounts_spec (disk : DiskOperations) (spb : Ext2SuperBlock)
    (h0 : spb.sFirstDataBlock = 0) (hpos : 1 ≤ disk.groups) (first : Nat) (sector : Sector)
    {groupNum : UInt32} {k : Nat} (hgroup : groupNum.toNat = k) (hk : k < 16)
    (count : Ext2GroupDesc → Ext2GroupDesc) :
    ∃ fs, writeCounts disk spb first sector groupNum count = .ok fs ∧ fs.spb = spb ∧
      fs.disk.numberOfSectors = disk.numberOfSectors ∧
      ∀ x, fs.disk.content x = countedContent disk spb first
        ((asDescs (disk.content 8)).set k (count (asDescs (disk.content 8))[k])) x := by
  subst hgroup
  have hn : (writeSuperBlocks disk spb first).numberOfSectors = disk.numberOfSectors :=
    numberOfSectors_writeSuperBlocks first
  have hg : (writeSuperBlocks disk spb first).groups = disk.groups := groups_congr hn
  have h8 : (writeSuperBlocks disk spb first).content 8 = disk.content 8 := by
    rw [content_writeSuperBlocks h0, if_neg (by omega)]
  have hread := readSector_descs ⟨spb, writeSuperBlocks disk spb first⟩ h0 (by rw [hg]; exact hpos)
    (some sector)
  rw [h8] at hread
  refine ⟨⟨spb, writeDescSectors (writeSuperBlocks disk spb first) spb (asDescs.symm
    ((asDescs (disk.content 8)).set groupNum.toNat
      (count (asDescs (disk.content 8))[groupNum.toNat])))⟩,
    ?_, rfl, ?_, fun x ↦ ?_⟩
  · unfold writeCounts
    simp only [hread, determinate_some, ok_bind]
    rw [modifyAt_of_lt _ _ hk, ok_bind]
    rfl
  · rw [numberOfSectors_writeDescSectors, hn]
  · rw [content_writeDescSectors h0, content_writeSuperBlocks h0, hg]
    rfl

-- A bitmap sector of the first group and then both counters are written back.  In sector 0 the
-- superblock has the last word.
theorem markAndCount_spec {fs : Ext2Filesystem} (hpos : 1 ≤ fs.disk.groups) {bitmap : UInt32}
    (hne : bitmap.toNat ≠ 8) (hsmall : bitmap.toNat < 262144) (bits : Sector) {spb : Ext2SuperBlock}
    (h0 : spb.sFirstDataBlock = 0) {groupNum : UInt32} {k : Nat} (hgroup : groupNum.toNat = k)
    (hk : k < 16) (count : Ext2GroupDesc → Ext2GroupDesc) :
    ∃ fs', writeCounts (fs.disk.writeSector bitmap bits) spb 0 bits groupNum count = .ok fs' ∧
      fs'.spb = spb ∧ fs'.disk.numberOfSectors = fs.disk.numberOfSectors ∧
      ∀ x, fs'.disk.content x = if bitmap.toNat ≠ 0 ∧ x = bitmap.toNat then bits
        else countedContent fs.disk spb 0 (fs.descs.set k (count fs.descs[k])) x := by
  have hfit := fs.disk.groups_fit
  have hg : (fs.disk.writeSector bitmap bits).groups = fs.disk.groups :=
    DiskOperations.groups_writeSector _ _
  have hin : bitmap.toNat < fs.disk.numberOfSectors.toNat := by omega
  have hc : ∀ x, (fs.disk.writeSector bitmap bits).content x =
      if x = bitmap.toNat then bits else fs.disk.content x :=
    fun x ↦ DiskOperations.content_writeSector bits hin
  have hdescs : asDescs ((fs.disk.writeSector bitmap bits).content 8) = fs.descs := by
    rw [hc, if_neg (by omega), Ext2Filesystem.descs]
  obtain ⟨fs', hrun, hspb, hn, hc'⟩ := writeCounts_spec (fs.disk.writeSector bitmap bits) spb h0
    (by rw [hg]; exact hpos) 0 bits hgroup hk count
  refine ⟨fs', hrun, hspb, hn.trans (DiskOperations.numberOfSectors_writeSector _), fun x ↦ ?_⟩
  rw [hc', hdescs]
  unfold countedContent
  rw [hc, hg]
  grind

/-! ## alloc_free_block -/

section Block

variable {fs : Ext2Filesystem} {parent : Ext2Node} {k : Nat}
  (h0 : fs.spb.sFirstDataBlock = 0) (hpos : 1 ≤ fs.disk.groups)
  (hgroup : (parent.entry.inode / inodesPerGroup).toNat = k) (hk : k < 16)

-- The scan of a bitmap sector that is a prefix of ones.
theorem scanBlockBitmap_onesPrefix {groupNum : UInt32} {desc : Ext2GroupDesc} {i m : Nat}
    (hi : i < 8) (hpos : 1 ≤ fs.disk.groups) (hdesc : desc.bgBlockBitmap = 2)
    (hbits : fs.disk.content (16 + i) = onesPrefix 512 m) (buf : Option Sector) (is : List Nat) :
    scanBlockBitmap fs groupNum desc buf (i :: is) =
      if m < 4096 then
        takeBlock fs groupNum desc i (onesPrefix 512 m) (m / 8) (leadingOnes (m % 8))
      else scanBlockBitmap fs groupNum desc (some (onesPrefix 512 m)) is := by
  have hfit := fs.disk.groups_fit
  have hread : (fs.disk.readSector
      (UInt32.ofNat i + allocBlockBitmapBlock desc * sectorsPerBlock) buf).2 =
        some (onesPrefix 512 m) := by
    refine DiskOperations.readSector_eq buf ?_ (by omega) hbits
    simp [hdesc]
    omega
  rw [scanBlockBitmap, hread, determinate_some, ok_bind, findIdx_onesPrefix]
  by_cases hm : m < 4096
  · have hbyte : (onesPrefix 512 m).toList.getD (m / 8) 0 = leadingOnes (m % 8) := by
      rw [List.getD_eq_getElem?_getD, List.getElem?_eq_getElem (by simp; omega), Option.getD_some,
        Vector.getElem_toList, getElem_onesPrefix (by omega)]
      congr 1
      unfold prefixRun
      omega
    rw [if_pos hm, if_pos hm]
    simp only [hbyte]
  · rw [if_neg hm, if_neg hm]

include h0 hpos hgroup hk

theorem allocFreeBlock_eq_scan : allocFreeBlock fs parent =
    scanBlockBitmap fs (parent.entry.inode / inodesPerGroup) (copyDesc fs.descs[k]) none
      (List.range 8) := by
  rw [allocFreeBlock, readDesc_of_lt fs h0 hpos hgroup hk, determinate_some, ok_bind]

variable (hmap : fs.descs[k].bgBlockBitmap = 2)

include hmap

-- The bitmap's first sector has a clear bit.
theorem allocFreeBlock_spec {m : Nat} (hbits : fs.disk.content 16 = onesPrefix 512 m)
    (hm : m < 4096) :
    ∃ fs', allocFreeBlock fs parent = .ok ((m : Int), fs') ∧ fs'.spb = countBlockSb fs.spb ∧
      fs'.disk.numberOfSectors = fs.disk.numberOfSectors ∧
      ∀ x, fs'.disk.content x =
        if x = 16 then onesPrefix 512 (m + 1)
        else countedContent fs.disk (countBlockSb fs.spb) 0
          (fs.descs.set k (countBlock fs.descs[k])) x := by
  have hcopy := (copyDesc_bgBlockBitmap fs.descs[k]).trans hmap
  have haddr : UInt32.ofNat 0 + allocBlockBitmapBlock (copyDesc fs.descs[k]) * sectorsPerBlock =
      16 := by
    rw [allocBlockBitmapBlock, hcopy]
    rfl
  obtain ⟨fs', hrun, hspb, hn, hc⟩ := markAndCount_spec hpos
    (show (16 : UInt32).toNat ≠ 8 by decide) (by decide) (onesPrefix 512 (m + 1))
    (show (countBlockSb fs.spb).sFirstDataBlock = 0 from h0) hgroup hk countBlock
  refine ⟨fs', ?_, hspb, hn, fun x ↦ ?_⟩
  · rw [allocFreeBlock_eq_scan h0 hpos hgroup hk]
    change scanBlockBitmap _ _ _ _ (0 :: [1, 2, 3, 4, 5, 6, 7]) = _
    rw [scanBlockBitmap_onesPrefix (by decide) hpos hcopy hbits, if_pos hm, takeBlock,
      blockOffset_leadingOnes (Nat.mod_lt m (by decide)), determinate_some, ok_bind]
    have hnum : (0 * 512 + m / 8) * 8 + m % 8 = m := by omega
    simp only [hnum]
    rw [setBit_onesPrefix hm, ok_bind, haddr, hrun, ok_bind]
    rfl
  · rw [hc]
    simp

-- The bitmap's first sector is full: the bit number no longer fits the buffer.
theorem allocFreeBlock_full (hbits : fs.disk.content 16 = onesPrefix 512 4096)
    (hnext : fs.disk.content 17 = zeroSector) : allocFreeBlock fs parent = .error .outOfBounds := by
  have hcopy := (copyDesc_bgBlockBitmap fs.descs[k]).trans hmap
  have hclear : fs.disk.content (16 + 1) = onesPrefix 512 0 :=
    hnext.trans (onesPrefix_zero 512).symm
  rw [allocFreeBlock_eq_scan h0 hpos hgroup hk]
  change scanBlockBitmap _ _ _ _ (0 :: 1 :: [2, 3, 4, 5, 6, 7]) = _
  rw [scanBlockBitmap_onesPrefix (by decide) hpos hcopy hbits, if_neg (by decide),
    scanBlockBitmap_onesPrefix (by decide) hpos hcopy hclear, if_pos (by decide), takeBlock,
    blockOffset_leadingOnes (by decide), determinate_some, ok_bind]
  have hnum : (1 * 512 + 0 / 8) * 8 + 0 % 8 = 4096 := rfl
  simp only [hnum]
  rw [setBit_of_ge (Nat.le_refl _), error_bind]

omit hmap in
-- A bitmap at block 0, whose first byte is clear: the bit that is set in it is lost when the
-- superblock is written over it.
theorem allocFreeBlock_spec_zero (hmap : fs.descs[k].bgBlockBitmap = 0)
    (hbyte : (fs.disk.content 0)[0] = 0) :
    ∃ fs', allocFreeBlock fs parent = .ok (((0 : Nat) : Int), fs') ∧
      fs'.spb = countBlockSb fs.spb ∧ fs'.disk.numberOfSectors = fs.disk.numberOfSectors ∧
      ∀ x, fs'.disk.content x = countedContent fs.disk (countBlockSb fs.spb) 0
        (fs.descs.set k (countBlock fs.descs[k])) x := by
  have hfit := fs.disk.groups_fit
  have hcopy := (copyDesc_bgBlockBitmap fs.descs[k]).trans hmap
  have haddr : UInt32.ofNat 0 + allocBlockBitmapBlock (copyDesc fs.descs[k]) * sectorsPerBlock =
      0 := by
    rw [allocBlockBitmapBlock, hcopy]
    rfl
  have hread : (fs.disk.readSector 0 none).2 = some (fs.disk.content 0) :=
    DiskOperations.readSector_eq none UInt32.toNat_zero (by omega) rfl
  have hfind : (fs.disk.content 0).toList.findIdx? (· ≠ 0xFF) = some 0 := by
    rw [List.findIdx?_eq_some_iff_getElem]
    refine ⟨by simp, ?_, fun j hj ↦ absurd hj (by omega)⟩
    rw [Vector.getElem_toList, hbyte]
    rfl
  have hget : (fs.disk.content 0).toList.getD 0 0 = 0 := by
    rw [List.getD_eq_getElem?_getD, List.getElem?_eq_getElem (by simp), Option.getD_some,
      Vector.getElem_toList, hbyte]
  obtain ⟨bits, hbits⟩ : ∃ bits, setBit (fs.disk.content 0) 0 = .ok bits :=
    ⟨_, setBit_of_lt (by decide)⟩
  obtain ⟨fs', hrun, hspb, hn, hc⟩ := markAndCount_spec hpos
    (show (0 : UInt32).toNat ≠ 8 by decide) (by decide) bits
    (show (countBlockSb fs.spb).sFirstDataBlock = 0 from h0) hgroup hk countBlock
  refine ⟨fs', ?_, hspb, hn, fun x ↦ ?_⟩
  · rw [allocFreeBlock_eq_scan h0 hpos hgroup hk]
    change scanBlockBitmap _ _ _ _ (0 :: [1, 2, 3, 4, 5, 6, 7]) = _
    rw [scanBlockBitmap, haddr, hread, determinate_some, ok_bind, hfind]
    change takeBlock _ _ _ _ _ _ _ = _
    have hoffset : (if (0 : UInt8) ≥ 0xF0 then lowNibbleOffset 0 else highNibbleOffset 0) = some 0 :=
      blockOffset_leadingOnes (show 0 < 8 by decide)
    rw [takeBlock, hget, hoffset, determinate_some, ok_bind]
    have hnum : (0 * 512 + 0) * 8 + 0 = 0 := rfl
    simp only [hnum]
    rw [hbits, ok_bind, haddr, hrun, ok_bind]
    rfl
  · rw [hc]
    simp

end Block

-- Past the sixteenth group the descriptor is outside the buffer, and so undefined.
theorem allocFreeBlock_of_ge (fs : Ext2Filesystem) {parent : Ext2Node}
    (hgroup : 16384 ≤ parent.entry.inode.toNat) :
    allocFreeBlock fs parent = .error .indeterminate := by
  have hnum : 16 ≤ (parent.entry.inode / inodesPerGroup).toNat := by
    simp
    omega
  rw [allocFreeBlock, readDesc_of_ge fs hnum, determinate_none, error_bind]

/-! ## alloc_free_inode -/

section Inode

variable {fs : Ext2Filesystem} {parent : Ext2Node} {k : Nat}
  (h0 : fs.spb.sFirstDataBlock = 0) (hpos : 1 ≤ fs.disk.groups)
  (hgroup : (parent.inodeNum / inodesPerGroup).toNat = k) (hk : k < 16)
  (hblocks : fs.descs[k].bgFreeBlocksCount ≠ 0) (hinodes : fs.descs[k].bgFreeInodesCount ≠ 0)

include h0 hpos hgroup hk hblocks hinodes

-- While the parent's group has both counters positive, it is the group chosen.
theorem findFreeGroup_eq : findFreeGroup fs parent = .ok (k : Int) := by
  rw [findFreeGroup, readDesc_of_lt fs h0 hpos hgroup hk, determinate_some, ok_bind, hgroup]
  exact if_pos ⟨hblocks, hinodes⟩

theorem allocFreeInode_spec (hmap : fs.descs[k].bgInodeBitmap = 3) {run : Nat → Nat} {stop : Nat}
    (hbits : fs.disk.content 24 = leadingRuns 512 run) (hle : ∀ j, run j ≤ 8) (hstop : stop < 512)
    (hbefore : ∀ j, j < stop → 4 ≤ run j) (hat : run stop < 4) :
    ∃ fs', allocFreeInode fs parent = .ok (((stop * 8 + run stop : Nat) : Int), fs') ∧
      fs'.spb = countInodeSb fs.spb ∧ fs'.disk.numberOfSectors = fs.disk.numberOfSectors ∧
      ∀ x, fs'.disk.content x =
        if x = 24 then leadingRuns 512 (Function.update run stop (run stop + 1))
        else countedContent fs.disk (countInodeSb fs.spb) 0
          (fs.descs.set k (countInode fs.descs[k])) x := by
  have hfit := fs.disk.groups_fit
  have hnum : (UInt32.ofInt (k : Int)).toNat = k := ofInt_natCast_toNat (by omega)
  have hcopy := (copyDesc_bgInodeBitmap fs.descs[k]).trans hmap
  have haddr : UInt32.ofNat 0 + allocInodeBitmapBlock (copyDesc fs.descs[k]) * sectorsPerBlock =
      24 := by
    rw [allocInodeBitmapBlock, hcopy]
    rfl
  have hread : (fs.disk.readSector 24 none).2 = some (leadingRuns 512 run) :=
    DiskOperations.readSector_eq none (show (24 : UInt32).toNat = 24 from rfl) (by omega) hbits
  let run' := Function.update run stop (run stop + 1)
  obtain ⟨fs', hrun, hspb, hn, hc⟩ := markAndCount_spec hpos
    (show (24 : UInt32).toNat ≠ 8 by decide) (by decide) (leadingRuns 512 run')
    (show (countInodeSb fs.spb).sFirstDataBlock = 0 from h0) hnum hk countInode
  refine ⟨fs', ?_, hspb, hn, fun x ↦ ?_⟩
  · rw [allocFreeInode, findFreeGroup_eq h0 hpos hgroup hk hblocks hinodes, ok_bind]
    simp only [readDesc_of_lt fs h0 hpos hnum hk, determinate_some, ok_bind]
    change scanInodeBitmap _ _ _ _ _ (0 :: [1, 2, 3, 4, 5, 6, 7]) = _
    rw [scanInodeBitmap, haddr, hread, determinate_some, ok_bind,
      scanInodeBytes_leadingRuns hle hstop hbefore hat]
    change takeInode _ _ _ _ _ _ _ = _
    rw [takeInode, determinate_some, ok_bind]
    simp only [setBit_leadingRuns hstop (show run stop < 8 by omega), ok_bind, haddr]
    rw [hrun, ok_bind]
    rfl
  · rw [hc]
    simp [run']

end Inode

end Ext2Fs
