import Ext2Fs.Spec.Geometry
import Ext2Fs.Spec.Records
import Ext2Fs.Spec.Bits

/-!
# What ext2_format leaves on the disk
-/

open Reasoning

namespace Ext2Fs

/-! ## The superblock and the descriptors -/

/-- The superblock that `ext2_format` fills for a disk. -/
abbrev DiskOperations.newSb (disk : DiskOperations) : Ext2SuperBlock :=
  fillSb disk.numberOfSectors disk.bytesPerSector

section NewSb

variable (disk : DiskOperations)

theorem diskSize_div :
    (disk.numberOfSectors * disk.bytesPerSector).toUInt64 / 134217728 =
      disk.groupCount.toUInt64 := by
  apply UInt64.toNat_inj.mp
  unfold DiskOperations.groupCount
  simp

@[simp] theorem newSb_sFirstDataBlock : disk.newSb.sFirstDataBlock = 0 := rfl
@[simp] theorem newSb_sInodesPerGroup : disk.newSb.sInodesPerGroup = 1024 := rfl
@[simp] theorem newSb_sFirstIno : disk.newSb.sFirstIno = 11 := rfl
@[simp] theorem newSb_sBlocksPerGroup : disk.newSb.sBlocksPerGroup = 32768 := by
  change groupSizeInBytes / blockSizeInBytes = 32768
  decide

theorem newSb_sInodesCount : disk.newSb.sInodesCount.toNat = 1024 * disk.groups := by
  have hle := disk.groups_le
  have hg : disk.groupCount.toNat = disk.groups := rfl
  change ((1024 * ((disk.numberOfSectors * disk.bytesPerSector).toUInt64 / 134217728)).toUInt32
    ).toNat = _
  rw [diskSize_div]
  simp only [UInt64.toNat_toUInt32, UInt32.toNat_toUInt64, UInt64.toNat_mul, UInt64.reduceToNat, hg]
  omega

theorem newSb_sBlocksCount : disk.newSb.sBlocksCount.toNat = 32768 * disk.groups := by
  have hle := disk.groups_le
  have hg : disk.groupCount.toNat = disk.groups := rfl
  change ((32768 * ((disk.numberOfSectors * disk.bytesPerSector).toUInt64 / 134217728)).toUInt32
    ).toNat = _
  rw [diskSize_div]
  simp only [UInt64.toNat_toUInt32, UInt32.toNat_toUInt64, UInt64.toNat_mul, UInt64.reduceToNat, hg]
  omega

theorem newSb_sFreeBlocksCount (hpos : 1 ≤ disk.groups) :
    disk.newSb.sFreeBlocksCount.toNat = 32732 * disk.groups := by
  have hle := disk.groups_le
  have hg : disk.groupCount.toNat = disk.groups := rfl
  have hdesc := descBlockCount_eq hpos hle
  change (((32768 * ((disk.numberOfSectors * disk.bytesPerSector).toUInt64 / 134217728)).toUInt32
    ).toUInt64 - (disk.numberOfSectors * disk.bytesPerSector).toUInt64 / 134217728 *
      (128 * 1024 / 4096 + (descBlockCount disk.groupCount).toUInt64 + 3)).toUInt32.toNat = _
  rw [diskSize_div, hdesc]
  simp only [UInt64.toNat_toUInt32, UInt64.toNat_sub, UInt32.toNat_toUInt64, UInt64.toNat_mul,
    UInt64.toNat_add, UInt64.toNat_div, UInt64.reduceToNat, UInt32.reduceToNat, hg,
    Nat.reducePow, Nat.reduceMul, Nat.reduceMod, Nat.reduceDiv, Nat.reduceAdd]
  omega

theorem newSb_sFreeInodesCount (hpos : 1 ≤ disk.groups) :
    disk.newSb.sFreeInodesCount.toNat = 1014 * disk.groups := by
  have hle := disk.groups_le
  have hg : disk.groupCount.toNat = disk.groups := rfl
  change (((1024 * ((disk.numberOfSectors * disk.bytesPerSector).toUInt64 / 134217728)).toUInt32
    ).toUInt64 - (11 - 1) * ((disk.numberOfSectors * disk.bytesPerSector).toUInt64 / 134217728)
      ).toUInt32.toNat = _
  rw [diskSize_div]
  simp only [UInt64.toNat_toUInt32, UInt64.toNat_sub, UInt32.toNat_toUInt64, UInt64.toNat_mul,
    UInt64.reduceToNat, hg]
  omega

end NewSb

theorem inodeTableBlocks_eq {sb : Ext2SuperBlock} (h : sb.sInodesPerGroup = 1024) :
    inodeTableBlocks sb = 32 := by
  rw [inodeTableBlocks, h]
  decide

/-- The descriptor that `fill_desc` computes, the same for every group of every disk. -/
def newDesc : Ext2GroupDesc := ⟨2, 3, 4, 32732, 1014, 0, 0, Vector.replicate 3 0⟩

theorem fillDesc_eq {disk : DiskOperations} (hpos : 1 ≤ disk.groups) (i : UInt32) :
    fillDesc disk disk.newSb i = newDesc := by
  have hle := disk.groups_le
  have hg : disk.groupCount.toNat = disk.groups := rfl
  have hdesc := descBlockCount_eq hpos hle
  have hblocks : (disk.newSb.sFreeBlocksCount / disk.groupCount).toUInt16 = 32732 := by
    apply UInt16.toNat_inj.mp
    rw [UInt32.toNat_toUInt16, UInt32.toNat_div, newSb_sFreeBlocksCount disk hpos, hg,
      Nat.mul_div_cancel _ (by omega)]
    rfl
  have hinodes : (disk.newSb.sFreeInodesCount / disk.groupCount).toUInt16 = 1014 := by
    apply UInt16.toNat_inj.mp
    rw [UInt32.toNat_toUInt16, UInt32.toNat_div, newSb_sFreeInodesCount disk hpos, hg,
      Nat.mul_div_cancel _ (by omega)]
    rfl
  unfold fillDesc
  rw [hdesc, hblocks, hinodes]
  rfl

theorem newSb_congr {d₁ d₂ : DiskOperations} (h : d₁.numberOfSectors = d₂.numberOfSectors) :
    d₁.newSb = d₂.newSb := by
  rw [DiskOperations.newSb, DiskOperations.newSb, h, DiskOperations.bytesPerSector_eq,
    DiskOperations.bytesPerSector_eq]

-- The contents of the disk do not matter.
theorem fillDesc_of_sectors {disk start : DiskOperations}
    (hn : disk.numberOfSectors = start.numberOfSectors) (hpos : 1 ≤ start.groups) (i : UInt32) :
    fillDesc disk start.newSb i = newDesc := by
  rw [← newSb_congr hn]
  apply fillDesc_eq
  rw [groups_congr hn]
  exact hpos

/-! ## Bitmaps -/

/-- The two bitmap blocks, 2 and 3, as `init_bitmap` leaves them. -/
def newBitmapSector (x : Nat) : Sector :=
  if x = 16 then onesPrefix 512 36 else if x = 24 then onesPrefix 512 11 else zeroSector

@[simp] theorem numberOfSectors_clearBlock (disk : DiskOperations) (block : UInt32) :
    (clearBlock disk block).numberOfSectors = disk.numberOfSectors :=
  numberOfSectors_writeEach ..

theorem content_clearBlock {disk : DiskOperations} {block : UInt32} {b : Nat}
    (hblock : block.toNat = b) (hb : b < 1000) (hpos : 1 ≤ disk.groups) (x : Nat) :
    (clearBlock disk block).content x =
      if 8 * b ≤ x ∧ x < 8 * b + 8 then zeroSector else disk.content x := by
  have hfit := disk.groups_fit
  have haddr : ∀ i, i < 8 → (UInt32.ofNat i + block * sectorsPerBlock).toNat = 8 * b + i := by
    intro i hi
    rw [sectorOfBlock_toNat (by omega) hi, hblock]
  rw [clearBlock, content_writeEach_run _ zeroSector haddr (by omega)]

theorem initBitmap_newDesc {disk : DiskOperations} {sb : Ext2SuperBlock}
    (hpos : 1 ≤ disk.groups) (h0 : sb.sFirstDataBlock = 0) (hinodes : sb.sInodesPerGroup = 1024)
    (hfirst : sb.sFirstIno = 11) :
    ∃ disk', initBitmap disk sb newDesc = .ok disk' ∧
      disk'.numberOfSectors = disk.numberOfSectors ∧
      ∀ x, disk'.content x =
        if 16 ≤ x ∧ x < 32 then newBitmapSector x else disk.content x := by
  have hfit := disk.groups_fit
  have hdata : (sb.sFirstDataBlock + newDesc.bgInodeTable + inodeTableBlocks sb).toNat = 36 := by
    rw [h0, inodeTableBlocks_eq hinodes]
    rfl
  have hino : sb.sFirstIno.toNat = 11 := by
    rw [hfirst]
    rfl
  have hblock : initBlockBitmapBlock newDesc * 8 = 16 := rfl
  have hinode : initInodeBitmapBlock newDesc * sectorsPerBlock = 24 := rfl
  refine ⟨((clearBlock ((clearBlock disk 2).writeSector 16 (onesPrefix 512 36)) 3).writeSector 24
    (onesPrefix 512 11)), ?_, by simp, fun x ↦ ?_⟩
  · unfold initBitmap
    simp only [hdata, hino, hblock, hinode]
    rw [setBits_zeroSector (by decide), setBits_zeroSector (by decide), ok_bind,
      if_pos (by decide), ok_bind]
    rfl
  · have hg : ((clearBlock disk 2).writeSector 16 (onesPrefix 512 36)).groups = disk.groups :=
      groups_congr (by simp)
    rw [DiskOperations.content_writeSector _ (by simp; omega),
      content_clearBlock (b := 3) rfl (by decide) (by rw [hg]; exact hpos),
      DiskOperations.content_writeSector _ (by simp; omega),
      content_clearBlock (b := 2) rfl (by decide) hpos]
    simp only [UInt32.reduceToNat]
    clear hfit hdata hino hg
    grind [newBitmapSector]

/-! ## The descriptor table -/

/-- A descriptor sector whose first `n` entries are those that `fill_desc` computes. -/
def descSector (n : Nat) : Sector :=
  asDescs.symm (Vector.ofFn fun k ↦ if k.val < n then newDesc else Ext2GroupDesc.zero)

theorem descSector_zero : descSector 0 = zeroSector := by
  rw [descSector, Equiv.symm_apply_eq, asDescs_zeroSector]
  apply Vector.ext
  intro k hk
  simp

theorem asDescs_descSector {n k : Nat} (hk : k < 16) :
    (asDescs (descSector n))[k] = if k < n then newDesc else Ext2GroupDesc.zero := by
  simp [descSector]

theorem modifyAt_descSector {n : Nat} (hn : n < 16) :
    modifyAt asDescs (descSector n) n (fun _ ↦ newDesc) = .ok (descSector (n + 1)) := by
  have hset : (asDescs (descSector n)).set n newDesc = asDescs (descSector (n + 1)) := by
    apply Vector.ext
    intro k hk
    rw [Vector.getElem_set, asDescs_descSector hk, asDescs_descSector hk]
    grind
  rw [modifyAt_of_lt _ _ hn, hset, Equiv.symm_apply_apply]

theorem startDescSector_numberOfSectors (st : FormatState DiskOperations) :
    (startDescSector st).disk.numberOfSectors = st.disk.numberOfSectors :=
  numberOfSectors_writeEach ..

theorem content_startDescSector {st : FormatState DiskOperations} (hpos : 1 ≤ st.disk.groups) (x : Nat) :
    (startDescSector st).disk.content x =
      if 8 ≤ x ∧ x < 16 then zeroSector else st.disk.content x := by
  have hfit := st.disk.groups_fit
  have haddr : ∀ j, j < 8 → (sectorsPerBlock + UInt32.ofNat j).toNat = 8 + j := by
    intro j hj
    simp
    omega
  rw [startDescSector, content_writeEach_run _ zeroSector haddr (by omega)]

@[simp] theorem numberOfSectors_writeDescTable (disk : DiskOperations) (sb : Ext2SuperBlock)
    (i : Nat) (sector : Sector) :
    (writeDescTable disk sb i sector).numberOfSectors = disk.numberOfSectors :=
  numberOfSectors_writeEach ..

theorem content_writeDescTable {disk : DiskOperations} {sb : Ext2SuperBlock} {i : Nat}
    {sector : Sector} (hsb : sb.sBlocksPerGroup = 32768) (hi : i < 32) (x : Nat) :
    (writeDescTable disk sb i sector).content x =
      if x % 262144 = 8 + i / 16 ∧ x / 262144 < disk.groups then sector else disk.content x := by
  have hle := disk.groups_le
  have haddr : ∀ j, j < disk.groups → (UInt32.ofNat j * sb.sBlocksPerGroup * sectorsPerBlock +
      sectorsPerBlock + UInt32.ofNat i / (disk.bytesPerSector / 32)).toNat =
        262144 * j + (8 + i / 16) := by
    intro j hj
    rw [hsb, disk.bytesPerSector_eq]
    simp
    omega
  have hw := content_writeEach_copies _ sector (by omega) haddr 0 x
  rw [Nat.sub_zero, ← List.range_eq_range'] at hw
  rw [writeDescTable]
  simp only [Disk.operations_eq]
  rw [hw]
  simp

/-! ## The loop over the groups -/

/-- What holds before iteration `i` of the loop of `ext2_format` on a disk whose contents were
those of `start`. -/
structure FormatLoop (start : DiskOperations) (i : Nat) (st : FormatState DiskOperations) : Prop where
  sectors_eq : st.disk.numberOfSectors = start.numberOfSectors
  sector_eq : st.sector = descSector st.desc
  desc_eq : st.desc = if i = 0 then 0 else (i - 1) % 16 + 1
  bitmaps : 0 < i → ∀ x, 16 ≤ x → x < 32 → st.disk.content x = newBitmapSector x
  table : i = start.groups → start.groups ≤ 16 → ∀ g, g < start.groups →
    st.disk.content (262144 * g + 8) = st.sector
  -- the first descriptor sector is only ever written in the last of at most sixteen iterations
  cleared : 0 < i → i < start.groups ∨ 16 < start.groups → st.disk.content 8 = zeroSector
  frame : ∀ x, ¬ (8 ≤ x ∧ x < 32) → x % 262144 ≠ 8 → x % 262144 ≠ 9 →
    st.disk.content x = start.content x

/-- The state in which iteration `i` fills its descriptor. -/
def enterGroup (st : FormatState DiskOperations) (i : Nat) : FormatState DiskOperations :=
  if i % 16 = 0 then startDescSector st else st

section Loop

variable {start : DiskOperations} {i : Nat} {st : FormatState DiskOperations}

theorem numberOfSectors_enterGroup :
    (enterGroup st i).disk.numberOfSectors = st.disk.numberOfSectors := by
  unfold enterGroup
  split
  · exact startDescSector_numberOfSectors st
  · rfl

theorem content_enterGroup (hpos : 1 ≤ st.disk.groups) (x : Nat) :
    (enterGroup st i).disk.content x =
      if i % 16 = 0 ∧ 8 ≤ x ∧ x < 16 then zeroSector else st.disk.content x := by
  unfold enterGroup
  by_cases h : i % 16 = 0
  · rw [if_pos h, content_startDescSector hpos]
    simp [h]
  · rw [if_neg h, if_neg (fun hx ↦ h hx.1)]

theorem FormatLoop.enter_desc (h : FormatLoop start i st) : (enterGroup st i).desc = i % 16 := by
  unfold enterGroup
  split
  · rename_i h0
    exact h0.symm
  · rw [h.desc_eq, if_neg (by omega)]
    omega

theorem FormatLoop.enter_sector (h : FormatLoop start i st) :
    (enterGroup st i).sector = descSector (i % 16) := by
  rw [← h.enter_desc]
  unfold enterGroup
  split
  · exact descSector_zero.symm
  · exact h.sector_eq

theorem FormatLoop.enter_cleared (h : FormatLoop start i st) (hi : i < start.groups) :
    (enterGroup st i).disk.content 8 = zeroSector := by
  have hg : st.disk.groups = start.groups := groups_congr h.sectors_eq
  rw [content_enterGroup (by omega)]
  by_cases h0 : i % 16 = 0
  · rw [if_pos ⟨h0, by decide, by decide⟩]
  · rw [if_neg (fun hx ↦ h0 hx.1), h.cleared (by omega) (Or.inl hi)]

-- The tests of the loop on the index of the group.
theorem formatGroup_eq {sb : Ext2SuperBlock} (hi : i < st.disk.groups) :
    formatGroup sb st i = do
      let desc := fillDesc (enterGroup st i).disk sb (UInt32.ofNat i)
      let sector ← modifyAt asDescs (enterGroup st i).sector (enterGroup st i).desc fun _ ↦ desc
      let disk := if 16 ≤ i ∨ i + 1 = st.disk.groups then
          writeDescTable (enterGroup st i).disk sb i sector
        else (enterGroup st i).disk
      let disk ← initBitmap disk sb desc
      return { disk := disk, sector := sector, desc := (enterGroup st i).desc + 1 } := by
  have hle := st.disk.groups_le
  have hgc : (enterGroup st i).disk.groupCount = st.disk.groupCount :=
    groupCount_congr numberOfSectors_enterGroup
  have hper : st.disk.bytesPerSector / 32 = 16 := by
    rw [st.disk.bytesPerSector_eq]
    decide
  have hmod : UInt32.ofNat i % 16 = 0 ↔ i % 16 = 0 := by
    rw [← UInt32.toNat_inj]
    simp
  have hdiv : UInt32.ofNat i / 16 ≠ 0 ↔ 16 ≤ i := by
    rw [ne_eq, ← UInt32.toNat_inj]
    simp
    omega
  have hlast : UInt32.ofNat i = st.disk.groupCount - 1 ↔ i + 1 = st.disk.groups := by
    have hg : st.disk.groupCount.toNat = st.disk.groups := rfl
    rw [← UInt32.toNat_inj, UInt32.toNat_sub, hg]
    simp
    omega
  unfold formatGroup
  simp only [Disk.operations_eq, hper, hmod, hdiv]
  rw [show (if i % 16 = 0 then startDescSector st else st) = enterGroup st i from rfl]
  simp only [hgc, hlast]

/-- The disk on which iteration `i` writes the bitmaps: the descriptors went into their table if the
group is behind the sixteenth, or the last one. -/
def enterBitmaps (start : DiskOperations) (st : FormatState DiskOperations) (i : Nat) : DiskOperations :=
  if 16 ≤ i ∨ i + 1 = st.disk.groups then
    writeDescTable (enterGroup st i).disk start.newSb i (descSector (i % 16 + 1))
  else (enterGroup st i).disk

theorem FormatLoop.enterGroup_sectors (h : FormatLoop start i st) :
    (enterGroup st i).disk.numberOfSectors = start.numberOfSectors :=
  numberOfSectors_enterGroup.trans h.sectors_eq

theorem FormatLoop.enterBitmaps_sectors (h : FormatLoop start i st) :
    (enterBitmaps start st i).numberOfSectors = start.numberOfSectors := by
  unfold enterBitmaps
  split
  · rw [numberOfSectors_writeDescTable, h.enterGroup_sectors]
  · exact h.enterGroup_sectors

theorem FormatLoop.content_enterBitmaps (h : FormatLoop start i st) (hi : i < start.groups)
    (x : Nat) : (enterBitmaps start st i).content x =
      if (16 ≤ i ∨ i + 1 = start.groups) ∧ x % 262144 = 8 + i / 16 ∧ x / 262144 < start.groups then
        descSector (i % 16 + 1)
      else (enterGroup st i).disk.content x := by
  have hle := start.groups_le
  unfold enterBitmaps
  rw [groups_congr h.sectors_eq]
  split
  · rename_i hc
    rw [content_writeDescTable (newSb_sBlocksPerGroup start) (by omega),
      groups_congr h.enterGroup_sectors]
    simp [hc]
  · rename_i hc
    rw [if_neg (fun hx ↦ hc hx.1)]

/-- What the loop of `ext2_format` has written before iteration `i`, on a disk of that many
groups. -/
def loopImage (groups : Nat) : Nat → Nat → Option Sector
  | 0, _ => none
  | i + 1, x =>
    if 16 ≤ x ∧ x < 32 then some (newBitmapSector x)
    else if (16 ≤ i ∨ i + 1 = groups) ∧ x % 262144 = 8 + i / 16 ∧ x / 262144 < groups then
      some (descSector (i % 16 + 1))
    else if i % 16 = 0 ∧ 8 ≤ x ∧ x < 16 then some zeroSector
    else loopImage groups i x

-- The sectors that one iteration of the loop writes.
theorem FormatLoop.step_content (h : FormatLoop start i st) (hi : i < start.groups) :
    ∃ disk', formatGroup start.newSb st i =
        .ok ⟨disk', descSector (i % 16 + 1), i % 16 + 1⟩ ∧
      disk'.numberOfSectors = start.numberOfSectors ∧
      ∀ x, disk'.content x = if 16 ≤ x ∧ x < 32 then newBitmapSector x
        else (enterBitmaps start st i).content x := by
  have hg : st.disk.groups = start.groups := groups_congr h.sectors_eq
  have hpos : 1 ≤ (enterBitmaps start st i).groups := by
    rw [groups_congr h.enterBitmaps_sectors]
    omega
  obtain ⟨disk', hinit, hn', hc'⟩ := initBitmap_newDesc hpos (newSb_sFirstDataBlock start)
    (newSb_sInodesPerGroup start) (newSb_sFirstIno start)
  refine ⟨disk', ?_, hn'.trans h.enterBitmaps_sectors, hc'⟩
  rw [formatGroup_eq (by omega)]
  simp only [fillDesc_of_sectors h.enterGroup_sectors (by omega), h.enter_sector, h.enter_desc,
    modifyAt_descSector (Nat.mod_lt i (by decide)), ok_bind]
  change initBitmap (enterBitmaps start st i) start.newSb newDesc >>= _ = _
  rw [hinit, ok_bind]
  rfl

-- One iteration of the loop.
theorem FormatLoop.step (h : FormatLoop start i st) (hi : i < start.groups) :
    ∃ st', formatGroup start.newSb st i = .ok st' ∧ FormatLoop start (i + 1) st' := by
  have hle := start.groups_le
  have hg : st.disk.groups = start.groups := groups_congr h.sectors_eq
  have hc := h.content_enterBitmaps hi
  obtain ⟨disk', hrun, hn', hc'⟩ := h.step_content hi
  refine ⟨⟨disk', descSector (i % 16 + 1), i % 16 + 1⟩, hrun, ?_⟩
  constructor
  case sectors_eq => exact hn'
  case sector_eq => rfl
  case desc_eq => simp
  case bitmaps =>
    intro _ x hlo hhi
    rw [hc', if_pos ⟨hlo, hhi⟩]
  case table =>
    intro hlast hfew g hgr
    rw [hc', if_neg (by omega), hc, if_pos (by omega)]
  case cleared =>
    intro _ hlast
    rw [hc', if_neg (by decide), hc, if_neg (by omega), h.enter_cleared hi]
  case frame =>
    intro x hx h8 h9
    rw [hc', if_neg (by omega), hc, if_neg (by omega), content_enterGroup (by omega),
      if_neg (by omega), h.frame x hx h8 h9]

-- What an iteration writes does not depend on what the disk held.
theorem FormatLoop.step_image (h : FormatLoop start i st) (hi : i < start.groups)
    (himage : st.disk.content = overlay (loopImage start.groups i) start.content)
    {st' : FormatState DiskOperations} (hrun : formatGroup start.newSb st i = .ok st') :
    st'.disk.content = overlay (loopImage start.groups (i + 1)) start.content := by
  have hg : st.disk.groups = start.groups := groups_congr h.sectors_eq
  obtain ⟨disk', hrun', -, hc⟩ := h.step_content hi
  rw [hrun, Except.ok.injEq] at hrun'
  subst hrun'
  funext x
  rw [hc, h.content_enterBitmaps hi, content_enterGroup (by omega), himage]
  unfold overlay
  rw [loopImage]
  split
  · rfl
  · split
    · rfl
    · split
      · rfl
      · rfl

end Loop

end Ext2Fs
