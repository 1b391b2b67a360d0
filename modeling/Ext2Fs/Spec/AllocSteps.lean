import Ext2Fs.Spec.Alloc

/-!
# What a successful allocation has done

Both allocators find a sector of the bitmap, mark a bit in it, and write the counters back.  Nothing
is assumed of the bitmap, and of the descriptors only that they can be read.
-/

open Reasoning

namespace Ext2Fs

/-! ## Counting in one descriptor -/

section Counted

variable {fs fs' : Ext2Filesystem}

-- The descriptors after one of them was counted and the sector written back.
theorem descs_of_counted {k : Nat} (hk : k < 16) {count : Ext2GroupDesc → Ext2GroupDesc}
    {spb : Ext2SuperBlock} {first : Nat} (hpos : 1 ≤ fs.disk.groups)
    (hc : fs'.disk.content 8 =
      countedContent fs.disk spb first (fs.descs.set k (count fs.descs[k])) 8) {g : Nat}
    (hg : g < 16) : fs'.descs[g] = if k = g then count fs.descs[g] else fs.descs[g] := by
  have hdescs : fs'.descs = fs.descs.set k (count fs.descs[k]) := by
    rw [Ext2Filesystem.descs, hc, countedContent, if_pos (by omega), Equiv.apply_symm_apply]
  simp only [hdescs]
  rw [Vector.getElem_set]
  by_cases hkg : k = g
  · subst hkg
    rw [if_pos rfl]
  · rw [if_neg hkg, if_neg hkg]

-- the fields that are not counted
theorem field_of_counted {β : Type} {k : Nat} {count : Ext2GroupDesc → Ext2GroupDesc}
    (hdescs : ∀ g, ∀ hg : g < 16, fs'.descs[g] = if k = g then count fs.descs[g] else fs.descs[g])
    (field : Ext2GroupDesc → β) (hkeep : ∀ d, field (count d) = field d) {g : Nat} (hg : g < 16) :
    field fs'.descs[g] = field fs.descs[g] := by
  rw [hdescs g hg]
  split
  · exact hkeep _
  · rfl

end Counted

/-! ## The effect of an allocation -/

/-- One sector of a bitmap is rewritten, then the superblock into the groups from `first` on, and
then the descriptor sector, with descriptor `k` changed, into every group. -/
structure Allocated (fs fs' : Ext2Filesystem) (bitmap : UInt32) (bits : Sector)
    (spb : Ext2SuperBlock) (first k : Nat) (count : Ext2GroupDesc → Ext2GroupDesc) : Prop where
  spb_eq : fs'.spb = spb
  sectors_eq : fs'.disk.numberOfSectors = fs.disk.numberOfSectors
  content_eq : ∀ x, fs'.disk.content x =
    if x % 262144 = 8 ∧ x / 262144 < fs.disk.groups then
      updateAt asDescs ((fs.disk.writeSector bitmap bits).content 8) k count
    else if x % 262144 = 0 ∧ first ≤ x / 262144 ∧ x / 262144 < fs.disk.groups then
      asSuperBlock.symm spb
    else (fs.disk.writeSector bitmap bits).content x

theorem allocated_of_writeCounts {fs fs' : Ext2Filesystem} {bitmap : UInt32} {bits : Sector}
    {spb : Ext2SuperBlock} {first k : Nat} {groupNum : UInt32}
    {count : Ext2GroupDesc → Ext2GroupDesc} (h0 : spb.sFirstDataBlock = 0)
    (hpos : 1 ≤ fs.disk.groups) (hgroup : groupNum.toNat = k) (hk : k < 16)
    (h : writeCounts (fs.disk.writeSector bitmap bits) spb first bits groupNum count = .ok fs') :
    Allocated fs fs' bitmap bits spb first k count := by
  have hg : (fs.disk.writeSector bitmap bits).groups = fs.disk.groups :=
    DiskOperations.groups_writeSector _ _
  rcases writeCounts_spec (fs.disk.writeSector bitmap bits) spb h0 (by rw [hg]; exact hpos) first
    bits hgroup hk count with ⟨fs₁, hrun, hspb, hn, hc⟩
  rw [h, Except.ok.injEq] at hrun
  subst hrun
  constructor
  · exact hspb
  · exact hn.trans (DiskOperations.numberOfSectors_writeSector _)
  · intro x
    rw [hc, countedContent, hg, updateAt, dif_pos hk]

namespace Allocated

variable {fs fs' : Ext2Filesystem} {bitmap : UInt32} {bits : Sector} {spb : Ext2SuperBlock}
  {first k : Nat} {count : Ext2GroupDesc → Ext2GroupDesc}
  (h : Allocated fs fs' bitmap bits spb first k count)

include h

theorem groups_eq : fs'.disk.groups = fs.disk.groups := groups_congr h.sectors_eq

-- The sectors that are neither of the bitmap nor copies of the counters.
theorem content_of_ne {x : Nat} (hx : x ≠ bitmap.toNat) (h0 : x % 262144 ≠ 0)
    (h8 : x % 262144 ≠ 8) : fs'.disk.content x = fs.disk.content x := by
  rw [h.content_eq, if_neg (fun hc ↦ h8 hc.1), if_neg (fun hc ↦ h0 hc.1)]
  exact Store.cell_write_of_ne bits hx

theorem descs_eq (hpos : 1 ≤ fs.disk.groups) (h8 : bitmap.toNat ≠ 8) {g : Nat} (hg : g < 16) :
    fs'.descs[g] = if k = g then count fs.descs[g] else fs.descs[g] := by
  have hcontent : (fs.disk.writeSector bitmap bits).content 8 = fs.disk.content 8 :=
    Store.cell_write_of_ne bits (Ne.symm h8)
  have hdescs : fs'.descs = asDescs (updateAt asDescs (fs.disk.content 8) k count) := by
    rw [Ext2Filesystem.descs, h.content_eq, if_pos (by omega), hcontent]
  simp only [hdescs]
  exact getElem_updateAt asDescs count hg

end Allocated

/-! ## alloc_free_block -/

theorem natCast_ne_error (m : Nat) : (m : Int) ≠ ext2Error := by
  rw [ext2Error]
  omega

theorem lt_of_setBit {sector bits : Sector} {m : Nat} (h : setBit sector m = .ok bits) :
    m < 4096 := by
  apply Nat.lt_of_not_le
  intro hge
  rw [setBit_of_ge hge] at h
  cases h

-- A bit of the first bitmap sector is taken: the numbers of the others do not fit the buffer.
theorem takeBlock_ok {fs fs' : Ext2Filesystem} {groupNum : UInt32} {desc : Ext2GroupDesc} {i : Nat}
    {sector : Sector} {j : Nat} {byte : UInt8} {n : Int}
    (h : takeBlock fs groupNum desc i sector j byte = .ok (n, fs')) :
    i = 0 ∧ ∃ (m : Nat) (bits : Sector), n = m ∧ m < 4096 ∧ setBit sector m = .ok bits ∧
      writeCounts (fs.disk.writeSector (UInt32.ofNat 0 + desc.bgBlockBitmap * sectorsPerBlock) bits)
        (countBlockSb fs.spb) 0 bits groupNum countBlock = .ok fs' := by
  unfold takeBlock at h
  rcases bind_eq_ok.mp h with ⟨offset, -, h⟩
  rcases bind_eq_ok.mp h with ⟨bits, hbits, h⟩
  rcases bind_eq_ok.mp h with ⟨fs₁, hcounts, h⟩
  have hlt := lt_of_setBit hbits
  have hi : i = 0 := by omega
  subst hi
  rw [pure_eq_ok, Except.ok.injEq, Prod.mk.injEq] at h
  rcases h with ⟨rfl, rfl⟩
  exact ⟨rfl, _, bits, rfl, hlt, hbits, hcounts⟩

theorem scanBlockBitmap_ok {fs fs' : Ext2Filesystem} {groupNum : UInt32} {desc : Ext2GroupDesc}
    {n : Int} {is : List Nat} {buf : Option Sector}
    (h : scanBlockBitmap fs groupNum desc buf is = .ok (n, fs')) :
    (n = ext2Error ∧ fs' = fs) ∨
      ∃ i ∈ is, ∃ sector j byte, takeBlock fs groupNum desc i sector j byte = .ok (n, fs') := by
  induction is generalizing buf with
  | nil =>
    rw [scanBlockBitmap, Except.ok.injEq, Prod.mk.injEq] at h
    exact Or.inl ⟨h.1.symm, h.2.symm⟩
  | cons i is ih =>
    rw [scanBlockBitmap] at h
    rcases bind_eq_ok.mp h with ⟨sector, -, h⟩
    cases hfind : sector.toList.findIdx? (· ≠ 0xFF) with
    | none =>
      rw [hfind] at h
      rcases ih h with herror | ⟨i', hi', htake⟩
      · exact Or.inl herror
      · exact Or.inr ⟨i', List.mem_cons_of_mem i hi', htake⟩
    | some j =>
      rw [hfind] at h
      exact Or.inr ⟨i, List.mem_cons_self, sector, j, _, h⟩

-- Bit 0 is only taken when it is clear.
theorem takeBlock_zero {fs fs' : Ext2Filesystem} {groupNum : UInt32} {desc : Ext2GroupDesc}
    {sector : Sector} {j : Nat}
    (h : takeBlock fs groupNum desc 0 sector j (sector.toList.getD j 0) = .ok (0, fs')) :
    bitAt sector 0 = false := by
  unfold takeBlock at h
  rcases bind_eq_ok.mp h with ⟨offset, hoffset, h⟩
  rcases bind_eq_ok.mp h with ⟨bits, -, h⟩
  rcases bind_eq_ok.mp h with ⟨fs₁, -, h⟩
  rw [pure_eq_ok, Except.ok.injEq, Prod.mk.injEq] at h
  have hnum : j = 0 ∧ offset = 0 := by omega
  rcases hnum with ⟨rfl, rfl⟩
  have hbyte : sector.toList.getD 0 0 = getElem sector 0 (show 0 < 512 by decide) := by
    rw [List.getD_eq_getElem?_getD, List.getElem?_eq_getElem (by simp), Option.getD_some,
      Vector.getElem_toList]
  rw [hbyte] at hoffset
  split at hoffset
  · cases hoff : lowNibbleOffset (getElem sector 0 (show 0 < 512 by decide)) with
    | none =>
      rw [hoff] at hoffset
      cases hoffset
    | some k =>
      rw [hoff, determinate_some, Except.ok.injEq] at hoffset
      rw [hoffset] at hoff
      exact absurd hoff (lowNibbleOffset_ne_zero _)
  · cases hoff : highNibbleOffset (getElem sector 0 (show 0 < 512 by decide)) with
    | none =>
      rw [hoff] at hoffset
      cases hoffset
    | some k =>
      rw [hoff, determinate_some, Except.ok.injEq] at hoffset
      rw [hoffset] at hoff
      have hsmall := congrArg UInt8.toNat (highNibbleOffset_zero hoff)
      rw [UInt8.toNat_div] at hsmall
      rw [bitAt, dif_pos (by decide)]
      apply Nat.testBit_lt_two_pow
      simp at hsmall ⊢
      omega

def SectorFull (sector : Sector) : Prop := ∀ byte ∈ sector.toList, byte = 0xFF

theorem sectorFull_iff {sector : Sector} :
    SectorFull sector ↔ sector.toList.findIdx? (· ≠ 0xFF) = none := by
  unfold SectorFull
  rw [List.findIdx?_eq_none_iff]
  simp

section Block

variable {fs fs' : Ext2Filesystem} {parent : Ext2Node} {n : Int}

theorem group_lt_of_readDesc {g : UInt32} {desc : Ext2GroupDesc} (h : readDesc fs g = some desc) :
    g.toNat < 16 := by
  apply Nat.lt_of_not_le
  intro hge
  rw [readDesc_of_ge fs hge] at h
  cases h

-- A descriptor that is definite is one of the sixteen of the sector.
theorem readDesc_ok (h0 : fs.spb.sFirstDataBlock = 0) (hpos : 1 ≤ fs.disk.groups) {g : UInt32}
    {desc : Ext2GroupDesc} (h : determinate (readDesc fs g) = .ok desc) :
    ∃ hk : g.toNat < 16, desc = copyDesc fs.descs[g.toNat] := by
  have hread := determinate_eq_ok.mp h
  have hk := group_lt_of_readDesc hread
  rw [readDesc_of_lt fs h0 hpos rfl hk, Option.some.injEq] at hread
  exact ⟨hk, hread.symm⟩

-- A call of `alloc_free_block` that returns: nothing is changed, or a bit of the first sector of
-- the bitmap is taken.
theorem allocFreeBlock_cases (h0 : fs.spb.sFirstDataBlock = 0) (hpos : 1 ≤ fs.disk.groups)
    (h : allocFreeBlock fs parent = .ok (n, fs')) :
    (n = ext2Error ∧ fs' = fs) ∨
      ∃ k, ∃ hk : k < 16, (parent.entry.inode / inodesPerGroup).toNat = k ∧
        ∃ (m : Nat) (bits : Sector), n = m ∧ m < 4096 ∧
          Allocated fs fs' (fs.descs[k].bgBlockBitmap * sectorsPerBlock) bits
            (countBlockSb fs.spb) 0 k countBlock := by
  unfold allocFreeBlock at h
  rcases bind_eq_ok.mp h with ⟨desc, hdesc, h⟩
  rcases readDesc_ok h0 hpos hdesc with ⟨hk, hdesc⟩
  rcases scanBlockBitmap_ok h with herror | ⟨i, -, sector, j, byte, htake⟩
  · exact Or.inl herror
  · rcases takeBlock_ok htake with ⟨-, m, bits, hn, hm, -, hcounts⟩
    rw [hdesc, copyDesc_bgBlockBitmap, show UInt32.ofNat 0 = 0 from rfl,
      UInt32.zero_add] at hcounts
    exact Or.inr ⟨_, hk, rfl, m, bits, hn, hm,
      allocated_of_writeCounts (show (countBlockSb fs.spb).sFirstDataBlock = 0 from h0) hpos rfl
        hk hcounts⟩

-- What the first sector of the bitmap tells about the call.
theorem allocFreeBlock_first (h0 : fs.spb.sFirstDataBlock = 0) (hpos : 1 ≤ fs.disk.groups) {k : Nat}
    (hgroup : (parent.entry.inode / inodesPerGroup).toNat = k) (hk : k < 16) {first : Sector}
    (hfirst : (fs.disk.readSector (fs.descs[k].bgBlockBitmap * sectorsPerBlock) none).2 = some first)
    (h : allocFreeBlock fs parent = .ok (n, fs')) :
    (n = ext2Error ↔ SectorFull first) ∧ (n = 0 → bitAt first 0 = false) := by
  have haddr : UInt32.ofNat 0 + allocBlockBitmapBlock (copyDesc fs.descs[k]) * sectorsPerBlock =
      fs.descs[k].bgBlockBitmap * sectorsPerBlock := UInt32.zero_add _
  rw [allocFreeBlock_eq_scan h0 hpos hgroup hk] at h
  change scanBlockBitmap _ _ _ _ (0 :: [1, 2, 3, 4, 5, 6, 7]) = _ at h
  rw [scanBlockBitmap, haddr, hfirst, determinate_some, ok_bind] at h
  rw [sectorFull_iff]
  cases hfind : first.toList.findIdx? (· ≠ 0xFF) with
  | none =>
    rw [hfind] at h
    -- no other sector has a number that fits the buffer
    have herror : n = ext2Error := by
      rcases scanBlockBitmap_ok h with ⟨herror, -⟩ | ⟨i, hi, sector, j, byte, htake⟩
      · exact herror
      · have hne : ∀ i ∈ [1, 2, 3, 4, 5, 6, 7], i ≠ 0 := by decide
        exact absurd (takeBlock_ok htake).1 (hne i hi)
    refine ⟨iff_of_true herror rfl, ?_⟩
    intro hzero
    rw [herror] at hzero
    cases hzero
  | some j =>
    rw [hfind] at h
    constructor
    · refine iff_of_false ?_ (by simp)
      intro herror
      rcases takeBlock_ok h with ⟨-, m, bits, hm, -⟩
      rw [herror, ext2Error] at hm
      omega
    · intro hzero
      rw [hzero] at h
      exact takeBlock_zero h

end Block

/-! ### When a block call returns -/

theorem exists_setBit (sector : Sector) {m : Nat} (hm : m < 4096) :
    ∃ bits, setBit sector m = .ok bits := ⟨_, setBit_of_lt (by omega)⟩

/-- Sector `i` of the block bitmap that `alloc_free_block` scans for a node, if it is on the disk. -/
def blockBitmapSector (fs : Ext2Filesystem) (parent : Ext2Node) (i : Nat) : Option Sector := do
  let desc ← readDesc fs (parent.entry.inode / inodesPerGroup)
  (fs.disk.readSector (UInt32.ofNat i + desc.bgBlockBitmap * sectorsPerBlock) none).2

/-- The first sector of the bitmap has a byte that is not full, and the switches have a case for the
first one; or no sector of the bitmap has such a byte. -/
def BlockServed (fs : Ext2Filesystem) (parent : Ext2Node) : Prop :=
  ∃ first, blockBitmapSector fs parent 0 = some first ∧
    ((∃ byte, first.toList.find? (· ≠ 0xFF) = some byte ∧ (decodedOffset byte).isSome) ∨
      ∀ i < 8, ∀ sector, blockBitmapSector fs parent i = some sector → SectorFull sector)

section Served

variable {fs : Ext2Filesystem} {groupNum : UInt32} {desc : Ext2GroupDesc}

-- In the first sector a byte with a case is all that it takes.
theorem defined_takeBlock_iff (h0 : fs.spb.sFirstDataBlock = 0) (hpos : 1 ≤ fs.disk.groups)
    (hk : groupNum.toNat < 16) {sector : Sector} {j : Nat} (hj : j < 512) {byte : UInt8} :
    Defined (takeBlock fs groupNum desc 0 sector j byte) ↔ (decodedOffset byte).isSome := by
  change Defined (determinate (decodedOffset byte) >>= _) ↔ _
  cases hoffset : decodedOffset byte with
  | none => exact iff_of_false (not_defined_error _) Bool.false_ne_true
  | some r =>
    have hr := decodedOffset_lt hoffset
    rcases exists_setBit sector (show (0 * 512 + j) * 8 + r < 4096 by omega) with ⟨bits, hbits⟩
    rcases writeCounts_spec (fs.disk.writeSector
      (UInt32.ofNat 0 + allocBlockBitmapBlock desc * sectorsPerBlock) bits) (countBlockSb fs.spb) h0
      (by rw [DiskOperations.groups_writeSector]; exact hpos) 0 bits rfl hk countBlock with
      ⟨fs', hcounts, -⟩
    refine iff_of_true ?_ rfl
    rw [determinate_some, ok_bind]
    dsimp only
    rw [hbits, ok_bind, hcounts, ok_bind]
    exact defined_ok _

-- From the second sector on a bit that is found does not fit the buffer.
theorem defined_scanBlockBitmap_iff {buf : Sector} (hbuf : SectorFull buf) {is : List Nat}
    (his : ∀ i ∈ is, i ≠ 0) :
    Defined (scanBlockBitmap fs groupNum desc (some buf) is) ↔ ∀ i ∈ is, ∀ sector,
      (fs.disk.readSector (UInt32.ofNat i + desc.bgBlockBitmap * sectorsPerBlock) none).2 =
        some sector → SectorFull sector := by
  induction is generalizing buf with
  | nil => exact iff_of_true (defined_ok _) fun i hi ↦ absurd hi List.not_mem_nil
  | cons i is ih =>
    rw [List.forall_mem_cons] at his
    rw [List.forall_mem_cons, scanBlockBitmap]
    simp only [allocBlockBitmapBlock]
    -- a sector that is not on the disk leaves the buffer as it was
    rcases Nat.lt_or_ge (UInt32.ofNat i + desc.bgBlockBitmap * sectorsPerBlock).toNat
      fs.disk.numberOfSectors.toNat with hlt | hge
    · rw [DiskOperations.readSector_of_lt _ hlt, DiskOperations.readSector_of_lt _ hlt,
        determinate_some, ok_bind]
      by_cases hfull : SectorFull (fs.disk.content
        (UInt32.ofNat i + desc.bgBlockBitmap * sectorsPerBlock).toNat)
      · rw [sectorFull_iff.mp hfull]
        change Defined (scanBlockBitmap _ _ _ _ _) ↔ _
        rw [ih hfull his.2]
        refine ⟨fun h ↦ ⟨fun sector hsector ↦ ?_, h⟩, fun h ↦ h.2⟩
        rw [← Option.some.inj hsector]
        exact hfull
      · refine iff_of_false ?_ fun h ↦ hfull (h.1 _ rfl)
        cases hfind : (fs.disk.content (UInt32.ofNat i + desc.bgBlockBitmap *
          sectorsPerBlock).toNat).toList.findIdx? (· ≠ 0xFF) with
        | none => exact absurd (sectorFull_iff.mpr hfind) hfull
        | some j =>
          rintro ⟨⟨n, fs'⟩, htake⟩
          exact his.1 (takeBlock_ok htake).1
    · rw [DiskOperations.readSector_of_ge _ hge, DiskOperations.readSector_of_ge _ hge,
        determinate_some, ok_bind, sectorFull_iff.mp hbuf]
      change Defined (scanBlockBitmap _ _ _ _ _) ↔ _
      rw [ih hbuf his.2]
      exact ⟨fun h ↦ ⟨fun sector hsector ↦ (by cases hsector), h⟩, fun h ↦ h.2⟩

-- the byte at which the search stops
theorem find?_getD {sector : Sector} {j : Nat}
    (h : sector.toList.findIdx? (· ≠ 0xFF) = some j) :
    j < 512 ∧ sector.toList.find? (· ≠ 0xFF) = some (sector.toList.getD j 0) := by
  rw [List.findIdx?_eq_some_iff_getElem] at h
  rcases h with ⟨hj, hne, hbefore⟩
  have hbyte : sector.toList.getD j 0 = sector.toList[j] := by
    rw [List.getD_eq_getElem?_getD, List.getElem?_eq_getElem hj, Option.getD_some]
  refine ⟨by simpa using hj, ?_⟩
  rw [hbyte, List.find?_eq_some_iff_getElem]
  exact ⟨hne, j, hj, rfl, fun i hi ↦ by simpa using hbefore i hi⟩

theorem defined_allocFreeBlock_iff (h0 : fs.spb.sFirstDataBlock = 0) (hpos : 1 ≤ fs.disk.groups)
    (parent : Ext2Node) : Defined (allocFreeBlock fs parent) ↔ BlockServed fs parent := by
  unfold BlockServed blockBitmapSector allocFreeBlock
  dsimp only
  cases hdesc : readDesc fs (parent.entry.inode / inodesPerGroup) with
  | none =>
    refine iff_of_false (not_defined_error _) ?_
    rintro ⟨first, hfirst, -⟩
    cases hfirst
  | some desc =>
    have hk := group_lt_of_readDesc hdesc
    rw [determinate_some, ok_bind]
    change Defined (scanBlockBitmap _ _ _ _ (0 :: [1, 2, 3, 4, 5, 6, 7])) ↔ _
    rw [scanBlockBitmap]
    simp only [allocBlockBitmapBlock, Option.bind_eq_bind, Option.bind_some]
    cases hread : (fs.disk.readSector (UInt32.ofNat 0 + desc.bgBlockBitmap * sectorsPerBlock)
      none).2 with
    | none =>
      refine iff_of_false (not_defined_error _) ?_
      rintro ⟨first, hfirst, -⟩
      cases hfirst
    | some first =>
      rw [determinate_some, ok_bind]
      simp only [Option.some.injEq, exists_eq_left']
      cases hfind : first.toList.findIdx? (· ≠ 0xFF) with
      | none =>
        have hfull := sectorFull_iff.mpr hfind
        change Defined (scanBlockBitmap _ _ _ _ _) ↔ _
        rw [defined_scanBlockBitmap_iff hfull (by decide)]
        constructor
        · intro h
          refine Or.inr fun i hi sector hsector ↦ ?_
          by_cases hzero : i = 0
          · rw [hzero, hread, Option.some.injEq] at hsector
            rw [← hsector]
            exact hfull
          · exact h i (by simp; omega) sector hsector
        · rintro (⟨byte, hbyte, -⟩ | h)
          · -- there is no byte that is not full
            have hne : byte ≠ 0xFF := by simpa using List.find?_some hbyte
            exact absurd (hfull byte (List.mem_of_find?_eq_some hbyte)) hne
          · have hlt : ∀ i ∈ [1, 2, 3, 4, 5, 6, 7], i < 8 := by decide
            exact fun i hi ↦ h i (hlt i hi)
      | some j =>
        rcases find?_getD hfind with ⟨hj, hbyte⟩
        change Defined (takeBlock _ _ _ _ _ _ _) ↔ _
        rw [defined_takeBlock_iff h0 hpos hk hj, hbyte]
        simp only [Option.some.injEq, exists_eq_left']
        refine ⟨Or.inl, ?_⟩
        rintro (h | h)
        · exact h
        · -- the first sector is not full
          rw [sectorFull_iff.mp (h 0 (by decide) first hread)] at hfind
          cases hfind

end Served

/-! ## alloc_free_inode -/

/-- A byte of an inode bitmap sector has a clear bit that `alloc_free_inode` would take. -/
def HasFreeInode (sector : Sector) : Prop := ∃ byte ∈ sector.toList, byte < 0xF0

/-- Sector `i` of the inode bitmap is on the disk and has such a byte. -/
def SectorOffers (fs : Ext2Filesystem) (desc : Ext2GroupDesc) (i : Nat) : Prop :=
  ∃ sector, (fs.disk.readSector (UInt32.ofNat i + desc.bgInodeBitmap * sectorsPerBlock) none).2 =
    some sector ∧ HasFreeInode sector

/-- The inode that `alloc_free_inode` takes for a node, if there is one, is in the first sector of
the bitmap. -/
def InodeFirst (fs : Ext2Filesystem) (parent : Ext2Node) : Prop :=
  ∀ desc, readDesc fs (parent.inodeNum / inodesPerGroup) = some desc →
    ∀ i < 8, SectorOffers fs desc i → SectorOffers fs desc 0

theorem scanInodeBytes_full_iff (bytes : List UInt8) (j : Nat) (offset : Option Nat) :
    (∃ offset', scanInodeBytes bytes j offset = .full offset') ↔ ∀ byte ∈ bytes, 0xF0 ≤ byte := by
  induction bytes generalizing j offset with
  | nil => exact ⟨fun _ byte hbyte ↦ absurd hbyte List.not_mem_nil, fun _ ↦ ⟨offset, rfl⟩⟩
  | cons byte bytes ih =>
    rw [scanInodeBytes, List.forall_mem_cons]
    by_cases hfull : byte = 0xFF
    · rw [if_pos hfull, ih, hfull]
      exact ⟨fun h ↦ ⟨by decide, h⟩, fun h ↦ h.2⟩
    · rw [if_neg hfull]
      by_cases hhigh : 0xF0 ≤ byte
      · rw [if_pos hhigh, ih]
        exact ⟨fun h ↦ ⟨hhigh, h⟩, fun h ↦ h.2⟩
      · rw [if_neg hhigh]
        refine iff_of_false ?_ (fun h ↦ hhigh h.1)
        rintro ⟨offset', h⟩
        cases h

theorem takeInode_ok {fs fs' : Ext2Filesystem} {groupNum : UInt32} {desc : Ext2GroupDesc} {i : Nat}
    {sector : Sector} {j : Nat} {offset : Option Nat} {n : Int}
    (h : takeInode fs groupNum desc i sector j offset = .ok (n, fs')) :
    ∃ (m : Nat) (bits : Sector), n = m ∧ m < 4096 ∧
      writeCounts (fs.disk.writeSector (UInt32.ofNat i + desc.bgInodeBitmap * sectorsPerBlock) bits)
        (countInodeSb fs.spb) i bits groupNum countInode = .ok fs' := by
  unfold takeInode at h
  rcases bind_eq_ok.mp h with ⟨offset, -, h⟩
  rcases bind_eq_ok.mp h with ⟨bits, hbits, h⟩
  rcases bind_eq_ok.mp h with ⟨fs₁, hcounts, h⟩
  rw [pure_eq_ok, Except.ok.injEq, Prod.mk.injEq] at h
  rcases h with ⟨rfl, rfl⟩
  exact ⟨_, bits, rfl, lt_of_setBit hbits, hcounts⟩

theorem not_hasFreeInode_iff {sector : Sector} (offset : Option Nat) :
    ¬ HasFreeInode sector ↔ ∃ offset', scanInodeBytes sector.toList 0 offset = .full offset' := by
  rw [scanInodeBytes_full_iff]
  constructor
  · intro hnone byte hbyte
    exact UInt8.not_lt.mp fun hlt ↦ hnone ⟨byte, hbyte, hlt⟩
  · rintro hall ⟨byte, hbyte, hlt⟩
    exact UInt8.not_lt.mpr (hall byte hbyte) hlt

-- The scan passes over the sectors that offer nothing; one that is not on the disk leaves the buffer
-- as the one before it.
theorem scanInodeBitmap_ok {fs fs' : Ext2Filesystem} {groupNum : UInt32} {desc : Ext2GroupDesc}
    {n : Int} {is : List Nat} {buf : Option Sector} {offset : Option Nat}
    (hbuf : ∀ sector ∈ buf, ¬ HasFreeInode sector)
    (h : scanInodeBitmap fs groupNum desc offset buf is = .ok (n, fs')) :
    (n = ext2Error ∧ fs' = fs ∧ ∀ i ∈ is, ¬ SectorOffers fs desc i) ∨
      ∃ skipped i rest, is = skipped ++ i :: rest ∧ (∀ i ∈ skipped, ¬ SectorOffers fs desc i) ∧
        SectorOffers fs desc i ∧ ∃ sector j offset,
          takeInode fs groupNum desc i sector j offset = .ok (n, fs') := by
  induction is generalizing buf offset with
  | nil =>
    rw [scanInodeBitmap, Except.ok.injEq, Prod.mk.injEq] at h
    exact Or.inl ⟨h.1.symm, h.2.symm, fun i hi ↦ absurd hi List.not_mem_nil⟩
  | cons i is ih =>
    rw [scanInodeBitmap] at h
    rcases bind_eq_ok.mp h with ⟨sector, hsector, h⟩
    rw [determinate_eq_ok, allocInodeBitmapBlock] at hsector
    have hoffers : SectorOffers fs desc i ↔ HasFreeInode sector := by
      unfold SectorOffers
      rcases Nat.lt_or_ge (UInt32.ofNat i + desc.bgInodeBitmap * sectorsPerBlock).toNat
        fs.disk.numberOfSectors.toNat with hlt | hge
      · rw [DiskOperations.readSector_of_lt _ hlt] at hsector ⊢
        rw [← Option.some.inj hsector]
        simp only [Option.some.injEq, exists_eq_left']
      · rw [DiskOperations.readSector_of_ge _ hge] at hsector ⊢
        exact iff_of_false (by simp) (hbuf sector hsector)
    cases hscan : scanInodeBytes sector.toList 0 offset with
    | full offset' =>
      rw [hscan] at h
      have hnone := (not_hasFreeInode_iff offset).mpr ⟨offset', hscan⟩
      have hskip : ¬ SectorOffers fs desc i := fun h ↦ hnone (hoffers.mp h)
      have hbuf' : ∀ s ∈ some sector, ¬ HasFreeInode s := by
        intro s hs
        rw [← Option.some.inj hs]
        exact hnone
      rcases ih hbuf' h with ⟨herror, hsame, hrest⟩ | ⟨skipped, i', rest, his, hskipped, hfound⟩
      · exact Or.inl ⟨herror, hsame, List.forall_mem_cons.mpr ⟨hskip, hrest⟩⟩
      · refine Or.inr ⟨i :: skipped, i', rest, ?_, List.forall_mem_cons.mpr ⟨hskip, hskipped⟩,
          hfound⟩
        rw [his, List.cons_append]
    | found j offset' =>
      rw [hscan] at h
      have hfree : HasFreeInode sector := by
        by_contra hnone
        rcases (not_hasFreeInode_iff offset).mp hnone with ⟨offset'', hfull⟩
        rw [hscan] at hfull
        cases hfull
      exact Or.inr ⟨[], i, is, rfl, fun i hi ↦ absurd hi List.not_mem_nil, hoffers.mpr hfree,
        sector, j, offset', h⟩

-- The scan of the eight sectors.
theorem scanInodeBitmap_eight {fs fs' : Ext2Filesystem} {groupNum : UInt32} {desc : Ext2GroupDesc}
    {n : Int} (h : scanInodeBitmap fs groupNum desc none none (List.range 8) = .ok (n, fs')) :
    (n = ext2Error ∧ fs' = fs ∧ ∀ i < 8, ¬ SectorOffers fs desc i) ∨
      ∃ i, i < 8 ∧ (i = 0 ↔ ∀ i < 8, SectorOffers fs desc i → SectorOffers fs desc 0) ∧
        ∃ sector j offset, takeInode fs groupNum desc i sector j offset = .ok (n, fs') := by
  have hbuf : ∀ sector ∈ (none : Option Sector), ¬ HasFreeInode sector := by simp
  rcases scanInodeBitmap_ok hbuf h with
    ⟨herror, hsame, hnone⟩ | ⟨skipped, i, rest, his, hskipped, hfound, htake⟩
  · exact Or.inl ⟨herror, hsame, fun i hi ↦ hnone i (List.mem_range.mpr hi)⟩
  · have hi : i < 8 := by
      rw [← List.mem_range, his]
      exact List.mem_append_right _ List.mem_cons_self
    refine Or.inr ⟨i, hi, ?_, htake⟩
    constructor
    · rintro rfl
      exact fun _ _ _ ↦ hfound
    · intro hfirst
      -- else sector 0 is one of those passed over
      cases skipped with
      | nil => exact ((List.cons.inj his).1).symm
      | cons i' skipped =>
        have hzero : 0 = i' := (List.cons.inj his).1
        exact absurd (hfirst i hi hfound) (hzero ▸ hskipped i' List.mem_cons_self)

section Inode

variable {fs fs' : Ext2Filesystem} {parent : Ext2Node} {n : Int}

-- The parent's group is chosen while both of its counters are positive.  To look at another group
-- is to follow a wrong pointer.
theorem findFreeGroup_cases (h0 : fs.spb.sFirstDataBlock = 0) (hpos : 1 ≤ fs.disk.groups) {k : Nat}
    (hgroup : (parent.inodeNum / inodesPerGroup).toNat = k) (hk : k < 16) :
    findFreeGroup fs parent =
      if fs.descs[k].bgFreeBlocksCount ≠ 0 ∧ fs.descs[k].bgFreeInodesCount ≠ 0 then .ok (k : Int)
      else .error .badPointer := by
  split
  · rename_i hfree
    exact findFreeGroup_eq h0 hpos hgroup hk hfree.1 hfree.2
  · rename_i hfree
    have hprobe : ∀ m : Nat, 1 ≤ m → probeGroups parent m m k = .error .badPointer := by
      intro m hm
      obtain ⟨m', rfl⟩ : ∃ m', m = m' + 1 := ⟨m - 1, by omega⟩
      rfl
    rw [findFreeGroup, readDesc_of_lt fs h0 hpos hgroup hk, determinate_some, ok_bind, hgroup]
    rw [if_neg (show ¬ ((copyDesc fs.descs[k]).bgFreeBlocksCount ≠ 0 ∧
      (copyDesc fs.descs[k]).bgFreeInodesCount ≠ 0) from hfree)]
    exact hprobe _ (show 1 ≤ fs.disk.groupCount.toNat from hpos)

theorem findFreeGroup_ok (h0 : fs.spb.sFirstDataBlock = 0) (hpos : 1 ≤ fs.disk.groups) {g : Int}
    (h : findFreeGroup fs parent = .ok g) :
    ∃ k, ∃ hk : k < 16, (parent.inodeNum / inodesPerGroup).toNat = k ∧ g = k ∧
      fs.descs[k].bgFreeBlocksCount ≠ 0 ∧ fs.descs[k].bgFreeInodesCount ≠ 0 := by
  have hfind := h
  unfold findFreeGroup at hfind
  rcases bind_eq_ok.mp hfind with ⟨desc, hdesc, -⟩
  rcases readDesc_ok h0 hpos hdesc with ⟨hk, -⟩
  rw [findFreeGroup_cases h0 hpos rfl hk] at h
  split at h
  · rename_i hfree
    rw [Except.ok.injEq] at h
    exact ⟨_, hk, rfl, h.symm, hfree⟩
  · cases h

-- A call of `alloc_free_inode` that returns: nothing is changed, or a bit of bitmap sector `i` is
-- taken, and the superblock is written from group `i` on.
theorem allocFreeInode_cases (h0 : fs.spb.sFirstDataBlock = 0) (hpos : 1 ≤ fs.disk.groups)
    (h : allocFreeInode fs parent = .ok (n, fs')) :
    (n = ext2Error ∧ fs' = fs ∧ InodeFirst fs parent) ∨
      ∃ k, ∃ hk : k < 16, (parent.inodeNum / inodesPerGroup).toNat = k ∧
        fs.descs[k].bgFreeBlocksCount ≠ 0 ∧ fs.descs[k].bgFreeInodesCount ≠ 0 ∧
        ∃ (i m : Nat) (bits : Sector), n = m ∧ m < 4096 ∧ i < 8 ∧ (i = 0 ↔ InodeFirst fs parent) ∧
          Allocated fs fs' (UInt32.ofNat i + fs.descs[k].bgInodeBitmap * sectorsPerBlock) bits
            (countInodeSb fs.spb) i k countInode := by
  unfold allocFreeInode at h
  rcases bind_eq_ok.mp h with ⟨g, hgroup, h⟩
  rcases bind_eq_ok.mp h with ⟨desc, hdesc, h⟩
  rcases findFreeGroup_ok h0 hpos hgroup with ⟨k, hk, hnum, rfl, hblocks, hinodes⟩
  have hg : (UInt32.ofInt (k : Int)).toNat = k := ofInt_natCast_toNat (by omega)
  rw [readDesc_of_lt fs h0 hpos hg hk, determinate_some, Except.ok.injEq] at hdesc
  have hread := readDesc_of_lt fs h0 hpos hnum hk
  rw [hdesc] at hread
  have hfirst : InodeFirst fs parent ↔ ∀ i < 8, SectorOffers fs desc i → SectorOffers fs desc 0 := by
    unfold InodeFirst
    simp only [hread, Option.some.injEq, forall_eq']
  rcases scanInodeBitmap_eight h with
    ⟨herror, hsame, hnone⟩ | ⟨i, hi, hzero, sector, j, offset, htake⟩
  · exact Or.inl ⟨herror, hsame, hfirst.mpr fun i hi hoffers ↦ absurd hoffers (hnone i hi)⟩
  · rcases takeInode_ok htake with ⟨m, bits, hn, hm, hcounts⟩
    rw [← hdesc, copyDesc_bgInodeBitmap] at hcounts
    exact Or.inr ⟨k, hk, hnum, hblocks, hinodes, i, m, bits, hn, hm, hi, hzero.trans hfirst.symm,
      allocated_of_writeCounts (show (countInodeSb fs.spb).sFirstDataBlock = 0 from h0) hpos hg hk
        hcounts⟩

end Inode

end Ext2Fs
