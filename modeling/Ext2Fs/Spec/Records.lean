import Ext2Fs.Reasoning.Bitmap
import Ext2Fs.Model.Types

/-!
# Records in a sector

A zeroed sector is a zeroed record under every cast of the program.
-/

open Reasoning Reasoning.Layout

namespace Ext2Fs

theorem u16_zero : u16 0 = Vector.replicate 2 0 := by decide

theorem u32_zero : u32 0 = Vector.replicate 4 0 := by decide

theorem groupDescLayout_zero : groupDescLayout Ext2GroupDesc.zero = Vector.replicate 32 0 :=
  pair_replicate u32_zero <| pair_replicate u32_zero <| pair_replicate u32_zero <|
    pair_replicate u16_zero <| pair_replicate u16_zero <| pair_replicate u16_zero <|
    pair_replicate u16_zero <| array_replicate 3 u32_zero

theorem inodeLayout_zero : inodeLayout Ext2Inode.zero = Vector.replicate 128 0 :=
  pair_replicate (pair_replicate u16_zero u16_zero) <|
    pair_replicate (pair_replicate u32_zero <| pair_replicate u32_zero <|
      pair_replicate u32_zero <| pair_replicate u32_zero u32_zero) <|
    pair_replicate (pair_replicate u16_zero u16_zero) <|
    pair_replicate (pair_replicate u32_zero u32_zero) <|
    pair_replicate (array_replicate 15 u32_zero) <|
    pair_replicate (pair_replicate u32_zero <| pair_replicate u32_zero <|
      pair_replicate u32_zero u32_zero) <|
    array_replicate 4 u32_zero

theorem dirEntryLayout_zero : dirEntryLayout Ext2DirEntry.zero = Vector.replicate 32 0 :=
  pair_replicate u32_zero <| pair_replicate u16_zero <| pair_replicate u16_zero rfl

theorem asDescs_zeroSector : asDescs zeroSector = Vector.replicate 16 Ext2GroupDesc.zero := by
  rw [asDescs, Equiv.symm_apply_eq]
  exact (array_replicate 16 groupDescLayout_zero).symm

theorem asInodes_zeroSector : asInodes zeroSector = Vector.replicate 4 Ext2Inode.zero := by
  rw [asInodes, Equiv.symm_apply_eq]
  exact (array_replicate 4 inodeLayout_zero).symm

theorem asEntries_zeroSector : asEntries zeroSector = Vector.replicate 16 Ext2DirEntry.zero := by
  rw [asEntries, Equiv.symm_apply_eq]
  exact (array_replicate 16 dirEntryLayout_zero).symm

theorem asWords_zeroSector : asWords zeroSector = Vector.replicate 128 0 := by
  have hwords : array u32 128 (Vector.replicate 128 0) = Vector.replicate (128 * 4) 0 :=
    array_replicate 128 u32_zero
  unfold asWords
  exact (Equiv.symm_apply_eq _).mpr hwords.symm

-- A sector of equal bytes is a directory of equal entries.
theorem asEntries_replicate (x : UInt8) :
    ∃ entry, asEntries (Vector.replicate 512 x) = Vector.replicate 16 entry ∧
      entry.name = Vector.replicate 24 x := by
  obtain ⟨entry, hname, hentry⟩ : ∃ entry : Ext2DirEntry, entry.name = Vector.replicate 24 x ∧
      dirEntryLayout entry = Vector.replicate 32 x :=
    ⟨⟨u32.symm (Vector.replicate 4 x), u16.symm (Vector.replicate 2 x),
      u16.symm (Vector.replicate 2 x), Vector.replicate 24 x⟩, rfl,
      pair_replicate (Equiv.apply_symm_apply ..) <| pair_replicate (Equiv.apply_symm_apply ..) <|
        pair_replicate (Equiv.apply_symm_apply ..) rfl⟩
  refine ⟨entry, ?_, hname⟩
  rw [asEntries, Equiv.symm_apply_eq]
  exact (array_replicate 16 hentry).symm

theorem asDescs_replicate (x : UInt8) :
    ∃ desc, asDescs (Vector.replicate 512 x) = Vector.replicate 16 desc ∧
      desc.bgInodeTable = u32.symm (Vector.replicate 4 x) := by
  obtain ⟨words, hwords⟩ : ∃ words : Vector UInt32 3, array u32 3 words = Vector.replicate 12 x :=
    ⟨(array u32 3).symm (Vector.replicate 12 x), Equiv.apply_symm_apply ..⟩
  obtain ⟨desc, htable, hdesc⟩ : ∃ desc : Ext2GroupDesc,
      desc.bgInodeTable = u32.symm (Vector.replicate 4 x) ∧
      groupDescLayout desc = Vector.replicate 32 x :=
    ⟨⟨u32.symm (Vector.replicate 4 x), u32.symm (Vector.replicate 4 x),
      u32.symm (Vector.replicate 4 x), u16.symm (Vector.replicate 2 x),
      u16.symm (Vector.replicate 2 x), u16.symm (Vector.replicate 2 x),
      u16.symm (Vector.replicate 2 x), words⟩, rfl,
      pair_replicate (Equiv.apply_symm_apply ..) <| pair_replicate (Equiv.apply_symm_apply ..) <|
        pair_replicate (Equiv.apply_symm_apply ..) <|
        pair_replicate (Equiv.apply_symm_apply ..) <| pair_replicate (Equiv.apply_symm_apply ..) <|
        pair_replicate (Equiv.apply_symm_apply ..) <| pair_replicate (Equiv.apply_symm_apply ..)
        hwords⟩
  refine ⟨desc, ?_, htable⟩
  rw [asDescs, Equiv.symm_apply_eq]
  exact (array_replicate 16 hdesc).symm

/-! ## The fields of an inode that are read back -/

theorem getElem_asInodes (s : Sector) {k : Nat} (hk : k < 4) :
    (asInodes s)[k] = inodeLayout.symm (slice s (k * 128) 128 (by omega)) := by
  rw [asInodes]
  simp [array]

section InodeBytes

variable (b : Bytes 128)

theorem iMode_eq : (inodeLayout.symm b).iMode = u16.symm (slice b 0 2 (by decide)) := by
  change u16.symm (slice (slice b 0 4 (by decide)) 0 2 (by decide)) = _
  rw [slice_slice]

theorem iBlocks_eq : (inodeLayout.symm b).iBlocks = u32.symm (slice b 28 4 (by decide)) := by
  change u32.symm (slice (slice (slice (slice (slice b 4 124 (by decide)) 20 104 (by decide))
    4 100 (by decide)) 0 8 (by decide)) 0 4 (by decide)) = _
  simp only [slice_slice]

theorem iBlock_eq : getElem (inodeLayout.symm b).iBlock 0 pointer_lt =
    u32.symm (slice b 36 4 (by decide)) := by
  change ((array u32 15).symm (slice (slice (slice (slice (slice b 4 124 (by decide))
    20 104 (by decide)) 4 100 (by decide)) 8 92 (by decide)) 0 60 (by decide)))[0] = _
  rw [getElem_array_symm u32 _ (by decide) (by decide)]
  simp only [slice_slice]

end InodeBytes

/-- Equal in the fields that `ext2_fill_inode` always returns. -/
def SameFields (e e' : Ext2Inode) : Prop :=
  e.iMode = e'.iMode ∧ e.iBlocks = e'.iBlocks ∧
    getElem e.iBlock 0 pointer_lt = getElem e'.iBlock 0 pointer_lt

theorem SameFields.symm {e e' : Ext2Inode} (h : SameFields e e') : SameFields e' e :=
  ⟨h.1.symm, h.2.1.symm, h.2.2.symm⟩

-- Two sectors that differ at most in the second and fourth words have the same inodes, as far as
-- these fields go.
theorem sameFields_of_bytes {s s' : Sector}
    (h : ∀ i (hi : i < 512), ¬ (4 ≤ i ∧ i < 8) → ¬ (12 ≤ i ∧ i < 16) → s[i] = s'[i])
    {k : Nat} (hk : k < 4) : SameFields (asInodes s)[k] (asInodes s')[k] := by
  have hslice : ∀ off w (hw : off + w ≤ 128),
      (∀ i, i < w → ¬ (4 ≤ off + i ∧ off + i < 8) ∧ ¬ (12 ≤ off + i ∧ off + i < 16)) →
      slice (slice s (k * 128) 128 (by omega)) off w hw =
        slice (slice s' (k * 128) 128 (by omega)) off w hw := by
    intro off w hw havoid
    apply Vector.ext
    intro i hi
    have hbytes := havoid i hi
    simp only [getElem_slice]
    exact h _ (by omega) (by omega) (by omega)
  rw [getElem_asInodes s hk, getElem_asInodes s' hk]
  refine ⟨?_, ?_, ?_⟩
  · rw [iMode_eq, iMode_eq, hslice _ _ _ (by omega)]
  · rw [iBlocks_eq, iBlocks_eq, hslice _ _ _ (by omega)]
  · rw [iBlock_eq, iBlock_eq, hslice _ _ _ (by omega)]

/-! ## The superblock's sector

Its second field is all that bits 32 to 63 of the sector touch, and its reserved part starts at
byte 104. -/

def Ext2SuperBlock.withBlocksCount (sb : Ext2SuperBlock) (count : UInt32) : Ext2SuperBlock :=
  { sb with sBlocksCount := count }

theorem superBlock_set (sb : Ext2SuperBlock) (x : UInt8) :
    ∃ count, (asSuperBlock.symm sb).set 4 x = asSuperBlock.symm (sb.withBlocksCount count) := by
  refine ⟨u32.symm ((u32 sb.sBlocksCount).set 0 x), ?_⟩
  rw [asSuperBlock]
  exact (pair_set_left _ _ _ _ (show 4 < 52 by decide) x).trans <|
    congrArg _ <| congrArg (·, _) <| (Equiv.symm_apply_eq _).mpr <|
    (pair_set_right _ _ _ _ (show 0 < 48 by decide) (show 4 = 4 + 0 from rfl) x).trans <|
    congrArg _ <| congrArg (_, ·) <| (Equiv.symm_apply_eq _).mpr <|
    pair_set_left _ _ _ _ (show 0 < 4 by decide) x

/-- The counters that change while a file system is in use, and the one that a wrong bitmap bit
hits. -/
def Ext2SuperBlock.withCounts (sb : Ext2SuperBlock) (blocks free : UInt32) : Ext2SuperBlock :=
  { sb with sBlocksCount := blocks, sFreeBlocksCount := free }

theorem superBlock_withCounts (sb : Ext2SuperBlock) (blocks free : UInt32) {i : Nat} (hi : i < 512)
    (hblocks : ¬ (4 ≤ i ∧ i < 8)) (hfree : ¬ (12 ≤ i ∧ i < 16)) :
    (asSuperBlock.symm (sb.withCounts blocks free))[i] = (asSuperBlock.symm sb)[i] := by
  rw [asSuperBlock]
  by_cases h52 : 52 ≤ i
  · exact (getElem_pair_right _ _ _ _ (show i - 52 < 460 by omega) (by omega)).trans
      (getElem_pair_right _ _ _ _ (show i - 52 < 460 by omega) (by omega)).symm
  refine (getElem_pair_left _ _ _ _ (show i < 52 by omega)).trans
    (Eq.trans ?_ (getElem_pair_left _ _ _ _ (show i < 52 by omega)).symm)
  by_cases h4 : i < 4
  · exact (getElem_pair_left _ _ _ _ h4).trans (getElem_pair_left _ _ _ _ h4).symm
  refine (getElem_pair_right _ _ _ _ (show i - 4 < 48 by omega) (by omega)).trans
    (Eq.trans ?_ (getElem_pair_right _ _ _ _ (show i - 4 < 48 by omega) (by omega)).symm)
  refine (getElem_pair_right _ _ _ _ (show i - 8 < 44 by omega) (by omega)).trans
    (Eq.trans ?_ (getElem_pair_right _ _ _ _ (show i - 8 < 44 by omega) (by omega)).symm)
  by_cases h12 : i < 12
  · exact (getElem_pair_left _ _ _ _ (show i - 8 < 4 by omega)).trans
      (getElem_pair_left _ _ _ _ (show i - 8 < 4 by omega)).symm
  refine (getElem_pair_right _ _ _ _ (show i - 12 < 40 by omega) (by omega)).trans
    (Eq.trans ?_ (getElem_pair_right _ _ _ _ (show i - 12 < 40 by omega) (by omega)).symm)
  exact (getElem_pair_right _ _ _ _ (show i - 16 < 36 by omega) (by omega)).trans
    (getElem_pair_right _ _ _ _ (show i - 16 < 36 by omega) (by omega)).symm

theorem superBlock_byte (sb : Ext2SuperBlock) :
    (asSuperBlock.symm sb)[0] = UInt8.ofNat sb.sInodesCount.toNat := by
  rw [asSuperBlock]
  exact (getElem_pair_left _ _ _ _ (show 0 < 52 by decide)).trans
    (getElem_pair_left _ _ _ _ (show 0 < 4 by decide))

theorem superBlock_blocksCount (sb : Ext2SuperBlock) :
    (asSuperBlock.symm sb)[4] = UInt8.ofNat sb.sBlocksCount.toNat := by
  rw [asSuperBlock]
  exact (getElem_pair_left _ _ _ _ (show 4 < 52 by decide)).trans <|
    (getElem_pair_right _ _ _ _ (show 0 < 48 by decide) (by decide)).trans
      (getElem_pair_left _ _ _ _ (show 0 < 4 by decide))

theorem superBlock_firstDataBlock (sb : Ext2SuperBlock) :
    (asSuperBlock.symm sb)[20] = UInt8.ofNat sb.sFirstDataBlock.toNat := by
  rw [asSuperBlock]
  exact (getElem_pair_left _ _ _ _ (show 20 < 52 by decide)).trans <|
    (getElem_pair_right _ _ _ _ (show 16 < 48 by decide) (by decide)).trans <|
    (getElem_pair_right _ _ _ _ (show 12 < 44 by decide) (by decide)).trans <|
    (getElem_pair_right _ _ _ _ (show 8 < 40 by decide) (by decide)).trans <|
    (getElem_pair_right _ _ _ _ (show 4 < 36 by decide) (by decide)).trans <|
    (getElem_pair_right _ _ _ _ (show 0 < 32 by decide) (by decide)).trans
      (getElem_pair_left _ _ _ _ (show 0 < 4 by decide))

section Tail

variable {sb : Ext2SuperBlock} (hzero : sb.sReserved = Vector.replicate 102 0)

include hzero

theorem superBlock_tail {j : Nat} (hj : j < 408) : (asSuperBlock.symm sb)[104 + j] = 0 := by
  have hz : (array u32 102 sb.sReserved)[j] = 0 := by
    rw [hzero, array_replicate 102 u32_zero, Vector.getElem_replicate]
  rw [asSuperBlock]
  exact (getElem_pair_right _ _ _ _ (show 52 + j < 460 by omega) (by omega)).trans <|
    (getElem_pair_right _ _ _ _ (show 40 + j < 448 by omega) (by omega)).trans <|
    (getElem_pair_right _ _ _ _ (show 24 + j < 432 by omega) (by omega)).trans <|
    (getElem_pair_right _ _ _ _ (show 20 + j < 428 by omega) (by omega)).trans <|
    (getElem_pair_right _ _ _ _ (show 16 + j < 424 by omega) (by omega)).trans <|
    (getElem_pair_right _ _ _ _ (show 12 + j < 420 by omega) (by omega)).trans <|
    (getElem_pair_right _ _ _ _ (show j < 408 by omega) (by omega)).trans hz

-- Seen as a bitmap, the sector is clear from bit 832 on.
theorem superBlock_bit {k : Nat} (hlo : 832 ≤ k) (hhi : k < 4096) :
    bitAt (asSuperBlock.symm sb) k = false := by
  obtain ⟨j, hj⟩ : ∃ j, k / 8 = 104 + j := ⟨k / 8 - 104, by omega⟩
  have hbyte := superBlock_tail hzero (show j < 408 by omega)
  rw [bitAt, dif_pos (by omega)]
  simp only [hj, hbyte]
  simp

-- Seen as an inode table, the sector has a zeroed inode in the slot of the root.
theorem asInodes_superBlock :
    getElem (asInodes (asSuperBlock.symm sb)) 2 rootSlot_lt = Ext2Inode.zero := by
  rw [asInodes]
  change inodeLayout.symm (slice _ (2 * 128) 128 _) = _
  rw [Equiv.symm_apply_eq, inodeLayout_zero]
  apply Vector.ext
  intro i hi
  have hbyte := superBlock_tail hzero (show 152 + i < 408 by omega)
  rw [getElem_slice, Vector.getElem_replicate]
  simpa [show 104 + (152 + i) = 256 + i by omega] using hbyte

end Tail

end Ext2Fs
