import Ext2Fs.Spec.RootDir

/-!
# Block mapping

`get_datablock` against the standard mapping of a file's blocks: twelve direct pointers, then trees
of index blocks of depth one, two and three.  The code divides the block number by the block size
once more before it compares it with the limits of the branches.
-/

open Reasoning

namespace Ext2Fs

/-! ## The standard mapping -/

theorem singlePointer_lt : 12 < 15 := by decide
theorem doublePointer_lt : 13 < 15 := by decide
theorem triplePointer_lt : 14 < 15 := by decide
theorem word_lt (e : Nat) : e % 128 < 128 := Nat.mod_lt e (by decide)

/-- Entry `e` of an index block: eight sectors of 128 block numbers. -/
def indexEntry (disk : DiskOperations) (block : UInt32) (e : Nat) : UInt32 :=
  getElem (asWords (disk.content (8 * block.toNat + e / 128))) (e % 128) (word_lt e)

/-- The block that holds logical block `l`. -/
def standardBlock (disk : DiskOperations) (iBlock : Vector UInt32 15) (l : Nat) : UInt32 :=
  if l < 12 then iBlock[l]?.getD 0
  else if l < 12 + 1024 then
    [l - 12].foldl (indexEntry disk) (getElem iBlock 12 singlePointer_lt)
  else if l < 12 + 1024 + 1048576 then
    let e := l - (12 + 1024)
    [e / 1024, e % 1024].foldl (indexEntry disk) (getElem iBlock 13 doublePointer_lt)
  else
    let e := l - (12 + 1024 + 1048576)
    [e / 1048576, e / 1024 % 1024, e % 1024].foldl (indexEntry disk)
      (getElem iBlock 14 triplePointer_lt)

/-- The block number is set, and the block lies on the disk. -/
def BlockAllocated (disk : DiskOperations) (block : UInt32) : Prop :=
  block ≠ 0 ∧ 8 * block.toNat + 8 ≤ disk.numberOfSectors.toNat

/-- Every block of a tree of index blocks is allocated. -/
def TreeAllocated (disk : DiskOperations) : Nat → UInt32 → Prop
  | 0, block => BlockAllocated disk block
  | depth + 1, block =>
    BlockAllocated disk block ∧ ∀ e, e < 1024 → TreeAllocated disk depth (indexEntry disk block e)

structure FullyAllocated (disk : DiskOperations) (iBlock : Vector UInt32 15) : Prop where
  direct : ∀ l, l < 12 → BlockAllocated disk (iBlock[l]?.getD 0)
  single : TreeAllocated disk 1 (getElem iBlock 12 singlePointer_lt)
  double : TreeAllocated disk 2 (getElem iBlock 13 doublePointer_lt)
  triple : TreeAllocated disk 3 (getElem iBlock 14 triplePointer_lt)

/-- The number of blocks of the largest file. -/
def maxBlocks : Nat := 12 + 1024 + 1048576 + 1073741824

/-- `get_datablock` finishes with no access outside the inode and the sector buffer, returns the
block of the standard mapping and leaves the wanted sector of it in the buffer. -/
def MapsTo (fs : Ext2Filesystem) (file : Ext2Node) (inode : InodeVar) (iBlock : Vector UInt32 15)
    (offset : UInt64) (buf : Option Sector) : Prop :=
  let block := standardBlock fs.disk iBlock (offset.toNat / 4096)
  ∃ fs' inode', getDatablock fs file inode offset buf = .ok (block, fs', inode',
    some (fs.disk.content (8 * block.toNat + offset.toNat % 4096 / 512)))

/-- Every file with a full tree is mapped at the offset. -/
def MapsOffset (offset : UInt64) : Prop :=
  ∀ (fs : Ext2Filesystem) (file : Ext2Node) (inode : InodeVar) (iBlock : Vector UInt32 15)
    (buf : Option Sector), inode.iBlock = iBlock.map some → FullyAllocated fs.disk iBlock →
      MapsTo fs file inode iBlock offset buf

theorem TreeAllocated.foldl {disk : DiskOperations} {es : List Nat} {block : UInt32}
    (h : TreeAllocated disk es.length block) (hes : ∀ e ∈ es, e < 1024) :
    BlockAllocated disk (es.foldl (indexEntry disk) block) := by
  induction es generalizing block with
  | nil => exact h
  | cons e es ih =>
    rw [List.foldl_cons]
    exact ih (h.2 e (hes e List.mem_cons_self)) fun e' he' ↦ hes e' (List.mem_cons_of_mem e he')

-- Index blocks that lead, whatever the entry, to the one below them.
section Chain

variable {disk : DiskOperations} {chain : Nat → UInt32}
  (hchain : ∀ d e, d < 3 → e < 1024 → indexEntry disk (chain (d + 1)) e = chain d)

include hchain

theorem foldl_chain {es : List Nat} (hlen : es.length ≤ 3) (hes : ∀ e ∈ es, e < 1024) :
    es.foldl (indexEntry disk) (chain es.length) = chain 0 := by
  induction es with
  | nil => rfl
  | cons e es ih =>
    rw [List.length_cons] at hlen
    rw [List.foldl_cons, List.length_cons, hchain _ _ (by omega) (hes e List.mem_cons_self)]
    exact ih (by omega) fun e' he' ↦ hes e' (List.mem_cons_of_mem e he')

theorem standardBlock_chain {iBlock : Vector UInt32 15}
    (hsingle : getElem iBlock 12 singlePointer_lt = chain 1)
    (hdouble : getElem iBlock 13 doublePointer_lt = chain 2)
    (htriple : getElem iBlock 14 triplePointer_lt = chain 3) {l : Nat} (hl : 12 ≤ l)
    (hmax : l < maxBlocks) : standardBlock disk iBlock l = chain 0 := by
  unfold maxBlocks at hmax
  unfold standardBlock
  rw [if_neg (by omega), hsingle, hdouble, htriple]
  split
  · exact @foldl_chain _ _ hchain [_] (by simp) (by simp; omega)
  · split
    · exact @foldl_chain _ _ hchain [_, _] (by simp) (by simp; omega)
    · exact @foldl_chain _ _ hchain [_, _, _] (by simp) (by simp; omega)

end Chain

-- The standard mapping of a full tree stays on the disk.
theorem FullyAllocated.standardBlock {disk : DiskOperations} {iBlock : Vector UInt32 15}
    (h : FullyAllocated disk iBlock) {l : Nat} (hl : l < maxBlocks) :
    BlockAllocated disk (standardBlock disk iBlock l) := by
  unfold maxBlocks at hl
  unfold Ext2Fs.standardBlock
  split
  · exact h.direct l (by assumption)
  · split
    · exact h.single.foldl (by simp; omega)
    · split
      · exact h.double.foldl (by simp; omega)
      · exact h.triple.foldl (by simp; omega)

theorem mapsOffset_first {offset : UInt64} (hoff : offset.toNat < 4096) : MapsOffset offset := by
  intro fs file inode iBlock buf hinode hfull
  have hl : offset.toNat / 4096 = 0 := by omega
  have hin := (hfull.standardBlock (l := 0) (by decide)).2
  have hblock : getElem inode.iBlock 0 pointer_lt = some (standardBlock fs.disk iBlock 0) := by
    simp [hinode, standardBlock]
  have hget := getDatablock_first file hblock hoff hin buf
  refine ⟨fs, inode, ?_⟩
  rw [hl, Nat.mod_eq_of_lt hoff]
  exact hget

/-! ## What the code reads -/

-- In the direct branch the block number indexes `i_block`, and the sector offset within the file
-- is added to the block.
theorem getDatablock_direct {fs : Ext2Filesystem} {file : Ext2Node} {inode : InodeVar}
    {offset : UInt64} {buf : Option Sector} {l : Nat}
    {out : UInt32 × Ext2Filesystem × InodeVar × Option Sector}
    (hl : (offset / 4096).toUInt32.toNat = l) (hnear : l < 53248)
    (h : getDatablock fs file inode offset buf = .ok out) :
    (inode.iBlock[l]?).join = some out.1 ∧
      out.2.2.2 = (fs.disk.readSector
        ((out.1 * sectorsPerBlock).toUInt64 + offset / 512).toUInt32 buf).2 := by
  have hdirect : (offset / 4096).toUInt32 / blockSizeInBytes ≤ 12 := by
    rw [UInt32.le_iff_toNat_le, UInt32.toNat_div, hl]
    simp
    omega
  rw [getDatablock_near file hdirect, hl] at h
  rcases finish_pointer h with ⟨hpointer, -, -, hread⟩
  exact ⟨hpointer, hread⟩

/-! ## A full tree on five blocks -/

/-- Blocks 2, 3 and 4 are index blocks that lead to block 1, which holds zeros. -/
def sharedContents (x : Nat) : Sector :=
  if 2 ≤ x / 8 ∧ x / 8 ≤ 4 then
    asWords.symm (Vector.replicate 128 (UInt32.ofNat (x / 8 - 1)))
  else zeroSector

def sharedDisk : DiskOperations := DiskOperations.ofContents 40 sharedContents

def sharedTree : Vector UInt32 15 :=
  Vector.ofFn fun k ↦ if k.val < 12 then 1 else UInt32.ofNat (k.val - 10)

-- The index block of depth `depth` leads to the one below it.
theorem indexEntry_shared {depth e : Nat} (hdepth : 1 ≤ depth) (hle : depth ≤ 3) (he : e < 1024) :
    indexEntry sharedDisk (UInt32.ofNat (depth + 1)) e = UInt32.ofNat depth := by
  have hnum : (UInt32.ofNat (depth + 1)).toNat = depth + 1 := by
    simp
    omega
  have hdiv : (8 * (depth + 1) + e / 128) / 8 = depth + 1 := by omega
  have hcontent : sharedDisk.content (8 * (depth + 1) + e / 128) =
      asWords.symm (Vector.replicate 128 (UInt32.ofNat depth)) := by
    change sharedContents _ = _
    unfold sharedContents
    rw [hdiv, if_pos (by omega), Nat.add_sub_cancel]
  unfold indexEntry
  rw [hnum, hcontent, Equiv.apply_symm_apply, Vector.getElem_replicate]

theorem standardBlock_shared {l : Nat} (hl : l < maxBlocks) :
    standardBlock sharedDisk sharedTree l = 1 := by
  by_cases hdirect : l < 12
  · have hlt : l < 15 := by omega
    rw [standardBlock, if_pos hdirect]
    simp [sharedTree, hlt, hdirect]
  · have hchain : ∀ d e, d < 3 → e < 1024 →
        indexEntry sharedDisk (UInt32.ofNat (d + 1 + 1)) e = UInt32.ofNat (d + 1) :=
      fun d e hd he ↦ indexEntry_shared (by omega) (by omega) he
    exact @standardBlock_chain sharedDisk (fun d ↦ UInt32.ofNat (d + 1)) hchain sharedTree rfl rfl rfl
      l (Nat.le_of_not_lt hdirect) hl

theorem blockAllocated_shared {k : Nat} (hk : k ≤ 3) :
    BlockAllocated sharedDisk (UInt32.ofNat (k + 1)) := by
  have hnum : (UInt32.ofNat (k + 1)).toNat = k + 1 := by
    simp
    omega
  constructor
  · intro hzero
    rw [hzero] at hnum
    cases hnum
  · rw [hnum]
    change 8 * (k + 1) + 8 ≤ 40
    omega

theorem treeAllocated_shared {depth : Nat} (hdepth : depth ≤ 3) :
    TreeAllocated sharedDisk depth (UInt32.ofNat (depth + 1)) := by
  induction depth with
  | zero => exact blockAllocated_shared hdepth
  | succ depth ih =>
    refine ⟨blockAllocated_shared hdepth, fun e he ↦ ?_⟩
    rw [indexEntry_shared (by omega) hdepth he]
    exact ih (by omega)

theorem fullyAllocated_shared : FullyAllocated sharedDisk sharedTree where
  direct l hl := by
    have h := standardBlock_shared (l := l) (by unfold maxBlocks; omega)
    rw [standardBlock, if_pos hl] at h
    rw [h]
    exact blockAllocated_shared (k := 0) (by decide)
  single := treeAllocated_shared (by decide)
  double := treeAllocated_shared (by decide)
  triple := treeAllocated_shared (by decide)

theorem content_shared (x : Nat) :
    (asWords (sharedDisk.content x)) = Vector.replicate 128
      (if 2 ≤ x / 8 ∧ x / 8 ≤ 4 then UInt32.ofNat (x / 8 - 1) else 0) := by
  change asWords (sharedContents x) = _
  unfold sharedContents
  split
  · rw [Equiv.apply_symm_apply]
  · exact asWords_zeroSector

-- Only the direct pointers name block 1.
theorem sharedTree_direct {l : Nat} (h : ((sharedTree.map some)[l]?).join = some 1) : l < 12 := by
  apply Nat.lt_of_not_le
  intro hge
  by_cases hl : l < 15
  · have hindex : UInt32.ofNat (l - 10) = 1 := by
      simpa [sharedTree, hl, Nat.not_lt.mpr hge] using h
    have hnat := congrArg UInt32.toNat hindex
    simp at hnat
    omega
  · rw [Vector.getElem?_eq_none (by omega)] at h
    cases h

theorem not_mapsOffset_of_shared {offset : UInt64} (hlow : 4096 ≤ offset.toNat)
    (hhigh : offset.toNat < 4096 * maxBlocks) : ¬ MapsOffset offset := by
  intro hmaps
  have hmax : maxBlocks = 1074791436 := rfl
  rcases hmaps ⟨Ext2SuperBlock.zero, sharedDisk⟩ ⟨Ext2DirEntry.zero, 0⟩
    { InodeVar.uninit with iBlock := sharedTree.map some } sharedTree none rfl
    fullyAllocated_shared with ⟨fs', inode', hget⟩
  simp only [standardBlock_shared (show offset.toNat / 4096 < maxBlocks by omega)] at hget
  have hwords := content_shared (8 * (1 : UInt32).toNat + offset.toNat % 4096 / 512)
  rw [if_neg (by simp; omega)] at hwords
  have hblock : (offset / 4096).toUInt32.toNat = offset.toNat / 4096 := by
    simp
    omega
  by_cases hnear : offset.toNat / 4096 < 53248
  · rcases getDatablock_direct hblock hnear hget with ⟨hpointer, hread⟩
    have hdirect := sharedTree_direct hpointer
    have haddr : (((1 : UInt32) * sectorsPerBlock).toUInt64 + offset / 512).toUInt32.toNat =
        8 + offset.toNat / 512 := by
      simp
      omega
    by_cases hin : 8 + offset.toNat / 512 < 40
    · -- the sector lies in one of the index blocks
      have hlt : (((1 : UInt32) * sectorsPerBlock).toUInt64 + offset / 512).toUInt32.toNat <
          sharedDisk.numberOfSectors.toNat := by
        rw [haddr]
        exact hin
      rw [DiskOperations.readSector_of_lt none hlt, haddr, Option.some.injEq] at hread
      have hindex := content_shared (8 + offset.toNat / 512)
      rw [← hread, hwords, if_pos (by omega)] at hindex
      have hword := congrArg (fun v : Vector UInt32 128 ↦ (getElem v 0 (by decide)).toNat) hindex
      simp at hword
      omega
    · -- the sector lies past the end
      have hge : sharedDisk.numberOfSectors.toNat ≤
          (((1 : UInt32) * sectorsPerBlock).toUInt64 + offset / 512).toUInt32.toNat := by
        rw [haddr]
        exact Nat.le_of_not_lt hin
      rw [DiskOperations.readSector_of_ge none hge] at hread
      cases hread
  · have hfar : ¬ (offset / 4096).toUInt32 / blockSizeInBytes ≤ 12 := by
      rw [UInt32.le_iff_toNat_le, UInt32.toNat_div, hblock]
      simp
      omega
    rcases getDatablock_indirect hfar hget with ⟨k, hword⟩
    simp only [Option.bind_some, loadAt, hwords] at hword
    rw [Vector.getElem?_replicate] at hword
    split at hword
    · exact absurd (Option.some.inj hword) (by decide)
    · cases hword

/-! ## The condition -/

/-- The mapping is the standard one in the first block of a file, and nowhere else. -/
theorem mapsOffset_iff (offset : UInt64) (h : offset.toNat < 4096 * maxBlocks) :
    MapsOffset offset ↔ offset.toNat < 4096 := by
  constructor
  · intro hmaps
    apply Nat.lt_of_not_le
    intro hlow
    exact not_mapsOffset_of_shared hlow h hmaps
  · exact mapsOffset_first

theorem mapsOffset_iff_second : MapsOffset 4096 ↔ (4096 : UInt64).toNat < 4096 :=
  mapsOffset_iff 4096 (by decide)

/-- The second block of a file whose pointers are all set. -/
theorem not_mapsOffset : ¬ MapsOffset 4096 := not_mapsOffset_of_shared (by decide) (by decide)

end Ext2Fs
