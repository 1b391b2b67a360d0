import Ext2Fs.Spec.Make

/-!
# The allocators of a file system in use

On a disk of at most sixteen groups every entry is made in the root, so that group 0 alone serves
all allocations.  The two bitmaps are determined by the numbers of inodes and of blocks taken.
-/

open Reasoning

namespace Ext2Fs

/-! ## Inode numbers -/

/-- The run of ones in byte `j` of the inode bitmap after `k` allocations.  The first byte is full
from the start; of the others only the upper halves are ever handed out. -/
def inodeRun (k j : Nat) : Nat :=
  if j = 0 then 8 else if j = 1 then min 4 (3 + k) else min 4 (k - 1 - 4 * (j - 2))

/-- The byte from which the next inode is taken. -/
def inodeByte (k : Nat) : Nat := if k = 0 then 1 else 2 + (k - 1) / 4

/-- The inode number that the next allocation returns: 11, then 16 to 19, 24 to 27, and so on. -/
def nextInode (k : Nat) : Nat := inodeByte k * 8 + inodeRun k (inodeByte k)

theorem inodeRun_le (k j : Nat) : inodeRun k j ≤ 8 := by
  unfold inodeRun
  split
  · omega
  · split <;> omega

theorem inodeRun_before {k j : Nat} (hj : j < inodeByte k) : 4 ≤ inodeRun k j := by
  unfold inodeByte at hj
  unfold inodeRun
  split at hj <;> grind

theorem inodeRun_at (k : Nat) : inodeRun k (inodeByte k) < 4 := by
  unfold inodeByte inodeRun
  by_cases hk : k = 0
  · subst hk
    decide
  · rw [if_neg hk, if_neg (by omega), if_neg (by omega)]
    omega

theorem inodeRun_succ (k : Nat) :
    Function.update (inodeRun k) (inodeByte k) (inodeRun k (inodeByte k) + 1) = inodeRun (k + 1) := by
  funext j
  by_cases hj : j = inodeByte k
  · subst hj
    rw [Function.update_self]
    unfold inodeByte inodeRun
    by_cases hk : k = 0
    · subst hk
      decide
    · rw [if_neg hk, if_neg (by omega), if_neg (by omega), if_neg (by omega), if_neg (by omega)]
      omega
  · rw [Function.update_of_ne hj]
    unfold inodeByte at hj
    unfold inodeRun
    by_cases hk : k = 0
    · rw [if_pos hk] at hj
      grind
    · rw [if_neg hk] at hj
      grind

theorem nextInode_bounds {k : Nat} (hk : k < 200) : 11 ≤ nextInode k ∧ nextInode k < 412 := by
  have hat := inodeRun_at k
  unfold nextInode
  by_cases h0 : k = 0
  · subst h0
    decide
  · have hbyte : inodeByte k = 2 + (k - 1) / 4 := if_neg h0
    omega

theorem toNat_nextInode {k : Nat} (hk : k < 200) :
    (UInt32.ofNat (nextInode k)).toNat = nextInode k := by
  have hbound := nextInode_bounds hk
  simp
  omega

-- No number is handed out twice.
theorem nextInode_strictMono : StrictMono nextInode := by
  apply strictMono_nat_of_lt_succ
  intro k
  unfold nextInode inodeByte inodeRun
  by_cases hk : k = 0
  · subst hk
    decide
  · rw [if_neg hk, if_neg (by omega), if_neg (by omega), if_neg (by omega), if_neg (by omega),
      if_neg (by omega)]
    omega

/-! ## The invariant -/

/-- Descriptor 0 after `k` inodes, `b` blocks and `d` directories were made. -/
def liveDesc (k b d : Nat) : Ext2GroupDesc where
  bgBlockBitmap := 2
  bgInodeBitmap := 3
  bgInodeTable := 4
  bgFreeBlocksCount := UInt16.ofNat (32731 - b)
  bgFreeInodesCount := UInt16.ofNat (1014 - k)
  bgUsedDirsCount := UInt16.ofNat (1 + d)
  bgPad := 0
  bgReserved := Vector.replicate 3 0

theorem ofNat_pred {m : Nat} (hpos : 0 < m) : UInt16.ofNat m - 1 = UInt16.ofNat (m - 1) := by
  apply UInt16.toNat_inj.mp
  rw [UInt16.toNat_sub]
  simp
  omega

theorem ofNat_ne_zero {m : Nat} (hpos : 0 < m) (hlt : m < 65536) : UInt16.ofNat m ≠ 0 := by
  intro h
  have hnat := congrArg UInt16.toNat h
  simp at hnat
  omega

theorem countInode_liveDesc {k b d : Nat} (hk : k < 200) :
    countInode (liveDesc k b d) = liveDesc (k + 1) b d := by
  unfold countInode liveDesc
  rw [ofNat_pred (by omega), Nat.sub_sub]

theorem countBlock_liveDesc {k b d : Nat} (hb : b < 200) :
    countBlock (liveDesc k b d) = liveDesc k (b + 1) d := by
  unfold countBlock liveDesc
  rw [ofNat_pred (by omega), Nat.sub_sub]

/-- `k` inodes, `b` blocks and `d` directories were made since the format. -/
structure Live (fs : Ext2Filesystem) (k b d : Nat) : Prop where
  firstDataBlock : fs.spb.sFirstDataBlock = 0
  groups_pos : 1 ≤ fs.disk.groups
  desc : getElem fs.descs 0 firstRecord_lt = liveDesc k b d
  rootInode : fs.disk.content 32 = rootInodeSector 36
  blockBitmap : fs.disk.content 16 = onesPrefix 512 (37 + b)
  inodeBitmap : fs.disk.content 24 = leadingRuns 512 (inodeRun k)
  blocks_le : b ≤ k
  inodes_le : k ≤ 200

/-- The sectors that an allocation leaves alone: all but one bitmap sector and the two counters. -/
def SameElsewhere (disk disk' : DiskOperations) (bitmap : Nat) : Prop :=
  ∀ x, x ≠ bitmap → x % 262144 ≠ 0 → x % 262144 ≠ 8 → disk'.content x = disk.content x

namespace Live

variable {fs fs' : Ext2Filesystem} {k b d : Nat}

theorem rootAt (h : Live fs k b d) : RootAt fs where
  firstDataBlock := h.firstDataBlock
  groups_pos := h.groups_pos
  table := by
    rw [h.desc]
    rfl
  rootInode := h.rootInode

-- Writes elsewhere keep it.
theorem congr (h : Live fs k b d) (hspb : fs'.spb = fs.spb)
    (hsectors : fs'.disk.numberOfSectors = fs.disk.numberOfSectors)
    (hc : ∀ x, x = 8 ∨ x = 16 ∨ x = 24 ∨ x = 32 → fs'.disk.content x = fs.disk.content x) :
    Live fs' k b d where
  firstDataBlock := by rw [hspb, h.firstDataBlock]
  groups_pos := by rw [groups_congr hsectors]; exact h.groups_pos
  desc := by
    have hdescs : fs'.descs = fs.descs := by
      rw [Ext2Filesystem.descs, hc 8 (by decide), Ext2Filesystem.descs]
    simp only [hdescs, h.desc]
  rootInode := by rw [hc 32 (by decide), h.rootInode]
  blockBitmap := by rw [hc 16 (by decide), h.blockBitmap]
  inodeBitmap := by rw [hc 24 (by decide), h.inodeBitmap]
  blocks_le := h.blocks_le
  inodes_le := h.inodes_le

-- The first descriptor after a counter of it was written back.
theorem descs_counted {first : Nat} {spb : Ext2SuperBlock} {count : Ext2GroupDesc → Ext2GroupDesc}
    (hpos : 1 ≤ fs.disk.groups)
    (hc : fs'.disk.content 8 =
      countedContent fs.disk spb first
        (fs.descs.set 0 (count (getElem fs.descs 0 firstRecord_lt)) firstRecord_lt) 8) :
    getElem fs'.descs 0 firstRecord_lt = count (getElem fs.descs 0 firstRecord_lt) := by
  have hdescs : fs'.descs = fs.descs.set 0 (count fs.descs[0]) := by
    rw [Ext2Filesystem.descs, hc, countedContent, if_pos (by omega), Equiv.apply_symm_apply]
  simp only [hdescs, Vector.getElem_set_self]

-- The next inode is taken, and every copy of the counters refreshed.
theorem allocFreeInode_content (h : Live fs k b d) (hk : k < 200) {parent : Ext2Node}
    (hparent : parent.inodeNum = 2) :
    ∃ fs₁, Ext2Fs.allocFreeInode fs parent = .ok ((nextInode k : Int), fs₁) ∧
      fs₁.spb = countInodeSb fs.spb ∧ fs₁.disk.numberOfSectors = fs.disk.numberOfSectors ∧
      ∀ x, fs₁.disk.content x = if x = 24 then leadingRuns 512 (inodeRun (k + 1))
        else countedContent fs.disk (countInodeSb fs.spb) 0
          (fs.descs.set 0 (countInode (getElem fs.descs 0 firstRecord_lt)) firstRecord_lt) x := by
  have hle := h.blocks_le
  have hgroup : (parent.inodeNum / inodesPerGroup).toNat = 0 := by
    rw [hparent]
    rfl
  have hblocks : fs.descs[0].bgFreeBlocksCount ≠ 0 := by
    rw [h.desc]
    exact ofNat_ne_zero (by omega) (by omega)
  have hinodes : fs.descs[0].bgFreeInodesCount ≠ 0 := by
    rw [h.desc]
    exact ofNat_ne_zero (by omega) (by omega)
  have hmap : fs.descs[0].bgInodeBitmap = 3 := by
    rw [h.desc]
    rfl
  have hstop : inodeByte k < 512 := by
    unfold inodeByte
    split <;> omega
  rw [← inodeRun_succ]
  exact allocFreeInode_spec h.firstDataBlock h.groups_pos hgroup (by decide) hblocks hinodes hmap
    h.inodeBitmap (inodeRun_le k) hstop (fun j hj ↦ inodeRun_before hj) (inodeRun_at k)

theorem allocFreeInode (h : Live fs k b d) (hk : k < 200) {parent : Ext2Node}
    (hparent : parent.inodeNum = 2) :
    ∃ fs₁, Ext2Fs.allocFreeInode fs parent = .ok ((nextInode k : Int), fs₁) ∧
      Live fs₁ (k + 1) b d ∧ fs₁.disk.numberOfSectors = fs.disk.numberOfSectors ∧
      SameElsewhere fs.disk fs₁.disk 24 := by
  have hpos := h.groups_pos
  have hle := h.blocks_le
  obtain ⟨fs₁, hrun, hspb, hn, hc⟩ := h.allocFreeInode_content hk hparent
  have hsame : SameElsewhere fs.disk fs₁.disk 24 := by
    intro x h24 h0 h8
    rw [hc, if_neg h24, countedContent, if_neg (by omega), if_neg (by omega)]
  refine ⟨fs₁, hrun, ?_, hn, hsame⟩
  constructor
  case firstDataBlock =>
    rw [hspb]
    exact h.firstDataBlock
  case groups_pos =>
    rw [groups_congr hn]
    exact hpos
  case desc =>
    rw [descs_counted hpos (by rw [hc, if_neg (by decide)]), h.desc, countInode_liveDesc hk]
  case rootInode => rw [hsame 32 (by decide) (by decide) (by decide), h.rootInode]
  case blockBitmap => rw [hsame 16 (by decide) (by decide) (by decide), h.blockBitmap]
  case inodeBitmap => rw [hc, if_pos rfl]
  case blocks_le => omega
  case inodes_le => omega

theorem allocFreeBlock_content (h : Live fs k b d) (hb : b < k) {node : Ext2Node}
    (hnode : node.entry.inode.toNat < 1024) :
    ∃ fs₁, Ext2Fs.allocFreeBlock fs node = .ok (((37 + b : Nat) : Int), fs₁) ∧
      fs₁.spb = countBlockSb fs.spb ∧ fs₁.disk.numberOfSectors = fs.disk.numberOfSectors ∧
      ∀ x, fs₁.disk.content x = if x = 16 then onesPrefix 512 (37 + b + 1)
        else countedContent fs.disk (countBlockSb fs.spb) 0
          (fs.descs.set 0 (countBlock (getElem fs.descs 0 firstRecord_lt)) firstRecord_lt) x := by
  have hle := h.inodes_le
  have hgroup : (node.entry.inode / inodesPerGroup).toNat = 0 := by
    simp
    omega
  have hmap : fs.descs[0].bgBlockBitmap = 2 := by
    rw [h.desc]
    rfl
  exact allocFreeBlock_spec h.firstDataBlock h.groups_pos hgroup (by decide) hmap h.blockBitmap
    (show 37 + b < 4096 by omega)

theorem allocFreeBlock (h : Live fs k b d) (hb : b < k) {node : Ext2Node}
    (hnode : node.entry.inode.toNat < 1024) :
    ∃ fs₁, Ext2Fs.allocFreeBlock fs node = .ok (((37 + b : Nat) : Int), fs₁) ∧
      Live fs₁ k (b + 1) d ∧ fs₁.disk.numberOfSectors = fs.disk.numberOfSectors ∧
      SameElsewhere fs.disk fs₁.disk 16 := by
  have hpos := h.groups_pos
  have hle := h.inodes_le
  obtain ⟨fs₁, hrun, hspb, hn, hc⟩ := h.allocFreeBlock_content hb hnode
  have hsame : SameElsewhere fs.disk fs₁.disk 16 := by
    intro x h16 h0 h8
    rw [hc, if_neg h16, countedContent, if_neg (by omega), if_neg (by omega)]
  refine ⟨fs₁, hrun, ?_, hn, hsame⟩
  constructor
  case firstDataBlock =>
    rw [hspb]
    exact h.firstDataBlock
  case groups_pos =>
    rw [groups_congr hn]
    exact hpos
  case desc =>
    rw [descs_counted hpos (by rw [hc, if_neg (by decide)]), h.desc,
      countBlock_liveDesc (by omega)]
  case rootInode => rw [hsame 32 (by decide) (by decide) (by decide), h.rootInode]
  case blockBitmap => rw [hc, if_pos rfl, Nat.add_assoc]
  case inodeBitmap => rw [hsame 24 (by decide) (by decide) (by decide), h.inodeBitmap]
  case blocks_le => omega
  case inodes_le => exact hle

end Live

end Ext2Fs
