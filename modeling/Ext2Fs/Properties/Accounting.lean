import Ext2Fs.Properties.DescriptorTable
import Ext2Fs.Spec.Alloc

/-!
# Free counts and bitmaps

Each descriptor counts the free blocks and inodes of its group.  The counts are compared with the
bitmaps that the descriptors designate, after formatting and along runs of the allocators.
-/

open Reasoning

namespace Ext2Fs

/-! ## The two accounts -/

/-- Bit `k` of the bitmap in a block. -/
def DiskOperations.blockBit (disk : DiskOperations) (block : UInt32) (k : Nat) : Bool :=
  bitAt (disk.content ((block * sectorsPerBlock).toNat + k / 4096)) (k % 4096)

/-- The free-block count of every descriptor is the number of clear bits in its block bitmap. -/
def BlockCountsAgree (fs : Ext2Filesystem) : Prop :=
  ∀ g, g < fs.disk.groups → (fs.disk.storedDesc 0 g).bgFreeBlocksCount.toNat =
    clearCount (fs.disk.blockBit (fs.disk.storedDesc 0 g).bgBlockBitmap) 32768

/-- The free-inode count of every descriptor is the number of clear bits among the first
`INODES_PER_GROUP` of its inode bitmap. -/
def InodeCountsAgree (fs : Ext2Filesystem) : Prop :=
  ∀ g, g < fs.disk.groups → (fs.disk.storedDesc 0 g).bgFreeInodesCount.toNat =
    clearCount (fs.disk.blockBit (fs.disk.storedDesc 0 g).bgInodeBitmap) 1024

/-- A call of an allocator, `none` when it returns `EXT2_ERROR`. -/
def allocCall (alloc : Ext2Filesystem → Ext2Node → Exec (Int × Ext2Filesystem))
    (fs : Ext2Filesystem) (parent : Ext2Node) : Exec (Option Ext2Filesystem) := do
  let (n, fs) ← alloc fs parent
  return if n = ext2Error then none else some fs

/-- The block counts agree after `ext2_format` and after every successful `alloc_free_block`. -/
def BlockAccounting (disk : DiskOperations) (parents : List Ext2Node) : Prop :=
  ∃ fs root, Mounted disk fs root ∧
    Throughout BlockCountsAgree (allocCall allocFreeBlock) fs parents

/-- The inode counts agree after `ext2_format` and after every successful `alloc_free_inode`. -/
def InodeAccounting (disk : DiskOperations) (parents : List Ext2Node) : Prop :=
  ∃ fs root, Mounted disk fs root ∧
    Throughout InodeCountsAgree (allocCall allocFreeInode) fs parents

theorem storedDesc_zero (fs : Ext2Filesystem) {g : Nat} (hg : g < 16) :
    fs.disk.storedDesc 0 g = fs.descs[g] := by
  have hsector : 262144 * 0 + 8 + g / 16 = 8 := by omega
  have hslot : g % 16 = g := by omega
  unfold DiskOperations.storedDesc
  simp only [hsector, hslot]
  rfl

/-! ## Blocks -/

/-- One group of which the first `m` blocks are taken. -/
structure BlockRun (fs : Ext2Filesystem) (m : Nat) : Prop where
  firstDataBlock : fs.spb.sFirstDataBlock = 0
  groups : fs.disk.groups = 1
  blockBitmap : (getElem fs.descs 0 firstRecord_lt).bgBlockBitmap = 2
  freeBlocks : (getElem fs.descs 0 firstRecord_lt).bgFreeBlocksCount.toNat = 32768 - m
  bits : fs.disk.content 16 = onesPrefix 512 m
  bitsRest : ∀ x, 16 < x → x < 24 → fs.disk.content x = zeroSector

section BlockRun

variable {fs : Ext2Filesystem} {m : Nat}

theorem blockBit_prefix {disk : DiskOperations} (hbits : disk.content 16 = onesPrefix 512 m)
    (hrest : ∀ x, 16 < x → x < 24 → disk.content x = zeroSector) (hm : m ≤ 4096) {k : Nat}
    (hk : k < 32768) : disk.blockBit 2 k = decide (k < m) := by
  unfold DiskOperations.blockBit
  rw [show ((2 : UInt32) * sectorsPerBlock).toNat = 16 from rfl]
  by_cases h0 : k / 4096 = 0
  · rw [h0, Nat.add_zero, hbits, bitAt_onesPrefix (by omega), Nat.mod_eq_of_lt (by omega)]
  · rw [hrest _ (by omega) (by omega), zeroSector, ← onesPrefix_zero, bitAt_onesPrefix (by omega)]
    apply decide_eq_decide.mpr
    omega

theorem BlockRun.agree (h : BlockRun fs m) (hm : m ≤ 4096) : BlockCountsAgree fs := by
  intro g hg
  obtain rfl : g = 0 := by
    have h1 := h.groups
    omega
  rw [storedDesc_zero fs (by decide), h.blockBitmap, h.freeBlocks,
    clearCount_prefix fun k hk ↦ blockBit_prefix h.bits h.bitsRest hm hk]

-- One allocation takes the next block.
theorem BlockRun.step (h : BlockRun fs m) (hm : m < 4096) {parent : Ext2Node}
    (hparent : (parent.entry.inode / inodesPerGroup).toNat = 0) :
    ∃ fs', allocCall allocFreeBlock fs parent = .ok (some fs') ∧ BlockRun fs' (m + 1) := by
  have hgroups := h.groups
  obtain ⟨fs', hrun, hspb, hn, hc⟩ := allocFreeBlock_spec h.firstDataBlock (by omega) hparent
    (by decide) h.blockBitmap h.bits hm
  have hdescs : fs'.descs = fs.descs.set 0 (countBlock fs.descs[0]) := by
    rw [Ext2Filesystem.descs, hc, if_neg (by decide), countedContent, if_pos (by omega),
      Equiv.apply_symm_apply]
  have hd0 : fs'.descs[0] = countBlock fs.descs[0] := by
    simp only [hdescs]
    exact Vector.getElem_set_self _
  refine ⟨fs', ?_, ?_⟩
  · rw [allocCall, hrun, ok_bind]
    exact congrArg _ (if_neg (by rw [ext2Error]; omega))
  · constructor
    case firstDataBlock =>
      rw [hspb]
      exact h.firstDataBlock
    case groups => rw [groups_congr hn, hgroups]
    case blockBitmap =>
      rw [hd0]
      exact h.blockBitmap
    case freeBlocks =>
      have hfree := h.freeBlocks
      rw [hd0, countBlock, UInt16.toNat_sub, hfree]
      simp
      omega
    case bits => rw [hc, if_pos rfl]
    case bitsRest =>
      intro x hlo hhi
      rw [hc, if_neg (by omega), countedContent, if_neg (by omega), if_neg (by omega),
        h.bitsRest x hlo hhi]

-- Along a run the counts agree until the first sector of the bitmap is full: the next allocation
-- marks a bit outside its buffer.
theorem BlockRun.throughout_iff (h : BlockRun fs m) (hm : m ≤ 4096) (parents : List Ext2Node)
    (hparents : ∀ p ∈ parents, (p.entry.inode / inodesPerGroup).toNat = 0) :
    Throughout BlockCountsAgree (allocCall allocFreeBlock) fs parents ↔
      m + parents.length ≤ 4096 := by
  induction parents generalizing fs m with
  | nil => exact ⟨fun _ ↦ hm, fun _ ↦ h.agree hm⟩
  | cons p parents ih =>
    have hp := hparents p List.mem_cons_self
    have hrest : ∀ q ∈ parents, (q.entry.inode / inodesPerGroup).toNat = 0 :=
      fun q hq ↦ hparents q (List.mem_cons_of_mem p hq)
    rw [List.length_cons]
    by_cases hfull : m = 4096
    · subst hfull
      have hgroups := h.groups
      have herr : allocCall allocFreeBlock fs p = .error .outOfBounds := by
        rw [allocCall, allocFreeBlock_full h.firstDataBlock (by omega) hp (by decide)
          h.blockBitmap h.bits (h.bitsRest 17 (by decide) (by decide)), error_bind]
      exact iff_of_false (not_throughout_cons_error herr) (by omega)
    · obtain ⟨fs', hcall, hfs'⟩ := h.step (by omega) hp
      rw [throughout_cons_some hcall, ih hfs' (by omega) hrest]
      have hagree := h.agree hm
      constructor
      · rintro ⟨-, hlen⟩
        omega
      · exact fun hlen ↦ ⟨hagree, by omega⟩

end BlockRun

section Blocks

variable {disk : DiskOperations} {fs : Ext2Filesystem} {root : Ext2Node}

theorem blockRun_newFs {disk' : DiskOperations} (h : Formatted disk disk') (hone : disk.groups = 1) :
    BlockRun (newFs disk disk') 37 := by
  have hd0 : (newFs disk disk').descs[0] = countRoot newDesc := by
    simp only [newFs_descs h (by omega)]
    exact (getElem_newDescs (by decide)).trans (if_pos rfl)
  constructor
  case firstDataBlock => rfl
  case groups => rw [newFs_groups h, hone]
  case blockBitmap =>
    rw [hd0]
    rfl
  case freeBlocks =>
    rw [hd0]
    rfl
  case bits => exact h.blockBitmap
  case bitsRest => exact h.blockBitmapRest

-- With several groups the counts already disagree on the formatted disk: the descriptors of the
-- others designate the bitmap of the first group, and past sixteen groups the first descriptor is
-- lost.
theorem not_blockCountsAgree (hmount : Mounted disk fs root) (hmore : 1 < disk.groups) :
    ¬ BlockCountsAgree fs := by
  intro hagree
  by_cases hfew : disk.groups ≤ 16
  · obtain ⟨disk', h, hmount'⟩ := exists_mounted (by omega) hfew
    obtain ⟨rfl, -⟩ := mounted_unique hmount hmount'
    have hd1 : (newFs disk disk').disk.storedDesc 0 1 = newDesc := by
      have hstored := h.storedDesc_eq hfew (show 0 < disk.groups by omega) hmore
      rwa [formattedDesc_eq (by omega), if_neg (by decide)] at hstored
    have hcount := hagree 1 (by rw [newFs_groups h]; exact hmore)
    have hbit : ∀ k, k < 32768 → (newFs disk disk').disk.blockBit 2 k = decide (k < 37) :=
      fun k hk ↦ blockBit_prefix h.blockBitmap h.blockBitmapRest (by decide) hk
    rw [hd1, show newDesc.bgBlockBitmap = 2 from rfl, clearCount_prefix hbit] at hcount
    exact absurd hcount (by decide)
  · obtain ⟨disk', count, h, -, hmount'⟩ := exists_mounted_large (Nat.lt_of_not_le hfew)
    obtain ⟨rfl, -⟩ := mounted_unique hmount hmount'
    have hd0 : disk'.storedDesc 0 0 = countRoot Ext2GroupDesc.zero := h.storedDesc_zero (by omega)
    have hcount := hagree 0 (by rw [largeFs_disk, groups_congr h.sectors_eq]; omega)
    have hle := clearCount_le (disk'.blockBit (disk'.storedDesc 0 0).bgBlockBitmap) 32768
    rw [largeFs_disk] at hcount
    rw [← hcount, hd0] at hle
    exact absurd hle (by decide)

/-- The block counts agree throughout exactly on a disk of one group and for as long as the bitmap's
first sector has a clear bit. -/
theorem blockAccounting_iff (hpos : 1 ≤ disk.groups) {parents : List Ext2Node}
    (hparents : ∀ p ∈ parents, (p.entry.inode / inodesPerGroup).toNat < disk.groups) :
    BlockAccounting disk parents ↔ disk.groups = 1 ∧ parents.length ≤ 4059 := by
  by_cases hone : disk.groups = 1
  · obtain ⟨disk', h, hmount⟩ := exists_mounted hpos (by omega)
    have hrun := (blockRun_newFs h hone).throughout_iff (by decide) parents
      (fun p hp ↦ by have := hparents p hp; omega)
    constructor
    · rintro ⟨fs, root, hmount', hall⟩
      obtain ⟨rfl, -⟩ := mounted_unique hmount' hmount
      have hlen := hrun.mp hall
      exact ⟨hone, by omega⟩
    · rintro ⟨-, hlen⟩
      exact ⟨_, _, hmount, hrun.mpr (by omega)⟩
  · refine iff_of_false ?_ (fun h ↦ hone h.1)
    rintro ⟨fs, root, hmount, hall⟩
    exact not_blockCountsAgree hmount (by omega) hall.start

theorem blockAccounting_iff_zeroedDisk :
    BlockAccounting (zeroedDisk 262144) [rootNode] ↔
      (zeroedDisk 262144).groups = 1 ∧ [rootNode].length ≤ 4059 :=
  blockAccounting_iff (by decide) (by decide)

theorem not_blockAccounting_two :
    (zeroedDisk 524288).groups = 2 ∧ ¬ BlockAccounting (zeroedDisk 524288) [] := by
  refine ⟨by decide, ?_⟩
  rintro ⟨fs, root, hmount, hall⟩
  exact not_blockCountsAgree hmount (by decide) hall.start

end Blocks

/-! ## Inodes -/

section Inodes

variable {disk : DiskOperations} {fs : Ext2Filesystem} {root : Ext2Node}

-- `fill_sb` subtracts `s_first_ino - 1` inodes for each group, and `init_bitmap` marks
-- `s_first_ino` of them.
theorem not_inodeCountsAgree (hmount : Mounted disk fs root) (hpos : 1 ≤ disk.groups) :
    ¬ InodeCountsAgree fs := by
  intro hagree
  by_cases hfew : disk.groups ≤ 16
  · obtain ⟨disk', h, hmount'⟩ := exists_mounted hpos hfew
    obtain ⟨rfl, -⟩ := mounted_unique hmount hmount'
    have hd0 : (newFs disk disk').disk.storedDesc 0 0 = countRoot newDesc := by
      have hstored := h.storedDesc_eq hfew hpos hpos
      rwa [formattedDesc_eq hpos, if_pos rfl] at hstored
    have hbit : ∀ k, k < 1024 → (newFs disk disk').disk.blockBit 3 k = decide (k < 11) := by
      intro k hk
      rw [newFs_disk, DiskOperations.blockBit,
        show ((3 : UInt32) * sectorsPerBlock).toNat = 24 from rfl, Nat.div_eq_of_lt (by omega),
        Nat.add_zero, h.inodeBitmap, Nat.mod_eq_of_lt (by omega), bitAt_onesPrefix (by omega)]
    have hcount := hagree 0 (by rw [newFs_groups h]; exact hpos)
    rw [hd0, show (countRoot newDesc).bgInodeBitmap = 3 from rfl, clearCount_prefix hbit] at hcount
    exact absurd hcount (by decide)
  · obtain ⟨disk', count, h, hsb, hmount'⟩ := exists_mounted_large (Nat.lt_of_not_le hfew)
    obtain ⟨rfl, -⟩ := mounted_unique hmount hmount'
    have hd0 : disk'.storedDesc 0 0 = countRoot Ext2GroupDesc.zero := h.storedDesc_zero (by omega)
    have hcount := hagree 0 (by rw [largeFs_disk, groups_congr h.sectors_eq]; exact hpos)
    have hclear : disk'.blockBit 0 1000 = false := by
      unfold DiskOperations.blockBit
      rw [show ((0 : UInt32) * sectorsPerBlock).toNat = 0 from rfl, Nat.div_eq_of_lt (by decide),
        Nat.add_zero, hsb]
      exact superBlock_bit rfl (by decide) (by decide)
    have hpos' := clearCount_pos (show 1000 < 1024 by decide) hclear
    rw [largeFs_disk, hd0] at hcount
    rw [show (0 : UInt32) = (countRoot Ext2GroupDesc.zero).bgInodeBitmap from rfl, ← hcount] at hpos'
    exact absurd hpos' (by decide)

/-- The inode counts disagree from the start. -/
theorem not_inodeAccounting (hpos : 1 ≤ disk.groups) (parents : List Ext2Node) :
    ¬ InodeAccounting disk parents := by
  rintro ⟨fs, root, hmount, hall⟩
  exact not_inodeCountsAgree hmount hpos hall.start

theorem not_inodeAccounting_zeroedDisk : ¬ InodeAccounting (zeroedDisk 262144) [rootNode] :=
  not_inodeAccounting (by decide) _

theorem not_inodeAccounting_one :
    (zeroedDisk 262144).groups = 1 ∧ ¬ InodeAccounting (zeroedDisk 262144) [] := by
  refine ⟨by decide, ?_⟩
  rintro ⟨fs, root, hmount, hall⟩
  exact not_inodeCountsAgree hmount (by decide) hall.start

end Inodes

end Ext2Fs
