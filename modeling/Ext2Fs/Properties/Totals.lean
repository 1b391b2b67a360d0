import Mathlib.Algebra.Order.BigOperators.Group.Finset
import Ext2Fs.Properties.Accounting
import Ext2Fs.Spec.AllocSteps
import Ext2Fs.Spec.Session

/-!
# Totals and descriptors

The superblock in memory holds the totals of two counters, the descriptor table on the disk their
parts.  Both allocators update a total and one of its parts.
-/

open Reasoning

namespace Ext2Fs

/-! ## Calls of the allocators -/

inductive AllocCall where
  | block (parent : Ext2Node)
  | inode (parent : Ext2Node)

namespace AllocCall

def run (fs : Ext2Filesystem) : AllocCall → Exec (Int × Ext2Filesystem)
  | .block parent => allocFreeBlock fs parent
  | .inode parent => allocFreeInode fs parent

def step (fs : Ext2Filesystem) (c : AllocCall) : Exec Ext2Filesystem := do
  let (_, fs) ← c.run fs
  return fs

def isBlock : AllocCall → Bool
  | .block _ => true
  | .inode _ => false

/-- The group whose counters the call updates. -/
def group : AllocCall → Nat
  | .block parent => parent.entry.inode.toNat / 1024
  | .inode parent => parent.inodeNum.toNat / 1024

/-- The call is for a node of an existing group. -/
def InGroup (fs : Ext2Filesystem) (c : AllocCall) : Prop := c.group < fs.disk.groups

/-- Neither of the counters that the call decrements is zero. -/
def CountsDown (fs : Ext2Filesystem) : AllocCall → Prop
  | .block parent => fs.spb.sFreeBlocksCount ≠ 0 ∧
      (fs.disk.storedDesc 0 (parent.entry.inode.toNat / 1024)).bgFreeBlocksCount ≠ 0
  | .inode parent => fs.spb.sFreeInodesCount ≠ 0 ∧
      (fs.disk.storedDesc 0 (parent.inodeNum.toNat / 1024)).bgFreeInodesCount ≠ 0

end AllocCall

/-- The sum of a counter over the descriptors of all groups. -/
def groupTotal (fs : Ext2Filesystem) (count : Ext2GroupDesc → UInt16) : Nat :=
  ∑ g ∈ Finset.range fs.disk.groups, (count (fs.disk.storedDesc 0 g)).toNat

/-- The totals in memory are the sums over the descriptors in group 0's table. -/
structure TotalsAgree (fs : Ext2Filesystem) : Prop where
  blocks : fs.spb.sFreeBlocksCount.toNat = groupTotal fs (·.bgFreeBlocksCount)
  inodes : fs.spb.sFreeInodesCount.toNat = groupTotal fs (·.bgFreeInodesCount)

/-- Every call of the sequence returns; the totals agree before it and behind the last one, and no
successful call takes a counter past zero. -/
def TotalsKept : Ext2Filesystem → List AllocCall → Prop
  | fs, [] => TotalsAgree fs
  | fs, c :: cs => TotalsAgree fs ∧ ∃ n fs', c.run fs = .ok (n, fs') ∧
      (n ≠ ext2Error → c.CountsDown fs) ∧ TotalsKept fs' cs

/-- The calls of `alloc_free_inode` return when their turn comes. -/
def InodesReturn : Ext2Filesystem → List AllocCall → Prop
  | _, [] => True
  | fs, c :: cs => (∀ parent, c = .inode parent → Defined (allocFreeInode fs parent)) ∧
      ∀ n fs', c.run fs = .ok (n, fs') → InodesReturn fs' cs

/-- How many of the calls are calls of `alloc_free_block`. -/
def blockCalls (calls : List AllocCall) : Nat := calls.countP AllocCall.isBlock

/-! ## One counter less -/

section Sums

theorem sum_range_pred {n k : Nat} (hk : k < n) {f f' : Nat → Nat} (hself : f' k + 1 = f k)
    (hother : ∀ g, g < n → g ≠ k → f' g = f g) :
    ∑ g ∈ Finset.range n, f' g + 1 = ∑ g ∈ Finset.range n, f g := by
  have hmem : k ∈ Finset.range n := Finset.mem_range.mpr hk
  have hrest : ∑ g ∈ (Finset.range n).erase k, f' g = ∑ g ∈ (Finset.range n).erase k, f g := by
    apply Finset.sum_congr rfl
    intro g hg
    rw [Finset.mem_erase, Finset.mem_range] at hg
    exact hother g hg.2 hg.1
  rw [← Finset.add_sum_erase _ f' hmem, ← Finset.add_sum_erase _ f hmem, hrest]
  omega

variable {fs : Ext2Filesystem}

-- A positive part makes a positive total.
theorem groupTotal_pos {count : Ext2GroupDesc → UInt16} {k : Nat} (hk : k < fs.disk.groups)
    (hcount : count (fs.disk.storedDesc 0 k) ≠ 0) : 0 < groupTotal fs count := by
  exact Nat.lt_of_lt_of_le (toNat_pos16 hcount) (Finset.single_le_sum
    (f := fun g ↦ (count (fs.disk.storedDesc 0 g)).toNat) (fun _ _ ↦ Nat.zero_le _)
    (Finset.mem_range.mpr hk))

end Sums

/-! ## The invariant -/

/-- `m` blocks are marked in the bitmap that all groups share. -/
structure Allocating (disk : DiskOperations) (fs : Ext2Filesystem) (m : Nat) : Prop where
  firstDataBlock : fs.spb.sFirstDataBlock = 0
  sectors_eq : fs.disk.numberOfSectors = disk.numberOfSectors
  blockMaps : ∀ g, ∀ hg : g < 16, g < disk.groups → fs.descs[g].bgBlockBitmap = 2
  inodeMaps : ∀ g, ∀ hg : g < 16, g < disk.groups → fs.descs[g].bgInodeBitmap = 3
  bits : fs.disk.content 16 = onesPrefix 512 m
  nextBits : fs.disk.content 17 = zeroSector
  taken_le : m ≤ 4096
  -- every mark was counted for one group
  freeBlocks : ∀ g, ∀ hg : g < 16, g < disk.groups →
    32768 ≤ fs.descs[g].bgFreeBlocksCount.toNat + m
  totals : TotalsAgree fs

namespace Allocating

variable {disk : DiskOperations} {fs fs' : Ext2Filesystem} {m : Nat}

theorem groups_eq (h : Allocating disk fs m) : fs.disk.groups = disk.groups :=
  groups_congr h.sectors_eq

section Counted

variable {k : Nat} {step : Ext2GroupDesc → Ext2GroupDesc} (hfew : fs.disk.groups ≤ 16)
  (hn : fs'.disk.groups = fs.disk.groups)
  (hdescs : ∀ g, ∀ hg : g < 16, fs'.descs[g] = if k = g then step fs.descs[g] else fs.descs[g])

include hfew hdescs

theorem storedDesc_counted {g : Nat} (hg : g < fs.disk.groups) : fs'.disk.storedDesc 0 g =
    if k = g then step (fs.disk.storedDesc 0 g) else fs.disk.storedDesc 0 g := by
  have hg16 : g < 16 := by omega
  rw [storedDesc_zero fs' hg16, storedDesc_zero fs hg16]
  exact hdescs g hg16

include hn

-- A total that does not change, over parts that do not.
theorem total_kept (total : Ext2SuperBlock → UInt32) (count : Ext2GroupDesc → UInt16)
    (hspb : total fs'.spb = total fs.spb) (hkeep : ∀ d, count (step d) = count d)
    (htotal : (total fs.spb).toNat = groupTotal fs count) :
    (total fs'.spb).toNat = groupTotal fs' count := by
  rw [hspb, htotal]
  unfold groupTotal
  rw [hn]
  apply Finset.sum_congr rfl
  intro g hg
  rw [Finset.mem_range] at hg
  rw [storedDesc_counted hfew hdescs hg]
  split
  · rw [hkeep]
  · rfl

-- A total that goes down, and with it the part of group `k`.
theorem total_down (hk : k < fs.disk.groups) (total : Ext2SuperBlock → UInt32)
    (count : Ext2GroupDesc → UInt16) (hspb : total fs'.spb = total fs.spb - 1)
    (hdown : ∀ d, count (step d) = count d - 1) (hfree : total fs.spb ≠ 0)
    (hcount : count (fs.disk.storedDesc 0 k) ≠ 0)
    (htotal : (total fs.spb).toNat = groupTotal fs count) :
    (total fs'.spb).toNat = groupTotal fs' count := by
  have hpred := toNat_pred32 (toNat_pos32 hfree)
  have hsum : groupTotal fs' count + 1 = groupTotal fs count := by
    unfold groupTotal
    rw [hn]
    apply sum_range_pred hk
    · rw [storedDesc_counted hfew hdescs hk, if_pos rfl, hdown]
      exact toNat_pred16 (toNat_pos16 hcount)
    · intro g hg hgk
      rw [storedDesc_counted hfew hdescs hg, if_neg (Ne.symm hgk)]
  rw [hspb]
  omega

end Counted

-- A total is not zero when a part of it is not.
theorem total_ne_zero (total : Ext2SuperBlock → UInt32) (count : Ext2GroupDesc → UInt16) {k : Nat}
    (hk : k < fs.disk.groups) (hcount : count (fs.disk.storedDesc 0 k) ≠ 0)
    (htotal : (total fs.spb).toNat = groupTotal fs count) : total fs.spb ≠ 0 := by
  have hpos := groupTotal_pos hk hcount
  intro h0
  rw [h0, UInt32.toNat_zero] at htotal
  omega

-- The descriptors go on designating the shared bitmaps.
theorem field_counted {β : Type} {n k : Nat} {count : Ext2GroupDesc → Ext2GroupDesc}
    (hdescs : ∀ g, ∀ hg : g < 16, fs'.descs[g] = if k = g then count fs.descs[g] else fs.descs[g])
    (field : Ext2GroupDesc → β) (hkeep : ∀ d, field (count d) = field d) {v : β}
    (hall : ∀ g, ∀ hg : g < 16, g < n → field fs.descs[g] = v) :
    ∀ g, ∀ hg : g < 16, g < n → field fs'.descs[g] = v := by
  intro g hg hgn
  rw [field_of_counted hdescs field hkeep hg]
  exact hall g hg hgn

-- A mark more makes up for a block less.
theorem freeBlocks_counted {k g : Nat} (hg : g < 16) (hm : m < 4096)
    (hdescs : ∀ g, ∀ hg : g < 16,
      fs'.descs[g] = if k = g then countBlock fs.descs[g] else fs.descs[g])
    (hfree : 32768 ≤ fs.descs[g].bgFreeBlocksCount.toNat + m) :
    32768 ≤ fs'.descs[g].bgFreeBlocksCount.toNat + (m + 1) := by
  rw [hdescs g hg]
  split
  · have hpred := toNat_pred16 (show 0 < fs.descs[g].bgFreeBlocksCount.toNat by omega)
    change 32768 ≤ (fs.descs[g].bgFreeBlocksCount - 1).toNat + (m + 1)
    omega
  · omega

theorem countsDown_inode (h : Allocating disk fs m) {parent : Ext2Node}
    (hgroup : parent.inodeNum.toNat / 1024 < disk.groups)
    (hne : (fs.disk.storedDesc 0 (parent.inodeNum.toNat / 1024)).bgFreeInodesCount ≠ 0) :
    AllocCall.CountsDown fs (.inode parent) := by
  rw [← h.groups_eq] at hgroup
  exact ⟨total_ne_zero (·.sFreeInodesCount) (·.bgFreeInodesCount) hgroup hne h.totals.inodes, hne⟩

variable (h : Allocating disk fs m) (hpos : 1 ≤ disk.groups) (hfew : disk.groups ≤ 16)

include h hpos hfew

theorem countsDown_block {parent : Ext2Node}
    (hgroup : parent.entry.inode.toNat / 1024 < disk.groups) :
    AllocCall.CountsDown fs (.block parent) := by
  have hm := h.taken_le
  have hk : parent.entry.inode.toNat / 1024 < 16 := by omega
  have hfree := h.freeBlocks _ hk hgroup
  have hne : (fs.disk.storedDesc 0 (parent.entry.inode.toNat / 1024)).bgFreeBlocksCount ≠ 0 := by
    rw [storedDesc_zero fs hk]
    intro h0
    rw [h0, UInt16.toNat_zero] at hfree
    omega
  rw [← h.groups_eq] at hgroup
  exact ⟨total_ne_zero (·.sFreeBlocksCount) (·.bgFreeBlocksCount) hgroup hne h.totals.blocks, hne⟩

-- `alloc_free_block` takes the next bit of the shared bitmap, unless its first sector is full: past
-- it the bit number does not fit the buffer.
theorem block_cases {parent : Ext2Node} (hgroup : parent.entry.inode.toNat / 1024 < disk.groups)
    (hk : parent.entry.inode.toNat / 1024 < 16) :
    m = 4096 ∧ allocFreeBlock fs parent = .error .outOfBounds ∨
      m < 4096 ∧ ∃ fs', allocFreeBlock fs parent = .ok ((m : Int), fs') ∧
        fs'.spb = countBlockSb fs.spb ∧ fs'.disk.numberOfSectors = fs.disk.numberOfSectors ∧
        ∀ x, fs'.disk.content x = if x = 16 then onesPrefix 512 (m + 1)
          else countedContent fs.disk (countBlockSb fs.spb) 0
            (fs.descs.set (parent.entry.inode.toNat / 1024)
              (countBlock fs.descs[parent.entry.inode.toNat / 1024])) x := by
  have hg := h.groups_eq
  have hnum := groupNum_toNat (show parent.entry.inode.toNat / 1024 = _ from rfl)
  have hmap := h.blockMaps _ hk hgroup
  rcases Nat.lt_or_ge m 4096 with hm | hfull
  · exact Or.inr ⟨hm, allocFreeBlock_spec h.firstDataBlock (show 1 ≤ fs.disk.groups by omega) hnum
      hk hmap h.bits hm⟩
  · have hlast := Nat.le_antisymm h.taken_le hfull
    have hbits := h.bits
    rw [hlast] at hbits
    exact Or.inl ⟨hlast,
      allocFreeBlock_full h.firstDataBlock (by omega) hnum hk hmap hbits h.nextBits⟩

theorem block {parent : Ext2Node} (hgroup : parent.entry.inode.toNat / 1024 < disk.groups) {n : Int}
    (hrun : allocFreeBlock fs parent = .ok (n, fs')) :
    AllocCall.CountsDown fs (.block parent) ∧ Allocating disk fs' (m + 1) := by
  have hg := h.groups_eq
  have hk : parent.entry.inode.toNat / 1024 < 16 := by omega
  have hdown := h.countsDown_block hpos hfew hgroup
  rcases h.block_cases hpos hfew hgroup hk with ⟨-, herror⟩ | ⟨hm, fs₁, hrun₁, hspb, hn, hc⟩
  · rw [hrun] at herror
    cases herror
  rw [hrun, Except.ok.injEq, Prod.mk.injEq] at hrun₁
  rcases hrun₁ with ⟨-, rfl⟩
  have hc8 := hc 8
  rw [if_neg (by decide)] at hc8
  have hdescs : ∀ g, ∀ hg : g < 16, fs'.descs[g] =
      if parent.entry.inode.toNat / 1024 = g then countBlock fs.descs[g] else fs.descs[g] :=
    fun g hg16 ↦ descs_of_counted hk (by omega) hc8 hg16
  refine ⟨hdown, ?_⟩
  constructor
  case firstDataBlock =>
    rw [hspb]
    exact h.firstDataBlock
  case sectors_eq => rw [hn, h.sectors_eq]
  case blockMaps => exact field_counted hdescs (·.bgBlockBitmap) (fun _ ↦ rfl) h.blockMaps
  case inodeMaps => exact field_counted hdescs (·.bgInodeBitmap) (fun _ ↦ rfl) h.inodeMaps
  case bits => rw [hc, if_pos rfl]
  case nextBits =>
    rw [hc, if_neg (by decide), countedContent, if_neg (by omega), if_neg (by omega), h.nextBits]
  case taken_le => omega
  case freeBlocks =>
    exact fun g hg16 hgr ↦ freeBlocks_counted hg16 hm hdescs (h.freeBlocks g hg16 hgr)
  case totals =>
    have hn' : fs'.disk.groups = fs.disk.groups := groups_congr hn
    have hfew' : fs.disk.groups ≤ 16 := by omega
    constructor
    · exact total_down hfew' hn' hdescs (by omega) (·.sFreeBlocksCount) (·.bgFreeBlocksCount)
        (by rw [hspb]; rfl) (fun _ ↦ rfl) hdown.1 hdown.2 h.totals.blocks
    · exact total_kept hfew' hn' hdescs (·.sFreeInodesCount) (·.bgFreeInodesCount)
        (by rw [hspb]; rfl) (fun _ ↦ rfl) h.totals.inodes

-- `alloc_free_inode` takes a bit of the shared inode bitmap, in any of its sectors.
theorem inode {parent : Ext2Node} (hgroup : parent.inodeNum.toNat / 1024 < disk.groups) {n : Int}
    (hrun : allocFreeInode fs parent = .ok (n, fs')) :
    (n ≠ ext2Error → AllocCall.CountsDown fs (.inode parent)) ∧ Allocating disk fs' m := by
  have hg := h.groups_eq
  rcases allocFreeInode_cases h.firstDataBlock (show 1 ≤ fs.disk.groups by omega) hrun with
    ⟨herror, hsame, -⟩ | ⟨k, hk, hnum, -, hcount, i, m', bits, hn, -, hi, -, halloc⟩
  · rw [hsame]
    exact ⟨fun hne ↦ absurd herror hne, h⟩
  have hnum' : parent.inodeNum.toNat / 1024 = k := by
    rw [← hnum]
    simp
  rw [hnum'] at hgroup
  have haddr : (UInt32.ofNat i + fs.descs[k].bgInodeBitmap * sectorsPerBlock).toNat = 24 + i := by
    rw [h.inodeMaps k hk hgroup]
    exact sectorOfBlock_toNat (by decide) hi
  have hdescs : ∀ g, ∀ hg : g < 16, fs'.descs[g] =
      if k = g then countInode fs.descs[g] else fs.descs[g] :=
    fun g hg16 ↦ halloc.descs_eq (by omega) (by omega) hg16
  have hcount' : (fs.disk.storedDesc 0 k).bgFreeInodesCount ≠ 0 := by
    rw [storedDesc_zero fs hk]
    exact hcount
  have hdown : AllocCall.CountsDown fs (.inode parent) :=
    h.countsDown_inode (by rwa [hnum']) (by rwa [hnum'])
  refine ⟨fun _ ↦ hdown, ?_⟩
  constructor
  case firstDataBlock =>
    rw [halloc.spb_eq]
    exact h.firstDataBlock
  case sectors_eq => rw [halloc.sectors_eq, h.sectors_eq]
  case blockMaps => exact field_counted hdescs (·.bgBlockBitmap) (fun _ ↦ rfl) h.blockMaps
  case inodeMaps => exact field_counted hdescs (·.bgInodeBitmap) (fun _ ↦ rfl) h.inodeMaps
  case bits => rw [halloc.content_of_ne (by omega) (by decide) (by decide), h.bits]
  case nextBits => rw [halloc.content_of_ne (by omega) (by decide) (by decide), h.nextBits]
  case taken_le => exact h.taken_le
  case freeBlocks =>
    intro g hg16 hgr
    rw [field_of_counted hdescs (·.bgFreeBlocksCount) (fun _ ↦ rfl) hg16]
    exact h.freeBlocks g hg16 hgr
  case totals =>
    have hfew' : fs.disk.groups ≤ 16 := by omega
    constructor
    · exact total_kept hfew' halloc.groups_eq hdescs (·.sFreeBlocksCount) (·.bgFreeBlocksCount)
        (by rw [halloc.spb_eq]; rfl) (fun _ ↦ rfl) h.totals.blocks
    · exact total_down hfew' halloc.groups_eq hdescs (by omega) (·.sFreeInodesCount)
        (·.bgFreeInodesCount) (by rw [halloc.spb_eq]; rfl) (fun _ ↦ rfl) hdown.1 hcount'
        h.totals.inodes

end Allocating

/-! ## Runs -/

section Runs

variable {disk disk' : DiskOperations} {fs fs' : Ext2Filesystem}

theorem groupTotal_newFs (h : Formatted disk disk') (hpos : 1 ≤ disk.groups)
    (hfew : disk.groups ≤ 16) (count : Ext2GroupDesc → UInt16) :
    groupTotal (newFs disk disk') count =
      (count (countRoot newDesc)).toNat + (disk.groups - 1) * (count newDesc).toNat := by
  have hgroups := newFs_groups h
  obtain ⟨n, hn⟩ : ∃ n, disk.groups = n + 1 := ⟨disk.groups - 1, by omega⟩
  have hrest : ∀ g ∈ Finset.range n,
      (count ((newFs disk disk').disk.storedDesc 0 (g + 1))).toNat = (count newDesc).toNat := by
    intro g hg
    rw [Finset.mem_range] at hg
    have hg16 : g + 1 < 16 := by omega
    rw [storedDesc_zero _ hg16, newFs_desc h hpos hg16, if_neg (by omega), if_pos (by omega)]
  unfold groupTotal
  rw [hgroups, hn, Finset.sum_range_succ', Finset.sum_const_nat hrest, Finset.card_range,
    storedDesc_zero _ (show 0 < 16 by decide),
    newFs_desc h hpos (by decide), if_pos rfl, Nat.add_sub_cancel, Nat.add_comm]

-- The format divides the free blocks and inodes evenly among the groups.
theorem allocating_newFs (h : Formatted disk disk') (hpos : 1 ≤ disk.groups)
    (hfew : disk.groups ≤ 16) : Allocating disk (newFs disk disk') 37 := by
  constructor
  case firstDataBlock => rfl
  case sectors_eq => exact h.sectors_eq
  case blockMaps => exact fun g hg hgr ↦ newFs_field h hpos (·.bgBlockBitmap) rfl hg hgr
  case inodeMaps => exact fun g hg hgr ↦ newFs_field h hpos (·.bgInodeBitmap) rfl hg hgr
  case bits => exact h.blockBitmap
  case nextBits => exact h.blockBitmapRest 17 (by decide) (by decide)
  case taken_le => decide
  case freeBlocks =>
    intro g hg hgr
    rw [newFs_desc h hpos hg, if_pos hgr]
    split <;> decide
  case totals =>
    constructor
    · have hsb := newSb_sFreeBlocksCount disk hpos
      have hpred : (disk.newSb.sFreeBlocksCount - 1).toNat + 1 =
          disk.newSb.sFreeBlocksCount.toNat := by
        apply toNat_pred32
        omega
      rw [groupTotal_newFs h hpos hfew]
      change (disk.newSb.sFreeBlocksCount - 1).toNat = 32731 + (disk.groups - 1) * 32732
      omega
    · have hsb := newSb_sFreeInodesCount disk hpos
      rw [groupTotal_newFs h hpos hfew]
      change disk.newSb.sFreeInodesCount.toNat = 1014 + (disk.groups - 1) * 1014
      omega

-- Every call that returns keeps the invariant.
theorem Allocating.run {m : Nat} (h : Allocating disk fs m) (hpos : 1 ≤ disk.groups)
    (hfew : disk.groups ≤ 16) {c : AllocCall} (hc : c.InGroup fs) {n : Int}
    (hrun : c.run fs = .ok (n, fs')) :
    (n ≠ ext2Error → c.CountsDown fs) ∧ ∃ m', Allocating disk fs' m' := by
  have hgroup : c.group < disk.groups := by
    rw [← h.groups_eq]
    exact hc
  cases c with
  | block parent =>
    have hstep := h.block hpos hfew hgroup hrun
    exact ⟨fun _ ↦ hstep.1, m + 1, hstep.2⟩
  | inode parent =>
    have hstep := h.inode hpos hfew hgroup hrun
    exact ⟨hstep.1, m, hstep.2⟩

-- Whole sequences: the calls of `alloc_free_block` run into the end of the first sector.
theorem Allocating.sequence_iff {m : Nat} (h : Allocating disk fs m) (hpos : 1 ≤ disk.groups)
    (hfew : disk.groups ≤ 16) {calls : List AllocCall}
    (hgroups : ∀ c ∈ calls, c.group < disk.groups) (hserved : InodesReturn fs calls) :
    TotalsKept fs calls ↔ m + blockCalls calls ≤ 4096 := by
  induction calls generalizing fs m with
  | nil => exact iff_of_true h.totals h.taken_le
  | cons c calls ih =>
    have hgroup := hgroups c List.mem_cons_self
    have hrest : ∀ c ∈ calls, c.group < disk.groups :=
      fun c hc ↦ hgroups c (List.mem_cons_of_mem _ hc)
    have hc : c.InGroup fs := by
      rw [AllocCall.InGroup, h.groups_eq]
      exact hgroup
    -- a call that returns leaves the rest of the sequence to be judged
    have hstep : ∀ n fs', c.run fs = .ok (n, fs') →
        (TotalsKept fs (c :: calls) ↔ TotalsKept fs' calls) := by
      intro n fs' hrun
      constructor
      · rintro ⟨-, n₁, fs₁, hrun₁, -, hkept⟩
        rw [hrun, Except.ok.injEq, Prod.mk.injEq] at hrun₁
        rw [hrun₁.2]
        exact hkept
      · intro hkept
        exact ⟨h.totals, n, fs', hrun, (h.run hpos hfew hc hrun).1, hkept⟩
    cases c with
    | block parent =>
      rw [show blockCalls (.block parent :: calls) = blockCalls calls + 1 from
        List.countP_cons_of_pos rfl]
      have hk : parent.entry.inode.toNat / 1024 < 16 := Nat.lt_of_lt_of_le hgroup hfew
      rcases h.block_cases hpos hfew hgroup hk with ⟨hlast, herror⟩ | ⟨hm, fs', hrun, -⟩
      · refine iff_of_false ?_ (by omega)
        rintro ⟨-, n, fs', hrun, -⟩
        rw [show AllocCall.run fs (.block parent) = allocFreeBlock fs parent from rfl, herror] at hrun
        cases hrun
      · rw [hstep _ _ hrun, ih (h.block hpos hfew hgroup hrun).2 hrest (hserved.2 _ _ hrun)]
        omega
    | inode parent =>
      rw [show blockCalls (.inode parent :: calls) = blockCalls calls from
        List.countP_cons_of_neg Bool.false_ne_true]
      rcases hserved.1 parent rfl with ⟨⟨n, fs'⟩, hrun⟩
      rw [hstep n fs' hrun, ih (h.inode hpos hfew hgroup hrun).2 hrest (hserved.2 _ _ hrun)]

theorem inodesReturn_blocks (fs : Ext2Filesystem) (parents : List Ext2Node) :
    InodesReturn fs (parents.map AllocCall.block) := by
  induction parents generalizing fs with
  | nil => trivial
  | cons parent parents ih => exact ⟨fun _ hc ↦ (by cases hc), fun _ fs' _ ↦ ih fs'⟩

-- Mounting the formatted disk gives the start of the runs.
theorem Mounted.allocating {root : Ext2Node} (hmount : Mounted disk fs root)
    (hpos : 1 ≤ disk.groups) (hfew : disk.groups ≤ 16) : Allocating disk fs 37 := by
  rcases exists_mounted hpos hfew with ⟨disk', hformatted, hmount'⟩
  rcases mounted_unique hmount hmount' with ⟨rfl, -⟩
  exact allocating_newFs hformatted hpos hfew

-- A first inode, and a first block.
theorem exists_first_calls (h : Formatted disk disk') (hpos : 1 ≤ disk.groups)
    (hfew : disk.groups ≤ 16) (parent : Ext2Node)
    (hgroup : parent.entry.inode.toNat / 1024 < disk.groups) :
    ∃ fs₁ fs₂, allocFreeInode (newFs disk disk') rootNode = .ok (11, fs₁) ∧
      allocFreeBlock fs₁ parent = .ok (37, fs₂) := by
  rcases (h.live hpos).allocFreeInode (by decide) (show rootNode.inodeNum = 2 from rfl) with
    ⟨fs₁, hinode, -⟩
  have hroot : rootNode.inodeNum.toNat / 1024 < disk.groups :=
    Nat.lt_of_lt_of_le (by decide) hpos
  have h₁ := ((allocating_newFs h hpos hfew).inode hpos hfew hroot hinode).2
  rcases h₁.block_cases hpos hfew hgroup (by omega) with ⟨hfull, -⟩ | ⟨-, fs₂, hblock, -⟩
  · exact absurd hfull (by decide)
  · exact ⟨fs₁, fs₂, hinode, hblock⟩

/-- On a formatted disk of 1 to 16 groups the totals go on agreeing with the descriptors, whatever
the order of the calls, exactly up to the 4059th block. -/
theorem totalsKept_iff {root : Ext2Node} {calls : List AllocCall} (hpos : 1 ≤ disk.groups)
    (hfew : disk.groups ≤ 16) (hmount : Mounted disk fs root)
    (hgroups : ∀ c ∈ calls, c.group < disk.groups) (hserved : InodesReturn fs calls) :
    TotalsKept fs calls ↔ blockCalls calls ≤ 4059 := by
  rw [(hmount.allocating hpos hfew).sequence_iff hpos hfew hgroups hserved]
  omega

/-- An inode for the root, and a block for a node of the second group. -/
theorem totalsKept_zeroedDisk : ∃ fs root, Mounted (zeroedDisk 524288) fs root ∧
    TotalsKept fs [.inode rootNode, .block { rootNode with entry := dirEntry 1024 dotName }] := by
  rcases @exists_mounted (zeroedDisk 524288) (by decide) (by decide) with ⟨disk', h, hmount⟩
  rcases exists_first_calls h (by decide) (by decide)
    { rootNode with entry := dirEntry 1024 dotName } (by decide) with ⟨fs₁, fs₂, hinode, hblock⟩
  refine ⟨_, _, hmount, (totalsKept_iff (by decide) (by decide) hmount ?_ ?_).mpr (by decide)⟩
  · intro c hc
    rcases List.mem_pair.mp hc with rfl | rfl <;> decide
  · refine ⟨fun parent hc ↦ ?_, fun n fs' _ ↦ ⟨fun parent hc ↦ (by cases hc), fun _ _ _ ↦ trivial⟩⟩
    rw [AllocCall.inode.injEq] at hc
    rw [← hc]
    exact ⟨_, hinode⟩

/-- The call after block 4095 marks a bit behind the sector buffer. -/
theorem not_totalsKept : ∃ fs root, Mounted (zeroedDisk 262144) fs root ∧
    InodesReturn fs ((List.replicate 4060 rootNode).map AllocCall.block) ∧
    ¬ TotalsKept fs ((List.replicate 4060 rootNode).map AllocCall.block) := by
  rcases @exists_mounted (zeroedDisk 262144) (by decide) (by decide) with ⟨disk', -, hmount⟩
  refine ⟨_, _, hmount, inodesReturn_blocks _ _, ?_⟩
  rw [(hmount.allocating (by decide) (by decide)).sequence_iff (by decide) (by decide) ?_
    (inodesReturn_blocks _ _)]
  · have hcount : blockCalls ((List.replicate 4060 rootNode).map AllocCall.block) = 4060 := by
      rw [blockCalls, List.map_replicate, List.countP_replicate]
      rfl
    rw [hcount]
    decide
  · intro c hc
    rw [List.map_replicate] at hc
    rw [List.eq_of_mem_replicate hc]
    decide

end Runs

end Ext2Fs
