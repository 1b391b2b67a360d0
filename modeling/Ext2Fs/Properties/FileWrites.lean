import Ext2Fs.Properties.MkdirCounters
import Ext2Fs.Properties.WriteLoop
import Ext2Fs.Spec.BlockWalk

/-!
# What a write stores

`ext2_write` copies the caller's bytes into a buffer of its own and goes on.  The only thing that it
does to the disk is to allocate blocks for the pointers that it finds empty.
-/

open Reasoning

namespace Ext2Fs

/-! ## One write -/

/-- A call of `alloc_free_block` leads from one state to the other. -/
def Allocates (file : Ext2Node) (fs fs' : Ext2Filesystem) : Prop :=
  ∃ n, allocFreeBlock fs file = .ok (n, fs')

section Write

variable {w w' : BlockWalk} {file : Ext2Node} {fs fs' : Ext2Filesystem} {inode inode' : InodeVar}
  {offset length : UInt64} {buf : Option Sector} {buffer : List UInt8}
  {out : UInt32 × Ext2Filesystem × InodeVar × Option Sector}

theorem BlockWalk.ensure_allocates (h : w.ensure file = .ok w') :
    w'.fs = w.fs ∨ Allocates file w.fs w'.fs := by
  unfold BlockWalk.ensure at h
  rcases bind_eq_ok.mp h with ⟨block, -, h⟩
  split at h
  · rcases bind_eq_ok.mp h with ⟨⟨newBlock, fs⟩, halloc, h⟩
    right
    dsimp only at h
    split at h
    · rw [pure_eq_ok, Except.ok.injEq] at h
      rw [← h]
      exact ⟨newBlock, halloc⟩
    · rcases bind_eq_ok.mp h with ⟨s, -, h⟩
      rcases bind_eq_ok.mp h with ⟨s', -, h⟩
      rw [pure_eq_ok, Except.ok.injEq] at h
      rw [← h]
      exact ⟨newBlock, halloc⟩
  · rw [pure_eq_ok, Except.ok.injEq] at h
    left
    rw [h]

theorem BlockWalk.Descends.allocates (h : BlockWalk.Descends file w w') :
    w'.fs = w.fs ∨ Allocates file w.fs w'.fs := by
  rcases h with ⟨cnt, unit, rest, h⟩
  unfold BlockWalk.descend at h
  rcases bind_eq_ok.mp h with ⟨w₁, hensure, h⟩
  rcases bind_eq_ok.mp h with ⟨block, -, h⟩
  simp only [pure_eq_ok, Except.ok.injEq, Prod.mk.injEq] at h
  have hfs : w'.fs = w₁.fs := by rw [← h.1]
  rw [hfs]
  exact BlockWalk.ensure_allocates hensure

-- One allocation for each index block at most.
theorem getDatablock_allocates (h : getDatablock fs file inode offset buf = .ok out) :
    Relation.ReflTransGen (Allocates file) fs out.2.1 := by
  by_cases hnear : (offset / 4096).toUInt32 / blockSizeInBytes ≤ 12
  · rw [getDatablock_near file hnear] at h
    rw [(finish_pointer h).2.1]
  · rcases getDatablock_far hnear h with ⟨k, w, hwalk, hfinish⟩
    rcases BlockWalk.finish_ok hfinish with ⟨block, -, hfs, -⟩
    rw [hfs]
    clear hfinish hfs
    induction hwalk with
    | single hstep =>
      rcases hstep.allocates with heq | halloc
      · rw [heq]
      · exact .single halloc
    | tail _ hstep ih =>
      rcases hstep.allocates with heq | halloc
      · rw [heq]
        exact ih
      · exact ih.tail halloc

theorem writeLoop_allocates (file : Ext2Node) (fs : Ext2Filesystem) (inode : InodeVar)
    (sector : Option Sector) (offset length : UInt64) (buffer : List UInt8) (source : Nat)
    (r : Ext2Filesystem × InodeVar × List WritePiece)
    (h : writeLoopTrace file fs inode sector offset length buffer source = .ok r) :
    Relation.ReflTransGen (Allocates file) fs r.1 := by
  by_cases hlen : length = 0
  · rw [hlen, writeLoopTrace_zero, Except.ok.injEq] at h
    rw [← h]
  · by_cases hroom : sectorRoom offset < length
    · rw [writeLoopTrace_of_lt hlen hroom] at h
      rcases bind_eq_ok.mp h with ⟨sector', -, h⟩
      rw [Except.ok.injEq] at h
      rw [← h]
    · rw [writeLoopTrace_of_le hlen hroom] at h
      rcases bind_eq_ok.mp h with ⟨sector', -, h⟩
      rcases bind_eq_ok.mp h with ⟨out, hget, h⟩
      rcases bind_eq_ok.mp h with ⟨r', hrest, h⟩
      rw [Except.ok.injEq] at h
      rw [← h]
      exact (getDatablock_allocates hget).trans
        (writeLoop_allocates file out.2.1 out.2.2.1 _ _ _ _ _ r' hrest)
  termination_by writeMeasure offset length
  decreasing_by exact writeMeasure_lt hlen hroom

theorem write_allocates {r : Int} (h : ext2WriteOn fs inode file length buffer = .ok (r, fs')) :
    Relation.ReflTransGen (Allocates file) fs fs' := by
  unfold ext2WriteOn at h
  rcases bind_eq_ok.mp h with ⟨size, -, h⟩
  rcases bind_eq_ok.mp h with ⟨out, hget, h⟩
  rcases bind_eq_ok.mp h with ⟨⟨fs₁, inode₁⟩, hloop, h⟩
  unfold writeLoop at hloop
  rcases bind_eq_ok.mp hloop with ⟨loop, htrace, hloop⟩
  dsimp only at h hloop
  rw [pure_eq_ok, Except.ok.injEq, Prod.mk.injEq] at h hloop
  rw [← h.2, ← hloop.1]
  exact (getDatablock_allocates hget).trans (writeLoop_allocates _ _ _ _ _ _ _ _ _ htrace)

end Write

/-! ## Writes in a session -/

/-- The block bitmaps of the groups are at block 2; the descriptors behind the last group name the
block of the superblock. -/
structure Mapped (fs : Ext2Filesystem) : Prop where
  firstDataBlock : fs.spb.sFirstDataBlock = 0
  groups_pos : 1 ≤ fs.disk.groups
  blockMaps : ∀ g, ∀ hg : g < 16,
    fs.descs[g].bgBlockBitmap = 2 ∨ fs.descs[g].bgBlockBitmap = 0

/-- The states differ in the first sector of the block bitmap, the number of free blocks and the
copies of the counters. -/
structure BlocksAllocated (fs fs' : Ext2Filesystem) : Prop where
  sectors : SameElsewhere fs.disk fs'.disk 16
  spb : { fs'.spb with sFreeBlocksCount := fs.spb.sFreeBlocksCount } = fs.spb

section Mapped

variable {fs fs₁ fs' : Ext2Filesystem} {file : Ext2Node}

theorem BlocksAllocated.refl (fs : Ext2Filesystem) : BlocksAllocated fs fs :=
  ⟨fun _ _ _ _ ↦ rfl, rfl⟩

theorem BlocksAllocated.trans (h : BlocksAllocated fs fs₁) (h' : BlocksAllocated fs₁ fs') :
    BlocksAllocated fs fs' where
  sectors := by
    intro x h16 h0 h8
    rw [h'.sectors x h16 h0 h8, h.sectors x h16 h0 h8]
  spb := by rw [← h.spb, ← h'.spb]

-- One allocation marks a bit of the first bitmap sector, or one of the superblock.
theorem Mapped.allocate (h : Mapped fs) (halloc : Allocates file fs fs') :
    Mapped fs' ∧ BlocksAllocated fs fs' := by
  rcases halloc with ⟨n, hrun⟩
  rcases allocFreeBlock_cases h.firstDataBlock h.groups_pos hrun with
    ⟨-, rfl⟩ | ⟨k, hk, -, m, bits, -, -, hallocated⟩
  · exact ⟨h, .refl fs'⟩
  · have haddr : (fs.descs[k].bgBlockBitmap * sectorsPerBlock).toNat = 16 ∨
        (fs.descs[k].bgBlockBitmap * sectorsPerBlock).toNat = 0 := by
      rcases h.blockMaps k hk with hmap | hmap
      · left
        rw [hmap]
        rfl
      · right
        rw [hmap]
        rfl
    refine ⟨⟨?_, ?_, ?_⟩, ?_, ?_⟩
    · rw [hallocated.spb_eq]
      exact h.firstDataBlock
    · rw [hallocated.groups_eq]
      exact h.groups_pos
    · intro g hg
      rw [hallocated.descs_eq h.groups_pos (by omega) hg]
      split
      · exact h.blockMaps g hg
      · exact h.blockMaps g hg
    · intro x h16 h0 h8
      exact hallocated.content_of_ne (by omega) h0 h8
    · rw [hallocated.spb_eq]
      rfl

-- And so do all allocations of a write.
theorem Mapped.allocates (h : Mapped fs)
    (hallocs : Relation.ReflTransGen (Allocates file) fs fs') :
    Mapped fs' ∧ BlocksAllocated fs fs' := by
  induction hallocs with
  | refl => exact ⟨h, .refl fs⟩
  | tail _ halloc ih =>
    rcases ih.1.allocate halloc with ⟨hmapped, htaken⟩
    exact ⟨hmapped, ih.2.trans htaken⟩

end Mapped

/-- A call of `ext2_write` on the root directory, with any contents of its variable `inode`. -/
structure WriteCall where
  inode : InodeVar
  length : UInt64
  buffer : List UInt8

def WriteCall.run (fs : Ext2Filesystem) (c : WriteCall) : Exec Ext2Filesystem := do
  let (_, fs) ← ext2WriteOn fs c.inode rootNode c.length c.buffer
  return fs

-- A sector written to the root itself, when the stack held the size 511.
theorem Live.write_root {fs : Ext2Filesystem} {k b d : Nat} (h : Live fs k b d)
    {stack : Ext2Inode} (hstack : stack.iSize = 511) {buffer : List UInt8}
    (hlength : buffer.length = 512) :
    ∃ fs', WriteCall.run fs ⟨InodeVar.holding stack, 512, buffer⟩ = .ok fs' := by
  have hblock := (h.rootAt.fillsAs (InodeVar.holding stack)).iBlock
  have hsize := ext2FillInode_iSize fs (InodeVar.holding stack) 2
  rw [show getElem (fillRootInode 36 Ext2Inode.zero).iBlock 0 pointer_lt = 36 from rfl] at hblock
  obtain ⟨sector, hget⟩ : ∃ sector, getDatablock fs rootNode
      (ext2FillInode fs (InodeVar.holding stack) 2) (appendOffset stack.iSize) none =
        .ok (36, fs, ext2FillInode fs (InodeVar.holding stack) 2, sector) := by
    rw [hstack]
    exact ⟨_, getDatablock_first rootNode hblock (by decide) h.rootAt.block_lt none⟩
  have hnext := nextDatablock_first rootNode hblock h.rootAt.block_lt
    (show (appendOffset stack.iSize + sectorRoom (appendOffset stack.iSize)).toNat < 4096 by
      rw [hstack]; decide) sector buffer
  have hbuffer : buffer.length = (512 : UInt64).toNat := hlength
  have hwrites := (@writesAll_of_full rootNode fs _ sector stack.iSize 512 buffer hsize hbuffer
    (by rw [hstack]; decide)).mpr ⟨by rw [hstack]; decide, hnext⟩
  rcases hwrites.writeLoop with ⟨fs', inode', size', hloop, -⟩
  refine ⟨fs', ?_⟩
  unfold WriteCall.run
  dsimp only
  rw [ext2WriteOn_eq]
  change ((getDatablock fs rootNode (ext2FillInode fs (InodeVar.holding stack) 2)
    (appendOffset stack.iSize) none) >>= _) >>= _ = _
  rw [hget, ok_bind, hloop, ok_bind, ok_bind]
  rfl

section Sessions

variable {disk : DiskOperations} {s s' : Session} {c : Call}

theorem Session.Fresh.mapped (h : s.Fresh disk) (hpos : 1 ≤ disk.groups) (hfew : disk.groups ≤ 16) :
    Mapped s.fs := by
  rcases h with ⟨hmount, -⟩
  rcases exists_mounted hpos hfew with ⟨disk', hformatted, hmount'⟩
  rcases mounted_unique hmount hmount' with ⟨hfs, -⟩
  rw [hfs]
  constructor
  case firstDataBlock => rfl
  case groups_pos =>
    rw [newFs_groups hformatted]
    exact hpos
  case blockMaps =>
    intro g hg
    rw [newFs_desc hformatted hpos hg]
    split
    · exact Or.inl rfl
    · split
      · exact Or.inl rfl
      · exact Or.inr rfl

theorem bgBlockBitmap_callDesc (op : DirOp) (desc : Ext2GroupDesc) :
    (callDesc op desc).bgBlockBitmap = desc.bgBlockBitmap := by
  cases op <;> rfl

theorem Counted.mapped {fs fs' : Ext2Filesystem} {op : DirOp} (h : Mapped fs)
    (hcounted : Counted fs fs' (callSb op) (callDesc op)) : Mapped fs' := by
  constructor
  case firstDataBlock => exact hcounted.replicated.firstDataBlock
  case groups_pos => exact hcounted.replicated.groups_pos
  case blockMaps =>
    intro g hg
    have hdescs := hcounted.descs_eq
    simp only [hdescs]
    rw [Vector.getElem_set]
    split
    · rw [bgBlockBitmap_callDesc]
      exact h.blockMaps 0 (by decide)
    · exact h.blockMaps g hg

theorem InUse.mapped (h : InUse disk s) (hpos : 1 ≤ disk.groups) (hfew : disk.groups ≤ 16) :
    Mapped s.fs := by
  have hboth : Serving disk s ∧ Mapped s.fs := by
    apply Reachable.invariant (fun s ↦ Serving disk s ∧ Mapped s.fs) _ _ h
    · intro s hs
      exact ⟨(hs.serving hpos hfew).1, hs.mapped hpos hfew⟩
    · intro s c s' hs hknows hcall
      refine ⟨hs.1.call hknows hcall, ?_⟩
      rcases hs.1.call_counted hknows hcall with rfl | ⟨fs', m, -, hcounted, rfl⟩
      · exact hs.2
      · exact hcounted.mapped hs.2
  exact hboth.2

/-- Any writes to the root, one after the other, leave the directories, the inode table and the data
blocks of a file system in use as they were: neither the bytes written nor a size are on the
disk. -/
theorem writes_store_nothing (hpos : 1 ≤ disk.groups) (hfew : disk.groups ≤ 16)
    (h : InUse disk s) {fs' : Ext2Filesystem}
    (hwrites : Reachable WriteCall.run (fun _ _ ↦ True) (· = s.fs) fs') :
    BlocksAllocated s.fs fs' := by
  have hkept : Mapped fs' ∧ BlocksAllocated s.fs fs' := by
    apply Reachable.invariant (fun fs' ↦ Mapped fs' ∧ BlocksAllocated s.fs fs') _ _ hwrites
    · intro fs hfs
      rw [hfs]
      exact ⟨h.mapped hpos hfew, .refl s.fs⟩
    · intro fs c fs' hfs _ hrun
      unfold WriteCall.run at hrun
      rcases bind_eq_ok.mp hrun with ⟨⟨r, fs₁⟩, hwrite, hrun⟩
      dsimp only at hrun
      rw [pure_eq_ok, Except.ok.injEq] at hrun
      subst hrun
      rcases hfs.1.allocates (write_allocates hwrite) with ⟨hmapped, htaken⟩
      exact ⟨hmapped, hfs.2.trans htaken⟩
  exact hkept.2

end Sessions

/-- 512 bytes written to the root. -/
theorem writes_store_nothing_zeroedDisk : ∃ s fs', InUse (zeroedDisk 262144) s ∧
    WriteCall.run s.fs ⟨InodeVar.holding { Ext2Inode.zero with iSize := 511 }, 512,
      List.replicate 512 0x58⟩ = .ok fs' ∧ BlocksAllocated s.fs fs' := by
  rcases zeroedDisk_call .create with ⟨s₀, s, -, -, hinuse, -, -, -⟩
  have hpos : 1 ≤ (zeroedDisk 262144).groups := by decide
  have hfew : (zeroedDisk 262144).groups ≤ 16 := by decide
  have hstack : { Ext2Inode.zero with iSize := 511 }.iSize = 511 := rfl
  rcases (hinuse.serving hpos hfew).live.write_root hstack (List.length_replicate (a := 0x58)) with
    ⟨fs', hrun⟩
  exact ⟨s, fs', hinuse, hrun,
    writes_store_nothing hpos hfew hinuse (.call (.start rfl) trivial hrun)⟩

end Ext2Fs
