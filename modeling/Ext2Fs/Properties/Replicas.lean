import Ext2Fs.Reasoning.Runs
import Ext2Fs.Spec.DirWrites
import Ext2Fs.Spec.Session

/-!
# The copies of the counters

The superblock is written into every group, and so is the first descriptor sector.  An inode that is
not in the first sector of its bitmap leaves the superblocks of the first groups behind.
-/

open Reasoning

namespace Ext2Fs

/-! ## The state -/

/-- Every group has a copy of the superblock in memory.  `ext2_format` sets `s_first_data_block` to
0, so that the copies stand at the start of a group. -/
structure SuperBlocksCopied (fs : Ext2Filesystem) : Prop where
  firstDataBlock : fs.spb.sFirstDataBlock = 0
  groups_pos : 1 ≤ fs.disk.groups
  superBlock : ∀ g, g < fs.disk.groups →
    fs.disk.content (262144 * g) = asSuperBlock.symm fs.spb

/-- Every group has also a copy of the first descriptor sector. -/
structure Replicated (fs : Ext2Filesystem) : Prop extends SuperBlocksCopied fs where
  descs : ∀ g, g < fs.disk.groups → fs.disk.content (262144 * g + 8) = fs.disk.content 8

/-- Mounting again needs the sector of the root directory. -/
def RootInRange (fs : Ext2Filesystem) : Prop :=
  ((fs.spb.sFirstDataBlock + (getElem fs.descs 0 firstRecord_lt).bgInodeTable +
    inodeTableBlocks fs.spb) *
    sectorsPerBlock).toNat < fs.disk.numberOfSectors.toNat

/-! ## The calls -/

inductive CounterCall where
  | block (parent : Ext2Node)
  | inode (parent : Ext2Node)
  | mkdir (parent : Ext2Node) (entryName : List UInt8)

namespace CounterCall

def run (fs : Ext2Filesystem) : CounterCall → Exec (Int × Ext2Filesystem)
  | .block parent => allocFreeBlock fs parent
  | .inode parent => allocFreeInode fs parent
  | .mkdir parent entryName => do
    let (result, _, fs) ← ext2Mkdir fs parent entryName
    return (result, fs)

def step (fs : Ext2Filesystem) (c : CounterCall) : Exec Ext2Filesystem := do
  let (_, fs) ← c.run fs
  return fs

end CounterCall

/-- For `ext2_mkdir` the bitmaps and inode tables are where `ext2_format` puts them, and block 0 is
marked.  Of the groups that the disk does not have, the descriptors of those that the parent or a
number of the bitmap can name are zero. -/
structure LaidOut (fs : Ext2Filesystem) (parent : Ext2Node) : Prop where
  used : ∀ g, ∀ hg : g < 16, g < fs.disk.groups → fs.descs[g].bgBlockBitmap = 2 ∧
    fs.descs[g].bgInodeBitmap = 3 ∧ fs.descs[g].bgInodeTable = 4
  unused : ∀ g, ∀ hg : g < 16, fs.disk.groups ≤ g →
    g < 4 ∨ g = parent.inodeNum.toNat / 1024 ∨ g = parent.entry.inode.toNat / 1024 →
      fs.descs[g] = Ext2GroupDesc.zero
  marked : bitAt (fs.disk.content 16) 0 = true

/-- No block of the directory is where a group has its superblock, descriptors or block bitmap. -/
def DirectoryApart (fs : Ext2Filesystem) (parent : Ext2Node) : Prop :=
  ∀ (k : Nat) (block : UInt32),
    ((ext2FillInode fs InodeVar.uninit parent.entry.inode).iBlock[k]?).join = some block →
      2 < block.toNat % 32768

/-- The first sector of the block bitmap has a byte that is not full. -/
def BlockRoom (fs : Ext2Filesystem) : Prop := ¬ SectorFull (fs.disk.content 16)

def BlocksFull (fs : Ext2Filesystem) : Prop := ∀ i < 8, SectorFull (fs.disk.content (16 + i))

/-- The call refreshes every copy: its block or inode is in the first sector of the bitmap, or there
is none.  The block that `ext2_mkdir` takes repairs what its inode left behind. -/
def CounterCall.Refreshes (fs : Ext2Filesystem) : CounterCall → Prop
  | .block parent => BlockServed fs parent
  | .inode parent => InodeFirst fs parent
  | .mkdir parent _ => LaidOut fs parent ∧ DirectoryApart fs parent ∧
      (BlockRoom fs ∨ BlocksFull fs ∧ InodeFirst fs parent)

/-! ## The allocators -/

section Alloc

variable {fs fs' : Ext2Filesystem} {bitmap : UInt32} {bits : Sector} {spb : Ext2SuperBlock}
  {k : Nat} {count : Ext2GroupDesc → Ext2GroupDesc}

-- Counters written from the first group on make all copies equal, whatever they were.
theorem Allocated.replicated (h : Allocated fs fs' bitmap bits spb 0 k count)
    (h0 : spb.sFirstDataBlock = 0) (hpos : 1 ≤ fs.disk.groups) : Replicated fs' := by
  have hgroups := h.groups_eq
  refine ⟨⟨?_, ?_, ?_⟩, ?_⟩
  · rw [h.spb_eq]
    exact h0
  · rw [hgroups]
    exact hpos
  · intro g hg
    rw [h.content_eq, if_neg (by omega), if_pos (by omega), h.spb_eq]
  · intro g hg
    rw [h.content_eq, if_pos (by omega), h.content_eq 8, if_pos (by omega)]

theorem countInodeSb_ne (spb : Ext2SuperBlock) :
    asSuperBlock.symm spb ≠ asSuperBlock.symm (countInodeSb spb) := by
  intro h
  have hcount := congrArg Ext2SuperBlock.sFreeInodesCount (asSuperBlock.symm.injective h)
  change spb.sFreeInodesCount = spb.sFreeInodesCount - 1 at hcount
  have hnat := congrArg UInt32.toNat hcount
  rw [UInt32.toNat_sub] at hnat
  have hlt := spb.sFreeInodesCount.toNat_lt
  simp at hnat
  omega

-- Written from group `i` on, the superblocks are all refreshed only for `i = 0`.
theorem Allocated.replicated_iff {i : Nat} {block : UInt32} (hold : Replicated fs) (hi : i < 8)
    (h : Allocated fs fs' (UInt32.ofNat i + block * sectorsPerBlock) bits (countInodeSb fs.spb) i k
      count) : Replicated fs' ↔ i = 0 := by
  have hpos := hold.groups_pos
  constructor
  · intro hnew
    by_contra hne
    have hstale := hnew.superBlock 0 hnew.groups_pos
    have haddr : (UInt32.ofNat i + block * sectorsPerBlock).toNat ≠ 0 := by
      simp
      omega
    rw [h.content_eq, if_neg (by omega), if_neg (by omega), h.spb_eq] at hstale
    have hsame := hold.superBlock 0 hpos
    rw [Nat.mul_zero] at hsame hstale
    have hframe : (fs.disk.writeSector (UInt32.ofNat i + block * sectorsPerBlock) bits).content 0 =
        fs.disk.content 0 := Store.cell_write_of_ne bits (Ne.symm haddr)
    rw [hframe, hsame] at hstale
    exact countInodeSb_ne fs.spb hstale
  · intro hzero
    rw [hzero] at h
    exact h.replicated hold.firstDataBlock hpos

end Alloc

namespace Replicated

variable {fs fs' : Ext2Filesystem} {parent : Ext2Node} {n : Int} (h : Replicated fs)

include h

theorem of_allocFreeBlock (hrun : allocFreeBlock fs parent = .ok (n, fs')) :
    Replicated fs' := by
  rcases allocFreeBlock_cases h.firstDataBlock h.groups_pos hrun with
    ⟨-, rfl⟩ | ⟨k, hk, -, m, bits, -, -, halloc⟩
  · exact h
  · exact halloc.replicated h.firstDataBlock h.groups_pos

-- A block from another sector would be marked behind the buffer.
theorem allocFreeBlock_iff (parent : Ext2Node) :
    (∃ n fs', allocFreeBlock fs parent = .ok (n, fs') ∧ Replicated fs') ↔ BlockServed fs parent := by
  rw [← defined_allocFreeBlock_iff h.firstDataBlock h.groups_pos]
  constructor
  · rintro ⟨n, fs', hrun, -⟩
    exact ⟨_, hrun⟩
  · rintro ⟨⟨n, fs'⟩, hrun⟩
    exact ⟨n, fs', hrun, h.of_allocFreeBlock hrun⟩

theorem allocFreeInode_iff (hrun : allocFreeInode fs parent = .ok (n, fs')) :
    Replicated fs' ↔ InodeFirst fs parent := by
  rcases allocFreeInode_cases h.firstDataBlock h.groups_pos hrun with
    ⟨-, rfl, hfirst⟩ | ⟨k, hk, -, -, -, i, m, bits, -, -, hi, hfirst, halloc⟩
  · exact iff_of_true h hfirst
  · rw [halloc.replicated_iff h hi, hfirst]

-- Mounting the disk again reads the superblock that was in memory.
theorem remount (hroot : RootInRange fs) :
    ∃ root, ext2ReadSuperblock fs.disk = .ok (some (fs, root)) := by
  have hfit := fs.disk.groups_fit
  have hpos := h.groups_pos
  have hzero := h.superBlock 0 hpos
  rw [Nat.mul_zero] at hzero
  have hread : fs.disk.readSector 0 none = (0, some (asSuperBlock.symm fs.spb)) := by
    rw [DiskOperations.readSector_of_lt none (by rw [UInt32.toNat_zero]; omega), UInt32.toNat_zero,
      hzero]
  have hdesc := readDesc_of_lt fs h.firstDataBlock hpos UInt32.toNat_zero (by decide)
  have hsector := DiskOperations.readSector_of_lt none hroot
  unfold ext2ReadSuperblock
  rw [hread]
  simp only [Equiv.apply_symm_apply, hdesc, determinate_some, ok_bind, copyDesc_bgInodeTable,
    hsector, loadAt_of_lt asEntries (show 0 < 16 by decide)]
  exact ⟨_, rfl⟩

end Replicated

/-! ## Directories -/

section Copied

variable {fs : Ext2Filesystem} (h : SuperBlocksCopied fs)

include h

theorem SuperBlocksCopied.write {sector : UInt32} (bits : Sector)
    (haddr : sector.toNat % 262144 ≠ 0 ∨ fs.disk.groups ≤ sector.toNat / 262144) :
    SuperBlocksCopied ⟨fs.spb, fs.disk.writeSector sector bits⟩ := by
  constructor
  · exact h.firstDataBlock
  · rw [DiskOperations.groups_writeSector]
    exact h.groups_pos
  · intro g hg
    rw [DiskOperations.groups_writeSector] at hg
    rw [← h.superBlock g hg]
    exact Store.cell_write_of_ne bits (by omega)

theorem SuperBlocksCopied.writeDescs (bits : Sector) :
    Replicated ⟨fs.spb, writeDescSectors fs.disk fs.spb bits⟩ := by
  have hgroups : (writeDescSectors fs.disk fs.spb bits).groups = fs.disk.groups :=
    groups_congr (numberOfSectors_writeDescSectors bits)
  have hc := @content_writeDescSectors fs.disk _ h.firstDataBlock bits
  have hpos := h.groups_pos
  refine ⟨⟨h.firstDataBlock, ?_, ?_⟩, ?_⟩
  · rw [hgroups]
    exact hpos
  · intro g hg
    rw [hgroups] at hg
    rw [hc, if_neg (by omega)]
    exact h.superBlock g hg
  · intro g hg
    rw [hgroups] at hg
    rw [hc, if_pos (by omega), hc 8, if_pos (by omega)]

end Copied

/-- What `ext2_mkdir` has after the inode: the copies are equal, or the next block makes them so. -/
structure Repairable (fs : Ext2Filesystem) (parent : Ext2Node) : Prop where
  firstDataBlock : fs.spb.sFirstDataBlock = 0
  groups_pos : 1 ≤ fs.disk.groups
  laidOut : LaidOut fs parent
  -- the sector is read as a bitmap for the nodes of groups that the disk does not have
  firstSector : ∃ spb, fs.disk.content 0 = asSuperBlock.symm spb ∧ spb.sFirstDataBlock = 0
  copied : SuperBlocksCopied fs ∨ BlockRoom fs

section Repairable

variable {fs fs' : Ext2Filesystem} {parent : Ext2Node}

theorem LaidOut.congr (h : LaidOut fs parent) (hgroups : fs'.disk.groups = fs.disk.groups)
    (hdescs : fs'.disk.content 8 = fs.disk.content 8)
    (hbits : fs'.disk.content 16 = fs.disk.content 16) : LaidOut fs' parent := by
  have hsame : fs'.descs = fs.descs := by
    rw [Ext2Filesystem.descs, hdescs, Ext2Filesystem.descs]
  constructor
  · intro g hg hlt
    rw [hgroups] at hlt
    simp only [hsame]
    exact h.used g hg hlt
  · intro g hg hge
    rw [hgroups] at hge
    simp only [hsame]
    exact h.unused g hg hge
  · rw [hbits]
    exact h.marked

theorem LaidOut.group_lt (h : LaidOut fs parent) {k : Nat} {hk : k < 16}
    (hgroup : k = parent.inodeNum.toNat / 1024) (hcount : fs.descs[k].bgFreeInodesCount ≠ 0) :
    k < fs.disk.groups := by
  apply Nat.lt_of_not_le
  intro hge
  rw [h.unused k hk hge (Or.inr (Or.inl hgroup))] at hcount
  exact hcount rfl

theorem repairable_of_replicated (h : Replicated fs) (hlaid : LaidOut fs parent) :
    Repairable fs parent := by
  have hzero := h.superBlock 0 h.groups_pos
  exact ⟨h.firstDataBlock, h.groups_pos, hlaid, ⟨fs.spb, hzero, h.firstDataBlock⟩,
    Or.inl h.toSuperBlocksCopied⟩

section Counted

variable {k : Nat}
  (hdescs : ∀ g, ∀ hg : g < 16,
    fs'.descs[g] = if k = g then countInode fs.descs[g] else fs.descs[g])

include hdescs

-- Counting an inode moves no structure of a group.
theorem LaidOut.of_counted (h : LaidOut fs parent) (hgroups : fs'.disk.groups = fs.disk.groups)
    (hk : k < fs.disk.groups) (hbits : fs'.disk.content 16 = fs.disk.content 16) :
    LaidOut fs' parent := by
  constructor
  · intro g hg hlt
    rw [hgroups] at hlt
    rw [field_of_counted hdescs (·.bgBlockBitmap) (fun _ ↦ rfl) hg,
      field_of_counted hdescs (·.bgInodeBitmap) (fun _ ↦ rfl) hg,
      field_of_counted hdescs (·.bgInodeTable) (fun _ ↦ rfl) hg]
    exact h.used g hg hlt
  · intro g hg hge
    rw [hgroups] at hge
    rw [hdescs g hg, if_neg (by omega)]
    exact h.unused g hg hge
  · rw [hbits]
    exact h.marked

-- The table of the parent is behind the bitmaps, or where a missing group's descriptor sends it.
theorem LaidOut.inodeEntry_of_counted (h : LaidOut fs parent) (h0 : fs.spb.sFirstDataBlock = 0)
    (h0' : fs'.spb.sFirstDataBlock = 0) (hpos : 1 ≤ fs.disk.groups)
    (hn : fs'.disk.numberOfSectors = fs.disk.numberOfSectors)
    (htables : ∀ x, 32 ≤ x → x % 262144 ≠ 0 → x % 262144 ≠ 8 →
      fs'.disk.content x = fs.disk.content x)
    (hmissing : ∀ g, fs.disk.groups ≤ g →
      fs'.disk.content (262144 * g) = fs.disk.content (262144 * g)) :
    inodeEntry fs' parent.entry.inode = inodeEntry fs parent.entry.inode := by
  obtain ⟨g, hg⟩ : ∃ g, g = parent.entry.inode.toNat / 1024 := ⟨_, rfl⟩
  by_cases hgroup : g < 16
  · have hsame := field_of_counted hdescs (·.bgInodeTable) (fun _ ↦ rfl) hgroup
    by_cases hused : g < fs.disk.groups
    · have htable : fs.descs[g].bgInodeTable.toNat = 4 := by
        rw [(h.used _ hgroup hused).2.2]
        rfl
      apply inodeEntry_congr h0 h0' hpos hn hg.symm hgroup hsame
      · rw [htable]
        decide
      · rw [htable]
        exact htables _ (by omega) (by omega) (by omega)
    · have htable : fs.descs[g].bgInodeTable.toNat = 0 := by
        rw [h.unused _ hgroup (by omega) (Or.inr (Or.inr hg))]
        rfl
      apply inodeEntry_congr h0 h0' hpos hn hg.symm hgroup hsame
      · rw [htable]
        decide
      · rw [htable]
        exact hmissing _ (by omega)
  · rw [inodeEntry_of_ge (by omega), inodeEntry_of_ge (by omega)]

end Counted

-- The inode of a new directory is taken: the superblock of the first group is refreshed, or left as
-- it was.
theorem LaidOut.allocFreeInode (hlaid : LaidOut fs parent) (h : Replicated fs) {n : Int}
    (hrun : Ext2Fs.allocFreeInode fs parent = .ok (n, fs')) :
    fs'.spb.sFirstDataBlock = 0 ∧ fs'.disk.groups = fs.disk.groups ∧ LaidOut fs' parent ∧
      n < 4096 ∧ fs'.disk.content 16 = fs.disk.content 16 ∧
      inodeEntry fs' parent.entry.inode = inodeEntry fs parent.entry.inode ∧
      (Replicated fs' ∨ ¬ InodeFirst fs parent ∧ fs'.spb = countInodeSb fs.spb ∧
        fs'.disk.content 0 = asSuperBlock.symm fs.spb) := by
  have hpos := h.groups_pos
  have hle := fs.disk.groups_le
  rcases allocFreeInode_cases h.firstDataBlock hpos hrun with
    ⟨herror, hsame, -⟩ | ⟨k, hk, hnum, -, hcount, i, m, bits, hn, hm, hi, hfirst, halloc⟩
  · rw [hsame, herror]
    exact ⟨h.firstDataBlock, rfl, hlaid, by decide, rfl, rfl, Or.inl h⟩
  have hkg := hlaid.group_lt (by rw [← hnum]; simp) hcount
  have haddr : (UInt32.ofNat i + fs.descs[k].bgInodeBitmap * sectorsPerBlock).toNat = 24 + i := by
    rw [(hlaid.used k hk hkg).2.1]
    exact sectorOfBlock_toNat (by decide) hi
  have hgroups := halloc.groups_eq
  have hdescs : ∀ g, ∀ hg : g < 16,
      fs'.descs[g] = if k = g then countInode fs.descs[g] else fs.descs[g] :=
    fun g hg ↦ halloc.descs_eq hpos (by omega) hg
  have hframe : ∀ x, (x < 24 ∨ 32 ≤ x) → x % 262144 ≠ 0 → x % 262144 ≠ 8 →
      fs'.disk.content x = fs.disk.content x :=
    fun x hx h0 h8 ↦ halloc.content_of_ne (by omega) h0 h8
  have h16 := hframe 16 (by omega) (by decide) (by decide)
  have h0' : fs'.spb.sFirstDataBlock = 0 := by
    rw [halloc.spb_eq]
    exact h.firstDataBlock
  refine ⟨h0', hgroups, hlaid.of_counted hdescs hgroups hkg h16, by omega, h16, ?_, ?_⟩
  · refine hlaid.inodeEntry_of_counted hdescs h.firstDataBlock h0' hpos halloc.sectors_eq
      (fun x hx ↦ hframe x (Or.inr hx)) (fun g hg ↦ ?_)
    rw [halloc.content_eq, if_neg (by omega), if_neg (by omega)]
    exact Store.cell_write_of_ne bits (by omega)
  · by_cases hzero : i = 0
    · rw [hzero] at halloc
      exact Or.inl (halloc.replicated h.firstDataBlock hpos)
    · refine Or.inr ⟨fun hin ↦ hzero (hfirst.mpr hin), halloc.spb_eq, ?_⟩
      have hold : (fs.disk.writeSector (UInt32.ofNat i + fs.descs[k].bgInodeBitmap *
          sectorsPerBlock) bits).content 0 = fs.disk.content 0 :=
        Store.cell_write_of_ne bits (by omega)
      rw [halloc.content_eq, if_neg (by omega), if_neg (by omega), hold]
      exact h.superBlock 0 hpos

theorem Repairable.of_allocFreeInode (h : Replicated fs) (hlaid : LaidOut fs parent)
    (hroom : BlockRoom fs ∨ InodeFirst fs parent) {n : Int}
    (hrun : Ext2Fs.allocFreeInode fs parent = .ok (n, fs')) : Repairable fs' parent := by
  rcases hlaid.allocFreeInode h hrun with
    ⟨h0', hgroups, hlaid', -, h16, -, hrep | ⟨hfirst, -, hzero⟩⟩
  · exact repairable_of_replicated hrep hlaid'
  · refine ⟨h0', ?_, hlaid', ⟨_, hzero, h.firstDataBlock⟩, ?_⟩
    · rw [hgroups]
      exact h.groups_pos
    · rcases hroom with hroom | hin
      · rw [BlockRoom, ← h16] at hroom
        exact Or.inr hroom
      · exact absurd hin hfirst

-- The entry is written into the parent.
theorem Repairable.write (h : Repairable fs parent) {sector : UInt32} (bits : Sector)
    (haddr : 16 < sector.toNat % 262144) :
    Repairable ⟨fs.spb, fs.disk.writeSector sector bits⟩ parent := by
  have hframe : ∀ x, x ≤ 16 → (fs.disk.writeSector sector bits).content x = fs.disk.content x :=
    fun x hx ↦ Store.cell_write_of_ne bits (by omega)
  have hgroups : (fs.disk.writeSector sector bits).groups = fs.disk.groups :=
    DiskOperations.groups_writeSector _ bits
  refine ⟨h.firstDataBlock, ?_, ?_, ?_, ?_⟩
  · rw [hgroups]
    exact h.groups_pos
  · exact h.laidOut.congr hgroups (hframe 8 (by decide)) (hframe 16 (by decide))
  · rw [hframe 0 (by decide)]
    exact h.firstSector
  · rcases h.copied with hcopied | hroom
    · exact Or.inl (hcopied.write bits (Or.inl (by omega)))
    · rw [BlockRoom, ← hframe 16 (by decide)] at hroom
      exact Or.inr hroom

theorem newDirAddress_error (n : UInt32) :
    (newDirAddress n ext2Error).toNat % 262144 = 262136 := by
  have herror : (UInt32.ofInt ext2Error).toNat = 4294967295 := by decide
  unfold newDirAddress
  rw [UInt32.toNat_mul, UInt32.toNat_add, herror]
  simp
  omega

-- The bitmap that `alloc_free_block` scans first is not full where a copy is missing.  Of a group
-- behind the last one the bitmap is the superblock.
theorem Repairable.firstBitmap (h : Repairable fs parent) {k : Nat} (hk : k < 4) :
    ∃ first, (fs.disk.readSector (fs.descs[k].bgBlockBitmap * sectorsPerBlock) none).2 =
      some first ∧ (SuperBlocksCopied fs ∨ ¬ SectorFull first) ∧
      (k < fs.disk.groups → bitAt first 0 = true) := by
  have hpos := h.groups_pos
  have hfit := fs.disk.groups_fit
  by_cases hused : k < fs.disk.groups
  · rw [(h.laidOut.used k (by omega) hused).1]
    have hread : (fs.disk.readSector (2 * sectorsPerBlock) none).2 =
        some (fs.disk.content 16) :=
      DiskOperations.readSector_eq none (show ((2 : UInt32) * sectorsPerBlock).toNat = 16 from rfl)
        (by omega) rfl
    exact ⟨_, hread, h.copied, fun _ ↦ h.laidOut.marked⟩
  · rw [h.laidOut.unused k (by omega) (by omega) (Or.inl hk)]
    have hread : (fs.disk.readSector (Ext2GroupDesc.zero.bgBlockBitmap * sectorsPerBlock)
        none).2 = some (fs.disk.content 0) :=
      DiskOperations.readSector_eq none
        (show (Ext2GroupDesc.zero.bgBlockBitmap * sectorsPerBlock).toNat = 0 from rfl)
        (by omega) rfl
    rcases h.firstSector with ⟨spb, hspb, hfirst⟩
    have hbyte := superBlock_firstDataBlock spb
    rw [hfirst, ← hspb] at hbyte
    refine ⟨_, hread, Or.inr fun hfull ↦ ?_, fun hlt ↦ absurd hlt hused⟩
    have hmem : (fs.disk.content 0)[20] ∈ (fs.disk.content 0).toList := by
      rw [Vector.mem_toList_iff]
      exact Vector.getElem_mem _
    rw [hfull _ hmem] at hbyte
    exact absurd hbyte (by decide)

-- The block of a new directory: all copies are equal after the call, and the first sector of the
-- directory is none of them.
theorem Repairable.allocFreeBlock (h : Repairable fs parent) {node : Ext2Node} {datablock : Int}
    (hn : node.entry.inode.toNat < 4096)
    (hrun : Ext2Fs.allocFreeBlock fs node = .ok (datablock, fs')) :
    SuperBlocksCopied fs' ∧ fs'.disk.groups = fs.disk.groups ∧
      ((newDirAddress node.entry.inode datablock).toNat % 262144 ≠ 0 ∨
        fs.disk.groups ≤ (newDirAddress node.entry.inode datablock).toNat / 262144) := by
  have hpos := h.groups_pos
  obtain ⟨k, hk⟩ : ∃ k, k = node.entry.inode.toNat / 1024 := ⟨_, rfl⟩
  have hnum := groupNum_toNat hk.symm
  rcases h.firstBitmap (show k < 4 by omega) with ⟨first, hread, hroom, hmarked⟩
  have hfirst := allocFreeBlock_first h.firstDataBlock hpos hnum (by omega) hread hrun
  rcases allocFreeBlock_cases h.firstDataBlock hpos hrun with
    ⟨herror, hsame⟩ | ⟨k', hk', -, m, bits, hm, hlt, halloc⟩
  · refine ⟨?_, by rw [hsame], Or.inl ?_⟩
    · rw [hsame]
      rcases hroom with hcopied | hnotFull
      · exact hcopied
      · exact absurd (hfirst.1.mp herror) hnotFull
    · rw [herror, newDirAddress_error]
      decide
  · refine ⟨(halloc.replicated h.firstDataBlock hpos).toSuperBlocksCopied, halloc.groups_eq, ?_⟩
    rw [hm, newDirAddress_toNat hn hlt]
    by_cases hused : k < fs.disk.groups
    · left
      have hne : m ≠ 0 := by
        intro hzero
        have hclear := hfirst.2 (by rw [hm, hzero]; rfl)
        rw [hmarked hused] at hclear
        cases hclear
      omega
    · right
      omega

-- The sector of the inode table that `insert_inode` writes is no copy of the superblock.
theorem LaidOut.insertInodeSector_apart (h : LaidOut fs parent) (h0 : fs.spb.sFirstDataBlock = 0)
    (hpos : 1 ≤ fs.disk.groups) {n : UInt32} (hn : n.toNat < 4096) {desc : Ext2GroupDesc}
    (hdesc : readDesc fs (n / inodesPerGroup) = some desc) :
    (insertInodeSector desc n).toNat % 262144 ≠ 0 ∨
      fs.disk.groups ≤ (insertInodeSector desc n).toNat / 262144 := by
  obtain ⟨k, hk⟩ : ∃ k, k = n.toNat / 1024 := ⟨_, rfl⟩
  have hk16 : k < 16 := by omega
  rw [readDesc_of_lt fs h0 hpos (groupNum_toNat hk.symm) hk16, Option.some.injEq] at hdesc
  by_cases hused : k < fs.disk.groups
  · have htable : desc.bgInodeTable.toNat = 4 := by
      rw [← hdesc, copyDesc_bgInodeTable, (h.used k hk16 hused).2.2]
      rfl
    rw [insertInodeSector_toNat htable (by decide) (by omega), insertSector]
    omega
  · have htable : desc.bgInodeTable.toNat = 0 := by
      rw [← hdesc, copyDesc_bgInodeTable, h.unused k hk16 (by omega) (Or.inl (by omega))]
      rfl
    rw [insertInodeSector_toNat htable (by decide) (by omega), insertSector]
    omega

theorem Repairable.makeDirectory (h : Repairable fs parent) {entry : Ext2DirEntry}
    (hentry : entry.inode.toNat < 4096) {n : Int} {ret : Option Ext2Node}
    (hrun : Ext2Fs.makeDirectory fs parent entry = .ok (n, ret, fs')) : Replicated fs' := by
  rcases makeDirectory_ok hrun with ⟨datablock, fs₁, sector, bits, hinsert, hfs', -⟩
  rcases insertInode_directory_ok hinsert with ⟨desc, fs₂, hdesc, halloc, -, hfs₁⟩
  rcases h.allocFreeBlock hentry halloc with ⟨hcopied, hgroups, haddr⟩
  have happart := h.laidOut.insertInodeSector_apart h.firstDataBlock h.groups_pos hentry hdesc
  rw [← hgroups] at haddr happart
  have hcopied₁ : SuperBlocksCopied fs₁ ∧ fs₁.disk.groups = fs₂.disk.groups := by
    rcases hfs₁ with ⟨-, hsame⟩ | ⟨bits₁, hwrite⟩
    · rw [hsame]
      exact ⟨hcopied, rfl⟩
    · rw [hwrite]
      exact ⟨hcopied.write bits₁ happart, DiskOperations.groups_writeSector _ _⟩
  rw [← hcopied₁.2] at haddr
  rw [hfs']
  exact (hcopied₁.1.write sector haddr).writeDescs bits

-- What comes before the directory itself: an inode, and a sector of the parent.
theorem LaidOut.ext2Mkdir_cases (hlaid : LaidOut fs parent) (h : Replicated fs)
    (hapart : DirectoryApart fs parent) {entryName : List UInt8} {n : Int} {ret : Option Ext2Node}
    (hrun : Ext2Fs.ext2Mkdir fs parent entryName = .ok (n, ret, fs')) :
    (ret = none ∧ fs' = fs) ∨ ∃ inodeNum fs₁ entry sector bits,
      Ext2Fs.allocFreeInode fs parent = .ok (inodeNum, fs₁) ∧ entry.inode.toNat < 4096 ∧
      16 < sector.toNat % 262144 ∧
      Ext2Fs.makeDirectory ⟨fs₁.spb, fs₁.disk.writeSector sector bits⟩ parent entry =
        .ok (n, ret, fs') := by
  rcases Ext2Fs.ext2Mkdir_cases hrun with
    hnone | ⟨inodeNum, fs₁, entry, halloc, hinode, hcases⟩
  · exact Or.inl hnone
  rcases hlaid.allocFreeInode h halloc with ⟨-, -, -, hm, -, hsame, -⟩
  have hentry : entry.inode.toNat < 4096 := by
    rcases hinode with hzero | ⟨hnonneg, hnew⟩
    · rw [hzero]
      decide
    · obtain ⟨i, rfl⟩ := Int.eq_ofNat_of_zero_le hnonneg
      rw [hnew, ofInt_natCast]
      simp
      omega
  rcases hcases with herror | ⟨l, bits, hlocates, hmake⟩
  · -- the number taken is not `EXT2_ERROR`
    have hmax : (UInt32.ofInt ext2Error).toNat = 4294967295 := by decide
    rw [herror, hmax] at hentry
    omega
  · have hfill : ext2FillInode fs₁ InodeVar.uninit parent.entry.inode =
        ext2FillInode fs InodeVar.uninit parent.entry.inode := by
      unfold ext2FillInode
      rw [hsame]
    rw [hfill, or_self] at hlocates
    rcases hlocates with ⟨⟨k, hk⟩, hentryNum⟩
    have hblock := hapart k l.blockNum hk
    refine Or.inr ⟨inodeNum, fs₁, entry, l.sector, bits, halloc, hentry, ?_, hmake⟩
    rw [l.sector_toNat hentryNum]
    omega

theorem Replicated.ext2Mkdir (h : Replicated fs) {entryName : List UInt8}
    (hlaid : LaidOut fs parent) (hapart : DirectoryApart fs parent)
    (hroom : BlockRoom fs ∨ InodeFirst fs parent) {n : Int} {ret : Option Ext2Node}
    (hrun : Ext2Fs.ext2Mkdir fs parent entryName = .ok (n, ret, fs')) : Replicated fs' := by
  rcases hlaid.ext2Mkdir_cases h hapart hrun with
    ⟨-, hsame⟩ | ⟨inodeNum, fs₁, entry, sector, bits, halloc, hentry, haddr, hmake⟩
  · rw [hsame]
    exact h
  · exact ((Repairable.of_allocFreeInode h hlaid hroom halloc).write bits haddr).makeDirectory
      hentry hmake

end Repairable

/-! ## Directories that leave a copy behind -/

/-- The superblock of the first group is not the one in memory. -/
structure Stale (fs : Ext2Filesystem) : Prop where
  firstDataBlock : fs.spb.sFirstDataBlock = 0
  groups_pos : 1 ≤ fs.disk.groups
  differs : fs.disk.content 0 ≠ asSuperBlock.symm fs.spb

section Stale

variable {fs fs' : Ext2Filesystem} {parent : Ext2Node}

theorem Stale.not_replicated (h : Stale fs) : ¬ Replicated fs := by
  intro hrep
  exact h.differs (hrep.superBlock 0 h.groups_pos)

theorem Stale.write (h : Stale fs) {sector : UInt32} (bits : Sector) (hne : sector.toNat ≠ 0) :
    Stale ⟨fs.spb, fs.disk.writeSector sector bits⟩ := by
  refine ⟨h.firstDataBlock, ?_, ?_⟩
  · rw [DiskOperations.groups_writeSector]
    exact h.groups_pos
  · have hframe : (fs.disk.writeSector sector bits).content 0 = fs.disk.content 0 :=
      Store.cell_write_of_ne bits (Ne.symm hne)
    rw [hframe]
    exact h.differs

theorem Stale.writeDescs (h : Stale fs) (bits : Sector) :
    Stale ⟨fs.spb, writeDescSectors fs.disk fs.spb bits⟩ := by
  have hgroups : (writeDescSectors fs.disk fs.spb bits).groups = fs.disk.groups :=
    groups_congr (numberOfSectors_writeDescSectors bits)
  refine ⟨h.firstDataBlock, ?_, ?_⟩
  · rw [hgroups]
    exact h.groups_pos
  · rw [@content_writeDescSectors fs.disk _ h.firstDataBlock bits,
      if_neg fun hc ↦ absurd hc.1 (by decide)]
    exact h.differs

-- Without a block nothing writes the superblock again.
theorem Stale.makeDirectory (h : Stale fs) (hlaid : LaidOut fs parent)
    (hfull : SectorFull (fs.disk.content 16)) {entry : Ext2DirEntry}
    (hentry : entry.inode.toNat < 4096) (hgroup : entry.inode.toNat / 1024 < fs.disk.groups)
    {n : Int} {ret : Option Ext2Node}
    (hrun : Ext2Fs.makeDirectory fs parent entry = .ok (n, ret, fs')) : Stale fs' := by
  have hpos := h.groups_pos
  have hfit := fs.disk.groups_fit
  obtain ⟨k, hk⟩ : ∃ k, k = entry.inode.toNat / 1024 := ⟨_, rfl⟩
  rcases makeDirectory_ok hrun with ⟨datablock, fs₁, sector, bits, hinsert, hfs', -⟩
  rcases insertInode_directory_ok hinsert with ⟨desc, fs₂, hdesc, halloc, -, hfs₁⟩
  have hread : (fs.disk.readSector (fs.descs[k].bgBlockBitmap * sectorsPerBlock) none).2 =
      some (fs.disk.content 16) := by
    rw [(hlaid.used k (by omega) (by omega)).1]
    exact DiskOperations.readSector_eq none
      (show ((2 : UInt32) * sectorsPerBlock).toNat = 16 from rfl) (by omega) rfl
  have herror : datablock = ext2Error := (allocFreeBlock_first h.firstDataBlock hpos
    (groupNum_toNat hk.symm) (by omega) hread halloc).1.mpr hfull
  have hsame : fs₂ = fs := by
    rcases allocFreeBlock_cases h.firstDataBlock hpos halloc with
      ⟨-, hsame⟩ | ⟨k', hk', -, m, bits', hm, -⟩
    · exact hsame
    · rw [herror] at hm
      exact absurd hm.symm (natCast_ne_error m)
  have happart := hlaid.insertInodeSector_apart h.firstDataBlock hpos hentry hdesc
  have hstale₁ : Stale fs₁ := by
    rcases hfs₁ with ⟨-, hsame₁⟩ | ⟨bits₁, hwrite⟩
    · rw [hsame₁, hsame]
      exact h
    · rw [hwrite, hsame]
      exact h.write bits₁ (by omega)
  have haddr := newDirAddress_error entry.inode
  rw [hfs', herror]
  exact (hstale₁.write sector (by omega)).writeDescs bits

theorem Replicated.ext2Mkdir_iff (h : Replicated fs) (hlaid : LaidOut fs parent)
    (hapart : DirectoryApart fs parent) {entryName : List UInt8} {n : Int} {node : Ext2Node}
    (hrun : Ext2Fs.ext2Mkdir fs parent entryName = .ok (n, some node, fs'))
    (hgroup : node.entry.inode.toNat / 1024 < fs.disk.groups) :
    Replicated fs' ↔ BlockRoom fs ∨ InodeFirst fs parent := by
  refine ⟨fun hnew ↦ ?_, fun hroom ↦ h.ext2Mkdir hlaid hapart hroom hrun⟩
  by_contra hnone
  rw [not_or, BlockRoom, not_not] at hnone
  rcases hlaid.ext2Mkdir_cases h hapart hrun with
    ⟨hret, -⟩ | ⟨inodeNum, fs₁, entry, sector, bits, halloc, hentry, haddr, hmake⟩
  · cases hret
  rcases hlaid.allocFreeInode h halloc with
    ⟨h0, hgroups, hlaid₁, -, h16, -, hrep | ⟨-, hspb, hzero⟩⟩
  · exact hnone.2 ((h.allocFreeInode_iff halloc).mp hrep)
  have hstale : Stale fs₁ := by
    refine ⟨h0, ?_, ?_⟩
    · rw [hgroups]
      exact h.groups_pos
    · rw [hzero, hspb]
      exact countInodeSb_ne fs.spb
  rcases makeDirectory_ok hmake with ⟨-, -, -, -, -, -, hret⟩
  rw [Option.some.injEq] at hret
  rw [hret, ← hgroups] at hgroup
  have hframe : ∀ x, x ≤ 16 → (fs₁.disk.writeSector sector bits).content x = fs₁.disk.content x :=
    fun x hx ↦ Store.cell_write_of_ne bits (by omega)
  have hgroups₁ : (fs₁.disk.writeSector sector bits).groups = fs₁.disk.groups :=
    DiskOperations.groups_writeSector _ _
  have hstale' := (hstale.write bits (show sector.toNat ≠ 0 by omega)).makeDirectory
    (hlaid₁.congr hgroups₁ (hframe 8 (by decide)) (hframe 16 (by decide)))
    (by rw [hframe 16 (by decide), h16]; exact hnone.1) hentry (by rwa [hgroups₁]) hmake
  exact hstale'.not_replicated hnew

end Stale

/-! ## Formatted disks -/

section Formatted

variable {disk disk' : DiskOperations} (h : Formatted disk disk') (hpos : 1 ≤ disk.groups)

include h

theorem blockRoom_newFs : BlockRoom (newFs disk disk') := by
  intro hfull
  have hmem : (onesPrefix 512 37)[5] ∈ ((newFs disk disk').disk.content 16).toList := by
    rw [newFs_disk, h.blockBitmap, Vector.mem_toList_iff]
    exact Vector.getElem_mem _
  have hbyte := hfull _ hmem
  rw [getElem_onesPrefix (by decide)] at hbyte
  exact absurd hbyte (by decide)

include hpos

theorem replicated_newFs : Replicated (newFs disk disk') := by
  have hgroups := newFs_groups h
  refine ⟨⟨rfl, by omega, ?_⟩, ?_⟩
  · intro g hg
    rw [hgroups] at hg
    exact h.superBlock g hg
  · intro g hg
    rw [hgroups] at hg
    exact (h.descs g hg).trans (h.descs 0 hpos).symm

theorem laidOut_newFs (parent : Ext2Node) : LaidOut (newFs disk disk') parent := by
  have hgroups := newFs_groups h
  constructor
  · intro g hg hlt
    rw [hgroups] at hlt
    exact ⟨newFs_field h hpos (·.bgBlockBitmap) rfl hg hlt,
      newFs_field h hpos (·.bgInodeBitmap) rfl hg hlt,
      newFs_field h hpos (·.bgInodeTable) rfl hg hlt⟩
  · intro g hg hge _
    rw [hgroups] at hge
    rw [newFs_desc h hpos hg, if_neg (by omega), if_neg (by omega)]
  · rw [newFs_disk, h.blockBitmap, bitAt_onesPrefix (by decide)]
    rfl

-- The first directory made on a formatted disk.
theorem refreshes_newFs (entryName : List UInt8) :
    (CounterCall.mkdir rootNode entryName).Refreshes (newFs disk disk') := by
  have hroot := (h.live hpos).rootAt
  have hentry : inodeEntry (newFs disk disk') rootNode.entry.inode =
      some (fillRootInode 36 Ext2Inode.zero) := hroot.inodeEntry_eq
  have hpointers : pointersFilled (fillRootInode 36 Ext2Inode.zero).iBlocks = 1 := by decide
  refine ⟨laidOut_newFs h hpos rootNode, fun k block hblock ↦ ?_, Or.inl (blockRoom_newFs h)⟩
  unfold ext2FillInode at hblock
  rw [hentry] at hblock
  simp only [hpointers] at hblock
  by_cases hk : k = 0
  · subst hk
    have h36 : (fillRootInode 36 Ext2Inode.zero).iBlock[0] = 36 := Vector.getElem_set_self _
    simp [h36] at hblock
    rw [← hblock]
    decide
  · -- the other pointers are left as they were
    rw [Vector.getElem?_ofFn] at hblock
    split at hblock
    · simp [hk, InodeVar.uninit] at hblock
    · cases hblock

end Formatted

/-! ## Runs -/

section Runs

variable {fs fs' : Ext2Filesystem}

theorem CounterCall.replicated (h : Replicated fs) {c : CounterCall} (hc : c.Refreshes fs) {n : Int}
    (hrun : c.run fs = .ok (n, fs')) : Replicated fs' := by
  cases c with
  | block parent => exact h.of_allocFreeBlock hrun
  | inode parent => exact (h.allocFreeInode_iff hrun).mpr hc
  | mkdir parent entryName =>
    unfold CounterCall.run at hrun
    rcases bind_eq_ok.mp hrun with ⟨⟨result, ret, fs₁⟩, hmkdir, hret⟩
    simp only [pure_eq_ok, Except.ok.injEq, Prod.mk.injEq] at hret
    rw [← hret.2]
    exact h.ext2Mkdir hc.1 hc.2.1 (hc.2.2.imp_right And.right) hmkdir

/-- What the outcome of one call depends on: a call of `alloc_free_block` returns with equal copies
exactly when it is served; an inode or a directory that is made leaves them equal exactly when no
inode is taken from another sector, or the block of the directory repairs them. -/
structure RefreshesExactly (fs : Ext2Filesystem) : Prop where
  block : ∀ parent, (∃ n fs', allocFreeBlock fs parent = .ok (n, fs') ∧ Replicated fs') ↔
    BlockServed fs parent
  inode : ∀ parent n fs', allocFreeInode fs parent = .ok (n, fs') →
    (Replicated fs' ↔ InodeFirst fs parent)
  mkdir : ∀ parent entryName n node fs', LaidOut fs parent → DirectoryApart fs parent →
    ext2Mkdir fs parent entryName = .ok (n, some node, fs') →
      node.entry.inode.toNat / 1024 < fs.disk.groups →
        (Replicated fs' ↔ BlockRoom fs ∨ InodeFirst fs parent)

/-- From any state whose copies are equal: along runs of calls that refresh every copy they stay
equal, and mounting the disk again gives the state in memory. -/
theorem replicas_kept
    (h : Reachable CounterCall.step CounterCall.Refreshes Replicated fs) :
    Replicated fs ∧
      (RootInRange fs → ∃ root, ext2ReadSuperblock fs.disk = .ok (some (fs, root))) ∧
      RefreshesExactly fs := by
  have hrep : Replicated fs := by
    apply Reachable.invariant Replicated (fun _ h ↦ h) _ h
    intro fs c fs' hinv hc hstep
    unfold CounterCall.step at hstep
    rcases bind_eq_ok.mp hstep with ⟨⟨n, fs₁⟩, hrun, hret⟩
    simp only [pure_eq_ok, Except.ok.injEq] at hret
    rw [← hret]
    exact CounterCall.replicated hinv hc hrun
  refine ⟨hrep, hrep.remount, ?_⟩
  constructor
  · exact hrep.allocFreeBlock_iff
  · exact fun parent n fs' hrun ↦ hrep.allocFreeInode_iff hrun
  · exact fun parent entryName n node fs' hlaid hapart hrun hgroup ↦
      hrep.ext2Mkdir_iff hlaid hapart hrun hgroup

end Runs

/-- A directory in the root, and then a block for the root. -/
theorem replicas_kept_zeroedDisk : ∃ fs fs₁ fs₂, Replicated fs ∧
    CounterCall.step fs (.mkdir rootNode [0x41]) = .ok fs₁ ∧
    CounterCall.step fs₁ (.block rootNode) = .ok fs₂ ∧ Replicated fs₂ ∧
    (RootInRange fs₂ → ∃ root, ext2ReadSuperblock fs₂.disk = .ok (some (fs₂, root))) ∧
    RefreshesExactly fs₂ := by
  rcases @exists_mounted (zeroedDisk 524288) (by decide) (by decide) with ⟨disk', h, hmount⟩
  have hrep := replicated_newFs h (by decide)
  rcases Session.Fresh.make (s := ⟨newFs (zeroedDisk 524288) disk', rootNode, []⟩) ⟨hmount, rfl⟩
    (by decide) (by decide) (formattedName_A .mkdir) (by decide) with ⟨fs₁, hmkdir, hmakes⟩
  have hlive := hmakes.live
  have hstep : CounterCall.step (newFs (zeroedDisk 524288) disk') (.mkdir rootNode [0x41]) =
      .ok fs₁ := by
    change ext2Mkdir _ rootNode [0x41] = _ at hmkdir
    rw [CounterCall.step, CounterCall.run, hmkdir]
    rfl
  rcases allocFreeBlock_spec hlive.firstDataBlock hlive.groups_pos
    (show (rootNode.entry.inode / inodesPerGroup).toNat = 0 from groupNum_toNat rfl) (by decide)
    (by rw [hlive.desc]; rfl) hlive.blockBitmap (by decide) with ⟨fs₂, hblock, -⟩
  have hstep₁ : CounterCall.step fs₁ (.block rootNode) = .ok fs₂ := by
    rw [CounterCall.step, CounterCall.run, hblock]
    rfl
  have hserved : BlockServed fs₁ rootNode :=
    (defined_allocFreeBlock_iff hlive.firstDataBlock hlive.groups_pos rootNode).mp ⟨_, hblock⟩
  exact ⟨_, fs₁, fs₂, hrep, hstep, hstep₁, replicas_kept (((Reachable.start hrep).call
    (refreshes_newFs h (by decide) [0x41]) hstep).call (i := .block rootNode) hserved hstep₁)⟩

theorem le_of_mem_fullSector {byte : UInt8} (h : byte ∈ (onesPrefix 512 4096).toList) :
    0xF0 ≤ byte := by
  rcases List.getElem_of_mem h with ⟨j, hj, rfl⟩
  rw [Vector.length_toList] at hj
  rw [Vector.getElem_toList, (onesPrefix_full_iff hj).mpr (by omega)]
  decide

section FullSector

variable {fs : Ext2Filesystem} {parent : Ext2Node} {k : Nat}
  (h0 : fs.spb.sFirstDataBlock = 0) (hpos : 1 ≤ fs.disk.groups)
  (hgroup : (parent.inodeNum / inodesPerGroup).toNat = k) (hk : k < 16)
  (hmap : fs.descs[k].bgInodeBitmap = 3) (hfull : fs.disk.content 24 = onesPrefix 512 4096)

include h0 hpos hgroup hk hmap hfull

-- The second sector of the inode bitmap is clear.
theorem allocFreeInode_second (hblocks : fs.descs[k].bgFreeBlocksCount ≠ 0)
    (hinodes : fs.descs[k].bgFreeInodesCount ≠ 0)
    (hclear : fs.disk.content 25 = onesPrefix 512 0) :
    ∃ fs', allocFreeInode fs parent = .ok (((0 : Nat) : Int), fs') := by
  have hfit := fs.disk.groups_fit
  have hnum : (UInt32.ofInt (k : Int)).toNat = k := ofInt_natCast_toNat (by omega)
  have haddr : ∀ i, i < 8 → (UInt32.ofNat i +
      allocInodeBitmapBlock (copyDesc fs.descs[k]) * sectorsPerBlock).toNat = 24 + i := by
    intro i hi
    rw [allocInodeBitmapBlock, copyDesc_bgInodeBitmap, hmap]
    exact sectorOfBlock_toNat (by decide) hi
  have hread : ∀ i buf, i < 8 → (fs.disk.readSector (UInt32.ofNat i +
      allocInodeBitmapBlock (copyDesc fs.descs[k]) * sectorsPerBlock) buf).2 =
        some (fs.disk.content (24 + i)) :=
    fun i buf hi ↦ DiskOperations.readSector_eq buf (haddr i hi) (by omega) rfl
  rcases (scanInodeBytes_full_iff _ 0 none).mpr (fun _ ↦ le_of_mem_fullSector) with
    ⟨offset, hscan⟩
  have hbits : setBit (onesPrefix 512 0) 0 = .ok (onesPrefix 512 1) := setBit_onesPrefix (by decide)
  rcases writeCounts_spec (fs.disk.writeSector (UInt32.ofNat 1 +
    allocInodeBitmapBlock (copyDesc fs.descs[k]) * sectorsPerBlock) (onesPrefix 512 1))
    (countInodeSb fs.spb) h0 (by rw [DiskOperations.groups_writeSector]; exact hpos) 1
    (onesPrefix 512 1) hnum hk countInode with ⟨fs', hcounts, -⟩
  refine ⟨fs', ?_⟩
  rw [allocFreeInode, findFreeGroup_eq h0 hpos hgroup hk hblocks hinodes, ok_bind]
  simp only [readDesc_of_lt fs h0 hpos hnum hk, determinate_some, ok_bind]
  change scanInodeBitmap _ _ _ _ _ (0 :: 1 :: [2, 3, 4, 5, 6, 7]) = _
  rw [scanInodeBitmap, hread 0 none (by decide), determinate_some, ok_bind, hfull, hscan]
  change scanInodeBitmap _ _ _ _ _ (1 :: [2, 3, 4, 5, 6, 7]) = _
  rw [scanInodeBitmap, hread 1 _ (by decide), determinate_some, ok_bind, hclear, onesPrefix,
    scanInodeBytes_leadingRuns (prefixRun_le 0) (show 0 < 512 by decide)
      (fun j hj ↦ absurd hj (by omega)) (by decide)]
  change takeInode _ _ _ _ (onesPrefix 512 0) _ _ = _
  have hrun : prefixRun 0 0 = 0 := rfl
  rw [takeInode, determinate_some, ok_bind, hrun]
  simp only [Nat.zero_mul, Nat.add_zero, hbits, ok_bind, hcounts]
  rfl

theorem not_inodeFirst (hclear : fs.disk.content 25 = onesPrefix 512 0) :
    ¬ InodeFirst fs parent := by
  have hfit := fs.disk.groups_fit
  have hread : ∀ i, i < 8 → (fs.disk.readSector (UInt32.ofNat i +
      (copyDesc fs.descs[k]).bgInodeBitmap * sectorsPerBlock) none).2 =
        some (fs.disk.content (24 + i)) := by
    intro i hi
    refine DiskOperations.readSector_eq none ?_ (by omega) rfl
    rw [copyDesc_bgInodeBitmap, hmap]
    exact sectorOfBlock_toNat (by decide) hi
  intro hfirst
  have hfree : HasFreeInode (onesPrefix 512 0) := by
    refine ⟨(onesPrefix 512 0)[0], ?_, ?_⟩
    · rw [Vector.mem_toList_iff]
      exact Vector.getElem_mem _
    · rw [getElem_onesPrefix (by decide)]
      decide
  rcases hfirst _ (readDesc_of_lt fs h0 hpos hgroup hk) 1 (by decide)
    ⟨_, hread 1 (by decide), hclear ▸ hfree⟩ with ⟨first, hsector, byte, hbyte, hlt⟩
  rw [hread 0 (by decide), Option.some.injEq, hfull] at hsector
  rw [← hsector] at hbyte
  exact UInt8.not_lt.mpr (le_of_mem_fullSector hbyte) hlt

end FullSector

/-- One group whose inode bitmap has a full first sector. -/
def fullSectorFs : Ext2Filesystem where
  spb := Ext2SuperBlock.zero
  disk := DiskOperations.ofContents 262144 fun x ↦
    if x = 0 then asSuperBlock.symm Ext2SuperBlock.zero
    else if x = 8 then asDescs.symm (Vector.replicate 16 newDesc)
    else if x = 24 then onesPrefix 512 4096
    else onesPrefix 512 0

theorem content_fullSectorFs (x : Nat) : fullSectorFs.disk.content x =
    if x = 0 then asSuperBlock.symm Ext2SuperBlock.zero
    else if x = 8 then asDescs.symm (Vector.replicate 16 newDesc)
    else if x = 24 then onesPrefix 512 4096
    else onesPrefix 512 0 := rfl

theorem replicated_fullSectorFs : Replicated fullSectorFs := by
  have hone : fullSectorFs.disk.groups = 1 := by decide
  refine ⟨⟨rfl, by omega, ?_⟩, ?_⟩
  · intro g hg
    obtain rfl : g = 0 := by omega
    rfl
  · intro g hg
    obtain rfl : g = 0 := by omega
    rfl

/-- The inode comes from the second sector, and the only copy of the superblock is not written. -/
theorem not_replicated_fullSectorFs : ∃ n fs', Replicated fullSectorFs ∧
    allocFreeInode fullSectorFs rootNode = .ok (n, fs') ∧ n ≠ ext2Error ∧ ¬ Replicated fs' := by
  have hrep := replicated_fullSectorFs
  have hdescs : fullSectorFs.descs = Vector.replicate 16 newDesc := by
    rw [Ext2Filesystem.descs, content_fullSectorFs, if_neg (by decide), if_pos rfl,
      Equiv.apply_symm_apply]
  have h24 : fullSectorFs.disk.content 24 = onesPrefix 512 4096 := by
    rw [content_fullSectorFs, if_neg (by decide), if_neg (by decide), if_pos rfl]
  have h25 : fullSectorFs.disk.content 25 = onesPrefix 512 0 := by
    rw [content_fullSectorFs, if_neg (by decide), if_neg (by decide), if_neg (by decide)]
  have hdesc : fullSectorFs.descs[0] = newDesc := by
    simp only [hdescs]
    exact Vector.getElem_replicate _
  have hmap : fullSectorFs.descs[0].bgInodeBitmap = 3 := by
    rw [hdesc]
    rfl
  have hgroup : (rootNode.inodeNum / inodesPerGroup).toNat = 0 := groupNum_toNat rfl
  rcases allocFreeInode_second (show fullSectorFs.spb.sFirstDataBlock = 0 from rfl)
    hrep.groups_pos hgroup (by decide) hmap h24
    (by rw [hdesc]; decide) (by rw [hdesc]; decide) h25 with ⟨fs', hrun⟩
  refine ⟨_, fs', hrep, hrun, natCast_ne_error 0, fun hnew ↦ ?_⟩
  exact not_inodeFirst rfl hrep.groups_pos hgroup (by decide) hmap h24 h25
    ((hrep.allocFreeInode_iff hrun).mp hnew)

end Ext2Fs
