import Ext2Fs.Properties.FreshMount
import Ext2Fs.Properties.InodeTable
import Ext2Fs.Spec.AllocSteps

/-!
# The block allocator

Calls of `alloc_free_block` for the nodes of one group, from the formatted disk on.
-/

open Reasoning

namespace Ext2Fs

/-! ## What the calls return -/

section Statement

variable (fs : Ext2Filesystem) (g : Nat)

/-- Bit `m` of the block bitmap that the descriptor of group `g` designates. -/
def groupBit (m : Nat) : Bool := fs.disk.blockBit (fs.disk.storedDesc 0 g).bgBlockBitmap m

def GroupFull : Prop := ∀ m, m < 32768 → groupBit fs g m = true

/-- The blocks of the superblock, the descriptors, the bitmaps, the inode table and the root
directory. -/
def Reserved (m : Nat) : Prop :=
  m < 1 + (descBlockCount fs.disk.groupCount).toNat ∨
  m = (fs.disk.storedDesc 0 g).bgBlockBitmap.toNat ∨
  m = (fs.disk.storedDesc 0 g).bgInodeBitmap.toNat ∨
  ((fs.disk.storedDesc 0 g).bgInodeTable.toNat ≤ m ∧
    m < (fs.disk.storedDesc 0 g).bgInodeTable.toNat + (inodeTableBlocks fs.spb).toNat) ∨
  m = (firstDirBlock fs).toNat

end Statement

/-- A call hands out block `m` after the blocks of `taken`. -/
structure HandsOut (g : Nat) (fs fs' : Ext2Filesystem) (taken : List Nat) (m : Nat) : Prop where
  lt : m < 32768
  fresh : m ∉ taken
  notReserved : ¬ Reserved fs g m
  clear : groupBit fs g m = false
  set : groupBit fs' g m = true

/-- Every call returns.  It either hands out a block, or changes nothing and returns `EXT2_ERROR`,
and this it does exactly when all bits of the group are set. -/
def BlocksServed (g : Nat) : Ext2Filesystem → List Nat → List Ext2Node → Prop
  | _, _, [] => True
  | fs, taken, parent :: parents => ∃ n fs', allocFreeBlock fs parent = .ok (n, fs') ∧
      (n = ext2Error ↔ GroupFull fs g) ∧
      (n = ext2Error → fs' = fs ∧ BlocksServed g fs taken parents) ∧
      (n ≠ ext2Error → ∃ m : Nat, n = m ∧ HandsOut g fs fs' taken m ∧
        BlocksServed g fs' (m :: taken) parents)

def BlockAllocator (disk : DiskOperations) (g : Nat) (parents : List Ext2Node) : Prop :=
  ∃ fs root, Mounted disk fs root ∧ BlocksServed g fs [] parents

theorem BlocksServed.of_taken {g : Nat} {fs fs' : Ext2Filesystem} {taken : List Nat}
    {parent : Ext2Node} {parents : List Ext2Node} {m : Nat}
    (hrun : allocFreeBlock fs parent = .ok ((m : Int), fs')) :
    BlocksServed g fs taken (parent :: parents) ↔
      ¬ GroupFull fs g ∧ HandsOut g fs fs' taken m ∧ BlocksServed g fs' (m :: taken) parents := by
  have hne := natCast_ne_error m
  constructor
  · intro h
    rcases h with ⟨n, fs₁, hrun₁, hfull, -, hserved⟩
    rw [hrun, Except.ok.injEq, Prod.mk.injEq] at hrun₁
    rcases hrun₁ with ⟨rfl, rfl⟩
    rcases hserved hne with ⟨m₁, hm, hout, hrest⟩
    rw [Int.natCast_inj] at hm
    subst hm
    exact ⟨fun h ↦ hne (hfull.mpr h), hout, hrest⟩
  · intro h
    rcases h with ⟨hfull, hout, hrest⟩
    exact ⟨m, fs', hrun, iff_of_false hne hfull, fun h ↦ absurd h hne,
      fun _ ↦ ⟨m, rfl, hout, hrest⟩⟩

theorem not_blocksServed_error {g : Nat} {fs : Ext2Filesystem} {taken : List Nat}
    {parent : Ext2Node} {parents : List Ext2Node} {e : Undefined}
    (hrun : allocFreeBlock fs parent = .error e) :
    ¬ BlocksServed g fs taken (parent :: parents) := by
  intro h
  rcases h with ⟨n, fs₁, hrun₁, -⟩
  rw [hrun] at hrun₁
  cases hrun₁

/-! ## Disks of at most sixteen groups -/

/-- The first `m` blocks are marked in the bitmap that all groups share. -/
structure BlocksTaken (disk : DiskOperations) (fs : Ext2Filesystem) (m : Nat) : Prop where
  firstDataBlock : fs.spb.sFirstDataBlock = 0
  inodesPerGroup : fs.spb.sInodesPerGroup = 1024
  sectors_eq : fs.disk.numberOfSectors = disk.numberOfSectors
  blockMaps : ∀ g, ∀ hg : g < 16, g < disk.groups → fs.descs[g].bgBlockBitmap = 2
  inodeMaps : ∀ g, ∀ hg : g < 16, g < disk.groups → fs.descs[g].bgInodeBitmap = 3
  tables : ∀ g, ∀ hg : g < 16, g < disk.groups → fs.descs[g].bgInodeTable = 4
  bits : fs.disk.content 16 = onesPrefix 512 m
  bitsRest : ∀ x, 16 < x → x < 24 → fs.disk.content x = zeroSector

namespace BlocksTaken

variable {disk : DiskOperations} {fs : Ext2Filesystem} {m g : Nat}
  (h : BlocksTaken disk fs m) (hpos : 1 ≤ disk.groups)

include h

theorem groups_eq : fs.disk.groups = disk.groups := groups_congr h.sectors_eq

theorem groupBit_eq (hm : m ≤ 4096) (hg : g < disk.groups) (hfew : g < 16) {k : Nat}
    (hk : k < 32768) : groupBit fs g k = decide (k < m) := by
  rw [groupBit, storedDesc_zero fs hfew, h.blockMaps g hfew hg,
    blockBit_prefix h.bits h.bitsRest hm hk]

theorem not_full (hm : m ≤ 4096) (hg : g < disk.groups) (hfew : g < 16) : ¬ GroupFull fs g := by
  intro hfull
  have hlast := hfull 32767 (by decide)
  rw [h.groupBit_eq hm hg hfew (by decide), decide_eq_true_eq] at hlast
  omega

include hpos

theorem firstDirBlock_eq : firstDirBlock fs = 36 := by
  rw [firstDirBlock, storedDesc_zero fs (by decide), h.tables 0 (by decide) hpos,
    inodeTableBlocks_eq h.inodesPerGroup]
  rfl

-- Everything reserved lies below the blocks that are handed out.
theorem lt_of_reserved (hg : g < disk.groups) (hfew : g < 16) {k : Nat} (hres : Reserved fs g k) :
    k < 37 := by
  have hgroups := h.groups_eq
  have hdesc : descBlockCount fs.disk.groupCount = 1 :=
    descBlockCount_eq (show 1 ≤ fs.disk.groups by omega) fs.disk.groups_le
  unfold Reserved at hres
  rw [storedDesc_zero fs hfew, h.blockMaps g hfew hg, h.inodeMaps g hfew hg, h.tables g hfew hg,
    hdesc, h.firstDirBlock_eq hpos, inodeTableBlocks_eq h.inodesPerGroup] at hres
  simp at hres
  omega

-- A call for a node of any group marks the next block.
theorem step {parent : Ext2Node} (hgroup : parent.entry.inode.toNat / 1024 = g)
    (hg : g < disk.groups) (hfew : g < 16) (hm : m < 4096) :
    ∃ fs', allocFreeBlock fs parent = .ok ((m : Int), fs') ∧ BlocksTaken disk fs' (m + 1) := by
  have hgroups := h.groups_eq
  have hnum := groupNum_toNat hgroup
  rcases allocFreeBlock_spec h.firstDataBlock (show 1 ≤ fs.disk.groups by omega) hnum hfew
    (h.blockMaps g hfew hg) h.bits hm with ⟨fs', hrun, hspb, hn, hc⟩
  have hc8 := hc 8
  rw [if_neg (by decide)] at hc8
  have hdescs : ∀ k, ∀ hk : k < 16,
      fs'.descs[k] = if g = k then countBlock fs.descs[k] else fs.descs[k] :=
    fun k hk ↦ descs_of_counted hfew (by omega) hc8 hk
  refine ⟨fs', hrun, ?_⟩
  constructor
  case firstDataBlock =>
    rw [hspb]
    exact h.firstDataBlock
  case inodesPerGroup =>
    rw [hspb]
    exact h.inodesPerGroup
  case sectors_eq => rw [hn, h.sectors_eq]
  case blockMaps =>
    intro k hk hkg
    rw [field_of_counted hdescs (·.bgBlockBitmap) (fun _ ↦ rfl) hk]
    exact h.blockMaps k hk hkg
  case inodeMaps =>
    intro k hk hkg
    rw [field_of_counted hdescs (·.bgInodeBitmap) (fun _ ↦ rfl) hk]
    exact h.inodeMaps k hk hkg
  case tables =>
    intro k hk hkg
    rw [field_of_counted hdescs (·.bgInodeTable) (fun _ ↦ rfl) hk]
    exact h.tables k hk hkg
  case bits => rw [hc, if_pos rfl]
  case bitsRest =>
    intro x hlo hhi
    rw [hc, if_neg (by omega), countedContent, if_neg (by omega), if_neg (by omega),
      h.bitsRest x hlo hhi]

-- The calls are served until the first sector of the bitmap is full.
theorem served_iff (hg : g < disk.groups) (hfew : g < 16) (hlo : 37 ≤ m) (hm : m ≤ 4096)
    {taken : List Nat} (htaken : ∀ k ∈ taken, k < m) (parents : List Ext2Node)
    (hparents : ∀ p ∈ parents, p.entry.inode.toNat / 1024 = g) :
    BlocksServed g fs taken parents ↔ m + parents.length ≤ 4096 := by
  induction parents generalizing fs m taken with
  | nil => exact iff_of_true trivial hm
  | cons parent parents ih =>
    have hgroup := hparents parent List.mem_cons_self
    have hrest : ∀ p ∈ parents, p.entry.inode.toNat / 1024 = g :=
      fun p hp ↦ hparents p (List.mem_cons_of_mem parent hp)
    rw [List.length_cons]
    by_cases hfull : m = 4096
    · have hgroups := h.groups_eq
      have hbits := h.bits
      rw [hfull] at hbits
      have herror := allocFreeBlock_full h.firstDataBlock (show 1 ≤ fs.disk.groups by omega)
        (groupNum_toNat hgroup) hfew
        (h.blockMaps g hfew hg) hbits (h.bitsRest 17 (by decide) (by decide))
      exact iff_of_false (not_blocksServed_error herror) (by omega)
    · rcases h.step hpos hgroup hg hfew (by omega) with ⟨fs', hrun, h'⟩
      have htaken' : ∀ k ∈ m :: taken, k < m + 1 := by
        intro k hk
        rcases List.mem_cons.mp hk with rfl | hk
        · exact Nat.lt_succ_self k
        · exact Nat.lt_succ_of_lt (htaken k hk)
      have hout : HandsOut g fs fs' taken m := by
        constructor
        case lt => omega
        case fresh => exact fun hmem ↦ Nat.lt_irrefl m (htaken m hmem)
        case notReserved =>
          intro hres
          have hlt := h.lt_of_reserved hpos hg hfew hres
          omega
        case clear => rw [h.groupBit_eq hm hg hfew (by omega), decide_eq_false (Nat.lt_irrefl m)]
        case set =>
          rw [h'.groupBit_eq (by omega) hg hfew (by omega), decide_eq_true (Nat.lt_succ_self m)]
      rw [BlocksServed.of_taken hrun, ih h' (by omega) (by omega) htaken' hrest]
      constructor
      · intro hall
        have hlen := hall.2.2
        omega
      · intro hlen
        exact ⟨h.not_full hm hg hfew, hout, by omega⟩

end BlocksTaken

section Runs

variable {disk disk' : DiskOperations} {g : Nat} {parents : List Ext2Node}

theorem blocksTaken_newFs (h : Formatted disk disk') (hpos : 1 ≤ disk.groups) :
    BlocksTaken disk (newFs disk disk') 37 := by
  constructor
  case firstDataBlock => rfl
  case inodesPerGroup => rfl
  case sectors_eq => exact h.sectors_eq
  case blockMaps => exact fun g hg hgr ↦ newFs_field h hpos (·.bgBlockBitmap) rfl hg hgr
  case inodeMaps => exact fun g hg hgr ↦ newFs_field h hpos (·.bgInodeBitmap) rfl hg hgr
  case tables => exact fun g hg hgr ↦ newFs_field h hpos (·.bgInodeTable) rfl hg hgr
  case bits => exact h.blockBitmap
  case bitsRest => exact h.blockBitmapRest

-- Past sixteen groups the bitmap is looked for at block 0: the first call returns the block of the
-- superblock.
theorem not_blocksServed_large {count : UInt32} (h : FormattedLarge disk disk')
    (hmany : 16 < disk.groups)
    (hsb : disk'.content 0 = asSuperBlock.symm (largeFs disk disk' count).spb) {parent : Ext2Node}
    (hgroup : parent.entry.inode.toNat / 1024 = g) (taken : List Nat) (parents : List Ext2Node) :
    ¬ BlocksServed g (largeFs disk disk' count) taken (parent :: parents) := by
  have hgroups : (largeFs disk disk' count).disk.groups = disk.groups := groups_congr h.sectors_eq
  by_cases hk : g < 16
  · have hmap : (largeFs disk disk' count).descs[g].bgBlockBitmap = 0 := by
      rw [largeFs_desc h (by omega) hk]
      split <;> rfl
    rcases allocFreeBlock_spec_zero
      (show (largeFs disk disk' count).spb.sFirstDataBlock = 0 from rfl) (by omega)
      (groupNum_toNat hgroup) hk hmap (largeFs_superBlock_byte hsb) with ⟨fs', hrun, -⟩
    intro hserved
    rw [BlocksServed.of_taken hrun] at hserved
    exact hserved.2.1.notReserved (Or.inl (by omega))
  · exact not_blocksServed_error (allocFreeBlock_of_ge _ (by omega))

/-- The calls are served on disks of at most sixteen groups, and there until the first sector of the
bitmap is full. -/
theorem blockAllocator_iff (hg : g < disk.groups)
    (hparents : ∀ p ∈ parents, p.entry.inode.toNat / 1024 = g) :
    BlockAllocator disk g parents ↔
      parents = [] ∨ (disk.groups ≤ 16 ∧ parents.length ≤ 4059) := by
  by_cases hfew : disk.groups ≤ 16
  · have hpos : 1 ≤ disk.groups := by omega
    rcases exists_mounted hpos hfew with ⟨disk', h, hmount⟩
    have hiff := (blocksTaken_newFs h hpos).served_iff hpos hg (by omega) (by decide) (by decide)
      (show ∀ k ∈ ([] : List Nat), k < _ by simp) parents hparents
    constructor
    · intro halloc
      rcases halloc with ⟨fs, root, hmount', hserved⟩
      rcases mounted_unique hmount' hmount with ⟨rfl, -⟩
      have hlen := hiff.mp hserved
      exact Or.inr ⟨hfew, by omega⟩
    · intro hlen
      refine ⟨_, _, hmount, hiff.mpr ?_⟩
      rcases hlen with rfl | hlen
      · decide
      · omega
  · rcases exists_mounted_large (Nat.lt_of_not_le hfew) with ⟨disk', count, h, hsb, hmount⟩
    cases parents with
    | nil => exact iff_of_true ⟨_, _, hmount, trivial⟩ (Or.inl rfl)
    | cons parent parents =>
      refine iff_of_false ?_ (by simp [hfew])
      intro halloc
      rcases halloc with ⟨fs, root, hmount', hserved⟩
      rcases mounted_unique hmount' hmount with ⟨rfl, -⟩
      exact not_blocksServed_large h (Nat.lt_of_not_le hfew) hsb
        (hparents parent List.mem_cons_self) [] parents hserved

theorem blockAllocator_iff_zeroedDisk :
    BlockAllocator (zeroedDisk 524288) 1 [{ rootNode with entry := dirEntry 1024 dotName }] ↔
      [{ rootNode with entry := dirEntry 1024 dotName }] = [] ∨
        ((zeroedDisk 524288).groups ≤ 16 ∧
          [{ rootNode with entry := dirEntry 1024 dotName }].length ≤ 4059) :=
  blockAllocator_iff (by decide) (by decide)

/-- On a disk of one group the call after block 4095 marks a bit behind the sector buffer. -/
theorem not_blockAllocator :
    (∀ p ∈ List.replicate 4060 rootNode, p.entry.inode.toNat / 1024 = 0) ∧
      ¬ BlockAllocator (zeroedDisk 262144) 0 (List.replicate 4060 rootNode) := by
  have hroot : ∀ p ∈ List.replicate 4060 rootNode, p.entry.inode.toNat / 1024 = 0 := by
    intro p hp
    rw [List.eq_of_mem_replicate hp]
    rfl
  rcases @exists_mounted (zeroedDisk 262144) (by decide) (by decide) with
    ⟨disk', h, hmount⟩
  refine ⟨hroot, fun halloc ↦ ?_⟩
  rcases halloc with ⟨fs, root, hmount', hserved⟩
  rcases mounted_unique hmount' hmount with ⟨rfl, -⟩
  have hlen := ((blocksTaken_newFs h (by decide)).served_iff (by decide) (by decide) (by decide)
    (by decide) (by decide) (show ∀ k ∈ ([] : List Nat), k < _ by simp) _ hroot).mp hserved
  rw [List.length_replicate] at hlen
  exact absurd hlen (by decide)

end Runs

end Ext2Fs
