import Ext2Fs.Properties.FreshMount
import Ext2Fs.Properties.InodeTable
import Ext2Fs.Spec.AllocSteps

/-!
# The inode allocator

Calls of `alloc_free_inode` for any nodes, from the formatted disk on.
-/

open Reasoning

namespace Ext2Fs

/-! ## What the calls return -/

/-- Inode `n` in the bitmap that the descriptor of its group designates. -/
def inodeBit (fs : Ext2Filesystem) (n : Nat) : Bool :=
  fs.disk.blockBit (fs.disk.storedDesc 0 (n / 1024)).bgInodeBitmap (n % 1024)

def InodesInUse (fs : Ext2Filesystem) : Prop :=
  ∀ n, n < 1024 * fs.disk.groups → inodeBit fs n = true

/-- A call for `parent` hands out inode `n` after the inodes of `taken`. -/
structure HandsOutInode (fs fs' : Ext2Filesystem) (parent : Ext2Node) (taken : List Nat) (n : Nat) :
    Prop where
  group : ∃ g : Nat, findFreeGroup fs parent = .ok (g : Int) ∧ g * 1024 ≤ n ∧ n < (g + 1) * 1024
  notReserved : fs.spb.sFirstIno.toNat ≤ n
  fresh : n ∉ taken
  clear : inodeBit fs n = false
  set : inodeBit fs' n = true

/-- Every call returns.  It either hands out an inode, or returns `EXT2_ERROR`, and this it does
only when all inodes are in use, and changes nothing. -/
def InodesServed : Ext2Filesystem → List Nat → List Ext2Node → Prop
  | _, _, [] => True
  | fs, taken, parent :: parents => ∃ n fs', allocFreeInode fs parent = .ok (n, fs') ∧
      (n = ext2Error → InodesInUse fs ∧ fs' = fs ∧ InodesServed fs taken parents) ∧
      (n ≠ ext2Error → ∃ m : Nat, n = m ∧ HandsOutInode fs fs' parent taken m ∧
        InodesServed fs' (m :: taken) parents)

def InodeAllocator (disk : DiskOperations) (parents : List Ext2Node) : Prop :=
  ∃ fs root, Mounted disk fs root ∧ InodesServed fs [] parents

theorem InodesServed.of_taken {fs fs' : Ext2Filesystem} {taken : List Nat} {parent : Ext2Node}
    {parents : List Ext2Node} {m : Nat}
    (hrun : allocFreeInode fs parent = .ok ((m : Int), fs')) :
    InodesServed fs taken (parent :: parents) ↔
      HandsOutInode fs fs' parent taken m ∧ InodesServed fs' (m :: taken) parents := by
  have hne := natCast_ne_error m
  constructor
  · intro h
    rcases h with ⟨n, fs₁, hrun₁, -, hserved⟩
    rw [hrun, Except.ok.injEq, Prod.mk.injEq] at hrun₁
    rcases hrun₁ with ⟨rfl, rfl⟩
    rcases hserved hne with ⟨m₁, hm, hout, hrest⟩
    rw [Int.natCast_inj] at hm
    subst hm
    exact ⟨hout, hrest⟩
  · intro h
    exact ⟨m, fs', hrun, fun herror ↦ absurd herror hne, fun _ ↦ ⟨m, rfl, h⟩⟩

-- A call that returns has found the parent's descriptor with inodes left.
theorem not_inodesServed {fs : Ext2Filesystem} (h0 : fs.spb.sFirstDataBlock = 0)
    (hpos : 1 ≤ fs.disk.groups) {parent : Ext2Node}
    (hfull : ∀ k, ∀ hk : k < 16, parent.inodeNum.toNat / 1024 = k →
      fs.descs[k].bgFreeInodesCount = 0) (taken : List Nat) (parents : List Ext2Node) :
    ¬ InodesServed fs taken (parent :: parents) := by
  intro h
  rcases h with ⟨n, fs', hrun, -⟩
  unfold allocFreeInode at hrun
  rcases bind_eq_ok.mp hrun with ⟨g, hgroup, -⟩
  rcases findFreeGroup_ok h0 hpos hgroup with ⟨k, hk, hnum, -, -, hinodes⟩
  refine hinodes (hfull k hk ?_)
  rw [← hnum, inodesPerGroup, UInt32.toNat_div]
  rfl

/-! ## Disks of at most sixteen groups -/

theorem nextInode_lt {k : Nat} (hk : k < 505) : nextInode k < 1024 := by
  have hat := inodeRun_at k
  unfold nextInode
  have hbyte : inodeByte k < 128 := by
    unfold inodeByte
    split <;> omega
  omega

theorem nextInode_505 : nextInode 505 = 1024 := by decide

theorem nextInode_ge (k : Nat) : 11 ≤ nextInode k :=
  nextInode_strictMono.monotone (Nat.zero_le k)

/-- The first `k` inodes are marked in the bitmap that all groups share. -/
structure InodesTaken (disk : DiskOperations) (fs : Ext2Filesystem) (k : Nat) : Prop where
  firstDataBlock : fs.spb.sFirstDataBlock = 0
  firstIno : fs.spb.sFirstIno = 11
  sectors_eq : fs.disk.numberOfSectors = disk.numberOfSectors
  inodeMaps : ∀ g, ∀ hg : g < 16, g < disk.groups → fs.descs[g].bgInodeBitmap = 3
  freeBlocks : ∀ g, ∀ hg : g < 16, g < disk.groups → fs.descs[g].bgFreeBlocksCount ≠ 0
  freeInodes : ∀ g, ∀ hg : g < 16, g < disk.groups →
    1014 - k ≤ fs.descs[g].bgFreeInodesCount.toNat
  noGroup : ∀ g, ∀ hg : g < 16, disk.groups ≤ g → fs.descs[g].bgFreeInodesCount = 0
  bits : fs.disk.content 24 = leadingRuns 512 (inodeRun k)

namespace InodesTaken

variable {disk : DiskOperations} {fs : Ext2Filesystem} {k g : Nat} {parent : Ext2Node}
  (h : InodesTaken disk fs k)

include h

theorem groups_eq : fs.disk.groups = disk.groups := groups_congr h.sectors_eq

theorem inodeBit_eq {n : Nat} (hg : n / 1024 < disk.groups) (hfew : n / 1024 < 16) :
    inodeBit fs n = decide (n % 1024 % 8 < inodeRun k (n % 1024 / 8)) := by
  have hsector : ((3 : UInt32) * sectorsPerBlock).toNat + n % 1024 / 4096 = 24 := by
    rw [show ((3 : UInt32) * sectorsPerBlock).toNat = 24 from rfl]
    omega
  rw [inodeBit, storedDesc_zero fs hfew, h.inodeMaps _ hfew hg, DiskOperations.blockBit, hsector,
    h.bits, Nat.mod_eq_of_lt (show n % 1024 < 4096 by omega),
    bitAt_leadingRuns (by omega) (inodeRun_le _ _)]

theorem findFreeGroup_parent (hgroup : parent.inodeNum.toNat / 1024 = g) (hg : g < disk.groups)
    (hfew : g < 16) (hk : k < 1014) : findFreeGroup fs parent = .ok (g : Int) := by
  have hgroups := h.groups_eq
  have hfree := h.freeInodes g hfew hg
  refine findFreeGroup_eq h.firstDataBlock (by omega) (groupNum_toNat hgroup) hfew
    (h.freeBlocks g hfew hg) (fun hzero ↦ ?_)
  rw [hzero, UInt16.toNat_zero] at hfree
  omega

-- A call for a node of any group marks the next inode.
theorem step (hgroup : parent.inodeNum.toNat / 1024 = g) (hg : g < disk.groups) (hfew : g < 16)
    (hk : k ≤ 505) :
    ∃ fs', allocFreeInode fs parent = .ok ((nextInode k : Int), fs') ∧
      InodesTaken disk fs' (k + 1) := by
  have hgroups := h.groups_eq
  have hnum := groupNum_toNat hgroup
  have hfree := h.freeInodes g hfew hg
  have hinodes : fs.descs[g].bgFreeInodesCount ≠ 0 := by
    intro hzero
    rw [hzero, UInt16.toNat_zero] at hfree
    omega
  have hstop : inodeByte k < 512 := by
    unfold inodeByte
    split <;> omega
  rcases allocFreeInode_spec h.firstDataBlock (show 1 ≤ fs.disk.groups by omega) hnum hfew
    (h.freeBlocks g hfew hg) hinodes (h.inodeMaps g hfew hg) h.bits (inodeRun_le k) hstop
    (fun j hj ↦ inodeRun_before hj) (inodeRun_at k) with ⟨fs', hrun, hspb, hn, hc⟩
  have hc8 := hc 8
  rw [if_neg (by decide)] at hc8
  have hdescs : ∀ i, ∀ hi : i < 16,
      fs'.descs[i] = if g = i then countInode fs.descs[i] else fs.descs[i] :=
    fun i hi ↦ descs_of_counted hfew (by omega) hc8 hi
  refine ⟨fs', hrun, ?_⟩
  constructor
  case firstDataBlock =>
    rw [hspb]
    exact h.firstDataBlock
  case firstIno =>
    rw [hspb]
    exact h.firstIno
  case sectors_eq => rw [hn, h.sectors_eq]
  case inodeMaps =>
    intro i hi hig
    rw [field_of_counted hdescs (·.bgInodeBitmap) (fun _ ↦ rfl) hi]
    exact h.inodeMaps i hi hig
  case freeBlocks =>
    intro i hi hig
    rw [field_of_counted hdescs (·.bgFreeBlocksCount) (fun _ ↦ rfl) hi]
    exact h.freeBlocks i hi hig
  case freeInodes =>
    intro i hi hig
    have hcount := h.freeInodes i hi hig
    rw [hdescs i hi]
    split
    · have hpred := toNat_pred16 (show 0 < fs.descs[i].bgFreeInodesCount.toNat by omega)
      change 1014 - (k + 1) ≤ (fs.descs[i].bgFreeInodesCount - 1).toNat
      omega
    · omega
  case noGroup =>
    intro i hi hig
    rw [hdescs i hi, if_neg (by omega)]
    exact h.noGroup i hi hig
  case bits => rw [hc, if_pos rfl, inodeRun_succ]

-- The number that is handed out is a clear bit of group 0, as long as it is one of its inodes.
theorem handsOut {fs' : Ext2Filesystem} (hpos : 1 ≤ disk.groups) (h' : InodesTaken disk fs' (k + 1))
    (hgroup : parent.inodeNum.toNat / 1024 = 0) (hk : k < 505) {taken : List Nat}
    (htaken : ∀ n ∈ taken, n < nextInode k) :
    HandsOutInode fs fs' parent taken (nextInode k) := by
  have hlt := nextInode_lt hk
  have hat := inodeRun_at k
  have hzero : nextInode k / 1024 = 0 := Nat.div_eq_of_lt hlt
  have hself : nextInode k % 1024 = nextInode k := Nat.mod_eq_of_lt hlt
  have hbyte : nextInode k / 8 = inodeByte k := by
    unfold nextInode
    omega
  have hbit : nextInode k % 8 = inodeRun k (inodeByte k) := by
    unfold nextInode
    omega
  constructor
  case group =>
    have hfind := h.findFreeGroup_parent hgroup hpos (by decide) (by omega)
    exact ⟨0, hfind, by omega, by omega⟩
  case notReserved =>
    rw [h.firstIno]
    exact nextInode_ge k
  case fresh => exact fun hmem ↦ Nat.lt_irrefl _ (htaken _ hmem)
  case clear =>
    rw [h.inodeBit_eq (by omega) (by omega), hself, hbyte, hbit]
    exact decide_eq_false (Nat.lt_irrefl _)
  case set =>
    rw [h'.inodeBit_eq (by omega) (by omega), hself, hbyte, hbit, ← inodeRun_succ,
      Function.update_self]
    exact decide_eq_true (Nat.lt_succ_self _)

-- No number that is handed out for another group is a free inode of that group.
theorem not_handsOut {fs' : Ext2Filesystem} (hgroup : parent.inodeNum.toNat / 1024 = g)
    (hg : g < disk.groups) (hfew : g < 16) (hk : k ≤ 505) (hout : g ≠ 0 ∨ k = 505)
    (taken : List Nat) : ¬ HandsOutInode fs fs' parent taken (nextInode k) := by
  intro hands
  rcases hands.group with ⟨g', hfind, hlo, hhi⟩
  rw [h.findFreeGroup_parent hgroup hg hfew (by omega), Except.ok.injEq, Int.natCast_inj] at hfind
  subst hfind
  have hle : k = 505 := by
    by_contra hne
    have hlt := nextInode_lt (show k < 505 by omega)
    omega
  subst hle
  -- bit 0 of group 1 is one of the reserved inodes
  have hclear := hands.clear
  rw [nextInode_505] at hlo hhi hclear
  rw [h.inodeBit_eq (by omega) (by omega)] at hclear
  exact absurd hclear (by decide)

-- The calls are served for the inodes of group 0, as far as these go.
theorem served_iff (hpos : 1 ≤ disk.groups) (hfew : disk.groups ≤ 16) (hk : k ≤ 505)
    {taken : List Nat} (htaken : ∀ n ∈ taken, n < nextInode k) (parents : List Ext2Node) :
    InodesServed fs taken parents ↔
      (∀ p ∈ parents, p.inodeNum.toNat / 1024 = 0) ∧ k + parents.length ≤ 505 := by
  induction parents generalizing fs k taken with
  | nil => exact iff_of_true trivial ⟨fun p hp ↦ absurd hp List.not_mem_nil, hk⟩
  | cons parent parents ih =>
    rw [List.forall_mem_cons, List.length_cons]
    have hgroups := h.groups_eq
    by_cases hg : parent.inodeNum.toNat / 1024 < disk.groups
    · rcases h.step rfl hg (by omega) hk with ⟨fs', hrun, h'⟩
      rw [InodesServed.of_taken hrun]
      by_cases hin : parent.inodeNum.toNat / 1024 = 0 ∧ k < 505
      · have htaken' : ∀ n ∈ nextInode k :: taken, n < nextInode (k + 1) := by
          intro n hn
          have hnext := nextInode_strictMono (Nat.lt_succ_self k)
          rcases List.mem_cons.mp hn with rfl | hn
          · exact hnext
          · exact Nat.lt_trans (htaken n hn) hnext
        have hout := h.handsOut hpos h' hin.1 hin.2 htaken
        rw [ih h' (by omega) htaken']
        constructor
        · intro hall
          exact ⟨⟨hin.1, hall.2.1⟩, by omega⟩
        · intro hall
          exact ⟨hout, hall.1.2, by omega⟩
      · refine iff_of_false (fun hserved ↦ ?_) (fun hall ↦ hin ⟨hall.1.1, by omega⟩)
        exact h.not_handsOut rfl hg (by omega) hk (by omega) taken hserved.1
    · refine iff_of_false (not_inodesServed h.firstDataBlock (by omega) ?_ taken parents)
        (fun hall ↦ hg (by omega))
      intro i hi hnum
      exact h.noGroup i hi (by omega)

end InodesTaken

section Runs

variable {disk disk' : DiskOperations} {parents : List Ext2Node}

theorem inodesTaken_newFs (h : Formatted disk disk') (hpos : 1 ≤ disk.groups) :
    InodesTaken disk (newFs disk disk') 0 := by
  constructor
  case firstDataBlock => rfl
  case firstIno => rfl
  case sectors_eq => exact h.sectors_eq
  case inodeMaps => exact fun g hg hgr ↦ newFs_field h hpos (·.bgInodeBitmap) rfl hg hgr
  case freeBlocks =>
    intro g hg hgr
    rw [newFs_desc h hpos hg]
    split
    · decide
    · decide
  case freeInodes =>
    intro g hg hgr
    rw [newFs_field h hpos (·.bgFreeInodesCount) rfl hg hgr]
    decide
  case noGroup =>
    intro g hg hgr
    rw [newFs_desc h hpos hg, if_neg (by omega), if_neg (by omega)]
    rfl
  case bits => exact h.inodeBitmap.trans inodeRun_zero.symm

/-- The calls are served on disks of at most sixteen groups, for nodes of group 0, until the upper
halves of its bitmap's bytes are full. -/
theorem inodeAllocator_iff (hpos : 1 ≤ disk.groups) :
    InodeAllocator disk parents ↔ parents = [] ∨
      (disk.groups ≤ 16 ∧ (∀ p ∈ parents, p.inodeNum.toNat / 1024 = 0) ∧ parents.length ≤ 505) := by
  by_cases hfew : disk.groups ≤ 16
  · rcases exists_mounted hpos hfew with ⟨disk', h, hmount⟩
    have hiff := (inodesTaken_newFs h hpos).served_iff hpos hfew (by decide)
      (show ∀ n ∈ ([] : List Nat), n < _ by simp) parents
    rw [Nat.zero_add] at hiff
    constructor
    · intro halloc
      rcases halloc with ⟨fs, root, hmount', hserved⟩
      rcases mounted_unique hmount' hmount with ⟨rfl, -⟩
      exact Or.inr ⟨hfew, hiff.mp hserved⟩
    · intro hall
      refine ⟨_, _, hmount, hiff.mpr ?_⟩
      rcases hall with rfl | hall
      · exact ⟨fun p hp ↦ absurd hp List.not_mem_nil, by decide⟩
      · exact hall.2
  · rcases exists_mounted_large (Nat.lt_of_not_le hfew) with ⟨disk', count, h, -, hmount⟩
    cases parents with
    | nil => exact iff_of_true ⟨_, _, hmount, trivial⟩ (Or.inl rfl)
    | cons parent parents =>
      refine iff_of_false ?_ (by simp [hfew])
      intro halloc
      rcases halloc with ⟨fs, root, hmount', hserved⟩
      rcases mounted_unique hmount' hmount with ⟨rfl, -⟩
      have hgroups : (largeFs disk disk' count).disk.groups = disk.groups :=
        groups_congr h.sectors_eq
      refine not_inodesServed rfl (by omega) ?_ [] parents hserved
      intro k hk _
      rw [largeFs_desc h hpos hk]
      split <;> rfl

theorem inodeAllocator_iff_zeroedDisk :
    InodeAllocator (zeroedDisk 262144) [rootNode, rootNode] ↔ [rootNode, rootNode] = [] ∨
      ((zeroedDisk 262144).groups ≤ 16 ∧
        (∀ p ∈ [rootNode, rootNode], p.inodeNum.toNat / 1024 = 0) ∧
        [rootNode, rootNode].length ≤ 505) :=
  inodeAllocator_iff (by decide)

/-- On a disk of one group call 506 returns 1024, though half of the group's inodes are free. -/
theorem not_inodeAllocator :
    ¬ InodeAllocator (zeroedDisk 262144) (List.replicate 506 rootNode) := by
  rcases @exists_mounted (zeroedDisk 262144) (by decide) (by decide) with ⟨disk', h, hmount⟩
  intro halloc
  rcases halloc with ⟨fs, root, hmount', hserved⟩
  rcases mounted_unique hmount' hmount with ⟨rfl, -⟩
  have hlen := (((inodesTaken_newFs h (by decide)).served_iff (by decide) (by decide) (by decide)
    (show ∀ n ∈ ([] : List Nat), n < _ by simp) _).mp hserved).2
  rw [List.length_replicate] at hlen
  exact absurd hlen (by decide)

end Runs

end Ext2Fs
