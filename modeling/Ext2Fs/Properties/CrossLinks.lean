import Ext2Fs.Properties.NewDirectory

/-!
# Whose block is it

The root and every inode that a call returned should have a slot of the inode table that was filled
in, and blocks of their own.
-/

open Reasoning

namespace Ext2Fs

/-! ## Slots and their blocks -/

/-- The block numbers in the first `i_blocks` pointers. -/
def Ext2Inode.listed (entry : Ext2Inode) : List UInt32 :=
  entry.iBlock.toList.take entry.iBlocks.toNat

/-- The fields of a directory (`create_root` marks the root in its own way), and of a new file. -/
def Ext2Inode.Initialised (entry : Ext2Inode) : DirOp → Prop
  | .mkdir => (entry.iMode = attrDirectory ∨ entry.iMode = attrVolumeId) ∧ entry.iBlocks = 1
  | .create => entry.iMode = attrArchive ∧ entry.iBlocks = 0 ∧ entry.iSize = 0

def listedBlocks (fs : Ext2Filesystem) (n : UInt32) : List UInt32 :=
  (tableSlot fs n).elim [] Ext2Inode.listed

/-- The block is one of a group of the disk, behind the inode table. -/
def InDataArea (fs : Ext2Filesystem) (block : UInt32) : Prop :=
  (block / blockPerGroup).toNat < fs.disk.groups ∧
  ∃ desc, readDesc fs (block / blockPerGroup) = some desc ∧
    desc.bgInodeTable + inodesPerGroup * 128 / blockSizeInBytes ≤ block % blockPerGroup

namespace Session

/-- The live inodes, and what made them. -/
def inodes (s : Session) : List (DirOp × UInt32) :=
  (.mkdir, s.root.entry.inode) :: s.made.map fun m ↦ (m.op, m.node.entry.inode)

theorem inodes_append (s : Session) (fs : Ext2Filesystem) (m : Made) :
    Session.inodes { s with fs := fs, made := s.made ++ [m] } =
      s.inodes ++ [(m.op, m.node.entry.inode)] := by
  simp only [Session.inodes, List.map_append, List.map_singleton, List.cons_append]

structure NoCrossLinks (s : Session) : Prop where
  initialised : ∀ p ∈ s.inodes, ∃ entry, tableSlot s.fs p.2 = some entry ∧ entry.Initialised p.1
  owned : ∀ p ∈ s.inodes, ∀ block ∈ listedBlocks s.fs p.2,
    blockUsed s.fs block = some true ∧ InDataArea s.fs block
  separate : ∀ p ∈ s.inodes, ∀ q ∈ s.inodes, p.2 ≠ q.2 →
    List.Disjoint (listedBlocks s.fs p.2) (listedBlocks s.fs q.2)

/-- The slot of the next inode is one that a call leaves filled.  `insert_inode` finds it in the first
block of the table only; `ext2_create` takes the slot as it is. -/
def SlotPrepared (s : Session) : DirOp → Prop
  | .mkdir => nextInode s.made.length < 32
  | .create => ∃ entry, tableSlot s.fs (UInt32.ofNat (nextInode s.made.length)) = some entry ∧
      entry.Initialised .create

/-- The calls that leave a filled slot behind, if they succeed. -/
def Prepared (s : Session) (c : Call) : Prop :=
  s.Knows c ∧ ((∃ s', s.call c = .ok s' ∧ s' ≠ s) → s.SlotPrepared c.op)

end Session

section Slots

variable {fs : Ext2Filesystem} {n : UInt32} {entry : Ext2Inode}

theorem Ext2Inode.listed_one (h : entry.iBlocks = 1) :
    entry.listed = [getElem entry.iBlock 0 pointer_lt] := by
  rw [Ext2Inode.listed, h, show (1 : UInt32).toNat = 0 + 1 from rfl,
    List.take_succ_eq_append_getElem (by simp), List.take_zero, List.nil_append,
    Vector.getElem_toList]

theorem Ext2Inode.listed_zero (h : entry.iBlocks = 0) : entry.listed = [] := by
  rw [Ext2Inode.listed, h]
  rfl

theorem setDatablock_iBlock (block : UInt32) (entry : Ext2Inode) :
    getElem (setDatablock block entry).iBlock 0 pointer_lt = block := Vector.getElem_set_self _

theorem listedBlocks_of_slot (h : tableSlot fs n = some entry) :
    listedBlocks fs n = entry.listed := by
  rw [listedBlocks, h]
  rfl

theorem listedBlocks_congr {fs' : Ext2Filesystem} (h : tableSlot fs' n = tableSlot fs n) :
    listedBlocks fs' n = listedBlocks fs n := by
  rw [listedBlocks, h, listedBlocks]

end Slots

/-! ## The table while the file system is in use -/

section Table

variable {op : DirOp} {fs fs' : Ext2Filesystem} {name : List UInt8} {k b d : Nat} {n : UInt32}

theorem Live.tableSlot_eq (h : Live fs k b d) (hn : n.toNat < 1024) :
    tableSlot fs n = some (asInodes (fs.disk.content (32 + n.toNat / 4)))[n.toNat % 4] := by
  have htable : fs.descs[0].bgInodeTable.toNat = 4 := by
    rw [h.desc]
    rfl
  rw [Ext2Fs.tableSlot_eq h.firstDataBlock (show n.toNat / 1024 = 0 by omega) h.groups_pos
    (by decide) htable (by decide), loadAt_of_lt _ (by omega), Nat.mod_eq_of_lt hn]

theorem Live.root_slot (h : Live fs k b d) :
    tableSlot fs 2 = some (fillRootInode 36 Ext2Inode.zero) := by
  rw [h.tableSlot_eq (by decide), show 32 + (2 : UInt32).toNat / 4 = 32 from rfl, h.rootInode,
    rootInodeSector, Equiv.apply_symm_apply]
  rfl

-- In the first block of the table `insert_inode` computes the sector of the slot.
theorem insertSector_first {n : Nat} (hn : n < 32) : insertSector 4 n = 32 + n / 4 := by
  unfold insertSector
  omega

-- A call touches no slot but the one of its own inode.
theorem Makes.tableSlot_of_ne (h : Makes op fs fs' name k b d) (hlive : Live fs k b d)
    (hfirst : op = .mkdir → nextInode k < 32) (hn : n.toNat < 412) (hne : n.toNat ≠ nextInode k) :
    tableSlot fs' n = tableSlot fs n := by
  rw [h.live.tableSlot_eq (by omega), hlive.tableSlot_eq (by omega),
    h.table _ (by omega) (by omega)]
  by_cases hmk : op = .mkdir ∧ 32 + n.toNat / 4 = insertSector 4 (nextInode k)
  · obtain ⟨hop, hsector⟩ := hmk
    rw [if_pos ⟨hop, hsector⟩, insertedSector, getElem_updateAt, ← hsector, if_neg]
    -- in the same sector the numbers differ by less than four
    rw [insertSector_first (hfirst hop)] at hsector
    omega
  · rw [if_neg hmk]

theorem Makes.tableSlot_create (h : Makes .create fs fs' name k b d) (hlive : Live fs k b d)
    (hn : n.toNat < 412) : tableSlot fs' n = tableSlot fs n := by
  rw [h.live.tableSlot_eq (by omega), hlive.tableSlot_eq (by omega),
    h.table _ (by omega) (by omega), if_neg (by simp)]

-- The slot of a new directory.
theorem Makes.tableSlot_mkdir (h : Makes .mkdir fs fs' name k b d) (hfirst : nextInode k < 32)
    (hn : n.toNat = nextInode k) : ∃ old, tableSlot fs' n =
      some (setDatablock (UInt32.ofNat (37 + b)) (initDirInode old)) := by
  have hsector := insertSector_first hfirst
  refine ⟨(asInodes (fs.disk.content (insertSector 4 (nextInode k))))[n.toNat % 4], ?_⟩
  rw [h.live.tableSlot_eq (by omega), h.table _ (by omega) (by omega), if_pos ⟨rfl, by omega⟩,
    insertedSector, getElem_updateAt, if_pos (by omega)]
  rfl

theorem Live.blockUsed_of_lt (h : Live fs k b d) {block : UInt32} (hblock : block.toNat < 37 + b) :
    blockUsed fs block = some true := by
  have hb := h.blocks_le
  have hk := h.inodes_le
  have hgroup : (block / blockPerGroup).toNat = 0 := by
    simp
    omega
  have hbit : (block % blockPerGroup).toNat = block.toNat := by
    simp
    omega
  have hmap : (copyDesc fs.descs[0]).bgBlockBitmap = 2 := by
    rw [copyDesc_bgBlockBitmap, h.desc]
    rfl
  unfold blockUsed
  rw [readDesc_of_lt fs h.firstDataBlock h.groups_pos hgroup (by decide), Option.bind_eq_bind,
    Option.bind_some, hmap, hbit, DiskOperations.blockBit,
    show ((2 : UInt32) * sectorsPerBlock).toNat + block.toNat / 4096 = 16 by
      rw [show ((2 : UInt32) * sectorsPerBlock).toNat = 16 from rfl]; omega,
    Nat.mod_eq_of_lt (by omega), h.blockBitmap, bitAt_onesPrefix (by omega), decide_eq_true hblock]
  rfl

theorem Live.inDataArea (h : Live fs k b d) {block : UInt32} (hlo : 36 ≤ block.toNat)
    (hhi : block.toNat < 32768) : InDataArea fs block := by
  have hpos := h.groups_pos
  have hgroup : (block / blockPerGroup).toNat = 0 := by
    simp
    omega
  refine ⟨by omega, _, readDesc_of_lt fs h.firstDataBlock h.groups_pos hgroup (by decide), ?_⟩
  rw [h.desc, UInt32.le_iff_toNat_le]
  change 36 ≤ _
  simp
  omega

end Table

/-! ## What a session keeps -/

/-- The blocks listed are the root's and those that directories took since. -/
structure Linked (s : Session) : Prop where
  initialised : ∀ p ∈ s.inodes, ∃ entry, tableSlot s.fs p.2 = some entry ∧ entry.Initialised p.1
  taken : ∀ p ∈ s.inodes, ∀ block ∈ listedBlocks s.fs p.2,
    36 ≤ block.toNat ∧ block.toNat < 37 + s.mkdirs
  separate : ∀ p ∈ s.inodes, ∀ q ∈ s.inodes, p.2 ≠ q.2 →
    List.Disjoint (listedBlocks s.fs p.2) (listedBlocks s.fs q.2)

namespace Linked

variable {disk : DiskOperations} {s : Session}

theorem noCrossLinks (h : Linked s) (hs : Serving disk s) : s.NoCrossLinks where
  initialised := h.initialised
  owned p hp block hblock := by
    have hle := hs.live.blocks_le
    have hlt := hs.made_lt
    obtain ⟨hlo, hhi⟩ := h.taken p hp block hblock
    exact ⟨hs.live.blockUsed_of_lt hhi, hs.live.inDataArea hlo (by omega)⟩
  separate := h.separate

-- After the format only the root is live, with block 36.
theorem start (h : s.Fresh disk) (hpos : 1 ≤ disk.groups) (hfew : disk.groups ≤ 16) : Linked s := by
  obtain ⟨hs, -⟩ := h.serving hpos hfew
  have hinodes : s.inodes = [(.mkdir, 2)] := by
    rw [Session.inodes, h.2, hs.root_inode]
    rfl
  have hslot := hs.live.root_slot
  have hlisted : listedBlocks s.fs 2 = [36] := by
    rw [listedBlocks_of_slot hslot, Ext2Inode.listed_one rfl]
    rfl
  constructor
  · rw [hinodes]
    intro p hp
    rw [List.mem_singleton.mp hp]
    exact ⟨_, hslot, Or.inr rfl, rfl⟩
  · rw [hinodes]
    intro p hp block hblock
    rw [List.mem_singleton.mp hp, hlisted] at hblock
    rw [List.mem_singleton.mp hblock]
    exact ⟨by decide, Nat.lt_add_right _ (by decide)⟩
  · rw [hinodes]
    intro p hp q hq hne
    rw [List.mem_singleton.mp hp, List.mem_singleton.mp hq] at hne
    exact absurd rfl hne

-- The inodes in use have smaller numbers than the next one.
theorem inode_lt (hs : Serving disk s) {p : DirOp × UInt32} (hp : p ∈ s.inodes) :
    p.2.toNat < nextInode s.made.length := by
  rw [Session.inodes, List.mem_cons] at hp
  rcases hp with rfl | hp
  · have hbound := nextInode_bounds hs.made_lt
    rw [hs.root_inode]
    exact Nat.lt_of_lt_of_le (by decide) hbound.1
  · obtain ⟨m, hm, rfl⟩ := List.mem_map.mp hp
    obtain ⟨i, hi, hinode⟩ := hs.node_toNat hm
    rw [hinode]
    exact nextInode_strictMono hi

section Step

variable {fs' : Ext2Filesystem} {name : List UInt8}

-- A further inode, whose slot is filled and lists at most the block that the call took.
theorem append (h : Linked s) (hs : Serving disk s) {m : Made}
    (hmakes : Makes m.op s.fs fs' name s.made.length s.mkdirs s.mkdirs)
    (hfirst : m.op = .mkdir → nextInode s.made.length < 32) {entry : Ext2Inode}
    (hslot : tableSlot fs' m.node.entry.inode = some entry) (hinit : entry.Initialised m.op)
    (hlisted : ∀ block ∈ entry.listed, block.toNat = 37 + s.mkdirs ∧ m.op = .mkdir) :
    Linked { s with fs := fs', made := s.made ++ [m] } := by
  have hbound := nextInode_bounds hs.made_lt
  have hold : ∀ p ∈ s.inodes, tableSlot fs' p.2 = tableSlot s.fs p.2 := by
    intro p hp
    have hlt := inode_lt hs hp
    exact hmakes.tableSlot_of_ne hs.live hfirst (by omega) (by omega)
  have hnew := listedBlocks_of_slot hslot
  -- the new block is not one of those that were listed before
  have hfresh : ∀ p ∈ s.inodes, List.Disjoint (listedBlocks s.fs p.2) entry.listed := by
    intro p hp block hblock hmem
    have hlt := (h.taken p hp block hblock).2
    have heq := (hlisted block hmem).1
    omega
  constructor
  · rw [Session.inodes_append]
    intro p hp
    rcases List.mem_append.mp hp with hp | hp
    · rw [hold p hp]
      exact h.initialised p hp
    · rw [List.mem_singleton.mp hp]
      exact ⟨entry, hslot, hinit⟩
  · rw [Session.inodes_append, Session.mkdirs_append]
    intro p hp block hblock
    rcases List.mem_append.mp hp with hp | hp
    · rw [listedBlocks_congr (hold p hp)] at hblock
      have htaken := h.taken p hp block hblock
      split <;> omega
    · rw [List.mem_singleton.mp hp, hnew] at hblock
      obtain ⟨heq, hop⟩ := hlisted block hblock
      rw [if_pos hop]
      omega
  · rw [Session.inodes_append]
    intro p hp q hq hne
    rcases List.mem_append.mp hp with hp | hp <;> rcases List.mem_append.mp hq with hq | hq
    · rw [listedBlocks_congr (hold p hp), listedBlocks_congr (hold q hq)]
      exact h.separate p hp q hq hne
    · rw [List.mem_singleton.mp hq, listedBlocks_congr (hold p hp), hnew]
      exact hfresh p hp
    · rw [List.mem_singleton.mp hp, listedBlocks_congr (hold q hq), hnew]
      exact (hfresh q hq).symm
    · rw [List.mem_singleton.mp hp, List.mem_singleton.mp hq] at hne
      exact absurd rfl hne

-- One step of the sessions whose slots are prepared.
theorem step (h : Linked s) (hs : Serving disk s) {c : Call} (hprepared : s.Prepared c)
    {s' : Session} (hcall : s.call c = .ok s') : Linked s' := by
  by_cases hsame : s' = s
  · rw [hsame]
    exact h
  have hslot := hprepared.2 ⟨s', hcall, hsame⟩
  obtain rfl | ⟨name, fs', -, -, -, -, -, hmakes, rfl⟩ := hs.call_cases hprepared.1 hcall
  · exact h
  have hbound := nextInode_bounds hs.made_lt
  have hnext := toNat_nextInode hs.made_lt
  obtain ⟨op, parent, entryName⟩ := c
  cases op with
  | mkdir =>
    obtain ⟨old, hnew⟩ := hmakes.tableSlot_mkdir hslot hnext
    refine h.append hs hmakes (fun _ ↦ hslot) hnew ⟨Or.inl rfl, rfl⟩ fun block hblock ↦ ?_
    rw [Ext2Inode.listed_one rfl, List.mem_singleton, setDatablock_iBlock] at hblock
    have hle := hs.live.blocks_le
    have hlt := hs.made_lt
    refine ⟨?_, rfl⟩
    rw [hblock]
    simp
    omega
  | create =>
    obtain ⟨entry, hentry, hinit⟩ := hslot
    rw [← hmakes.tableSlot_create hs.live (by omega)] at hentry
    refine h.append hs hmakes (fun hop ↦ nomatch hop) hentry hinit fun block hblock ↦ ?_
    rw [Ext2Inode.listed_zero hinit.2.1] at hblock
    exact absurd hblock List.not_mem_nil

end Step

end Linked

-- A further file is without faults exactly when its slot was filled beforehand.
theorem create_noCrossLinks_iff {disk : DiskOperations} {s s' : Session} (h : Linked s)
    (hs : Serving disk s) {c : Call} (hknows : s.Knows c) (hop : c.op = .create)
    (hcall : s.call c = .ok s') (hmade : s' ≠ s) : s'.NoCrossLinks ↔ s.SlotPrepared c.op := by
  refine ⟨fun hlinks ↦ ?_, fun hslot ↦
    (h.step hs ⟨hknows, fun _ ↦ hslot⟩ hcall).noCrossLinks (hs.call hknows hcall)⟩
  obtain rfl | ⟨name, fs', -, -, -, -, -, hmakes, rfl⟩ := hs.call_cases hknows hcall
  · exact absurd rfl hmade
  obtain ⟨op, parent, entryName⟩ := c
  simp only at hop
  subst hop
  have hbound := nextInode_bounds hs.made_lt
  have hnext := toNat_nextInode hs.made_lt
  obtain ⟨entry, hentry, hinit⟩ := hlinks.initialised
    (.create, UInt32.ofNat (nextInode s.made.length)) (by
      rw [Session.inodes_append]
      exact List.mem_append_right _ List.mem_cons_self)
  change tableSlot fs' (UInt32.ofNat (nextInode s.made.length)) = _ at hentry
  rw [hmakes.tableSlot_create hs.live (by omega)] at hentry
  exact ⟨entry, hentry, hinit⟩

/-! ## Every session -/

theorem tableSlot_root (fs : Ext2Filesystem) : tableSlot fs 2 = inodeEntry fs 2 := by
  unfold tableSlot inodeEntry
  rw [show (2 : UInt32) % inodesPerGroup / 4 = 0 from rfl]
  simp only [UInt32.add_zero]
  rfl

-- With more than sixteen groups the root itself has no inode.
theorem Session.Fresh.not_noCrossLinks {disk : DiskOperations} {s : Session} (h : s.Fresh disk)
    (hmany : 16 < disk.groups) : ¬ s.NoCrossLinks := by
  intro hlinks
  obtain ⟨hroot, hzero⟩ := exists_mounted_noRoot hmany h.1
  obtain ⟨entry, hentry, hmode, -⟩ := hlinks.initialised _ List.mem_cons_self
  rw [hroot] at hentry hzero
  change tableSlot s.fs 2 = _ at hentry
  rw [tableSlot_root, show inodeEntry s.fs 2 = some Ext2Inode.zero from hzero,
    Option.some.injEq] at hentry
  subst hentry
  revert hmode
  decide

/-- Every session of prepared calls is without cross-linked blocks, on disks of at most sixteen
groups and on no others. -/
theorem noCrossLinks_iff {disk : DiskOperations} (hpos : 1 ≤ disk.groups) :
    (∀ s, Reachable Session.call Session.Prepared (Session.Fresh disk) s → s.NoCrossLinks) ↔
      disk.groups ≤ 16 := by
  constructor
  · intro hall
    by_contra hmany
    obtain ⟨disk', count, -, -, hmount⟩ := exists_mounted_large (show 16 < disk.groups by omega)
    have hfresh : Session.Fresh disk ⟨_, _, []⟩ := ⟨hmount, rfl⟩
    exact hfresh.not_noCrossLinks (by omega) (hall _ (.start hfresh))
  · intro hfew s h
    obtain ⟨hs, hl⟩ := Reachable.invariant (fun s ↦ Serving disk s ∧ Linked s)
      (fun s hs ↦ ⟨(hs.serving hpos hfew).1, Linked.start hs hpos hfew⟩)
      (fun s c s' hinv hprepared hcall ↦
        ⟨hinv.1.call hprepared.1 hcall, hinv.2.step hinv.1 hprepared hcall⟩) h
    exact hl.noCrossLinks hs

/-- A session that makes a directory on a zeroed disk. -/
theorem noCrossLinks_zeroedDisk : ∃ s : Session,
    Reachable Session.call Session.Prepared (Session.Fresh (zeroedDisk 262144)) s ∧
    s.made.length = 1 ∧ s.NoCrossLinks := by
  obtain ⟨s, s', hfresh, hcall, -, -, hmade, -⟩ := zeroedDisk_call .mkdir
  have hprepared : s.Prepared ⟨.mkdir, s.root, [0x41]⟩ := by
    refine ⟨List.mem_cons_self, fun _ ↦ ?_⟩
    rw [Session.SlotPrepared, hfresh.2]
    decide
  have hrun := Reachable.call (.start hfresh) hprepared hcall
  exact ⟨s', hrun, by rw [hmade]; rfl, (noCrossLinks_iff (by decide)).mpr (by decide) s' hrun⟩

-- Nothing was written to the sector of slot 11.
theorem Session.Fresh.slot_zeroedDisk {s : Session} (h : s.Fresh (zeroedDisk 262144)) :
    tableSlot s.fs 11 = some Ext2Inode.zero := by
  obtain ⟨hs, disk', hformatted, hdisk⟩ := h.serving (by decide) (by decide)
  have hcontent : s.fs.disk.content 34 = zeroSector := by
    rw [hdisk, hformatted.frame 34 (by decide) (by decide) (by decide) (by decide) (by decide)]
    rfl
  rw [hs.live.tableSlot_eq (by decide), show 32 + (11 : UInt32).toNat / 4 = 34 from rfl, hcontent,
    asInodes_zeroSector]
  rfl

/-- The slot of the first file made on a zeroed disk is never filled. -/
theorem not_noCrossLinks_create :
    ∃ s : Session, InUse (zeroedDisk 262144) s ∧ s.made.length = 1 ∧ ¬ s.NoCrossLinks := by
  obtain ⟨s, s', hfresh, hcall, hinUse, -, hmade, hmakes⟩ := zeroedDisk_call .create
  refine ⟨s', hinUse, by rw [hmade]; rfl, fun hlinks ↦ ?_⟩
  obtain ⟨hs, -⟩ := hfresh.serving (by decide) (by decide)
  have hne : s' ≠ s := by
    rintro rfl
    rw [hfresh.2] at hmade
    cases hmade
  obtain ⟨entry, hslot, hmode, -⟩ := (create_noCrossLinks_iff (Linked.start hfresh (by decide)
    (by decide)) hs List.mem_cons_self rfl hcall hne).mp hlinks
  rw [hfresh.2, show UInt32.ofNat (nextInode ([] : List Made).length) = 11 from rfl,
    hfresh.slot_zeroedDisk, Option.some.injEq] at hslot
  rw [← hslot] at hmode
  revert hmode
  decide

end Ext2Fs
