import Ext2Fs.Properties.DescriptorTable
import Ext2Fs.Spec.InodeTable

/-!
# The inode table as a round trip

`insert_inode` followed by `ext2_fill_inode`, for every pair of inode numbers.
-/

open Reasoning

namespace Ext2Fs

/-- The slot that `insert_inode` fills. -/
def storedInode (fs : Ext2Filesystem) (inodeNum : UInt32) : Option Ext2Inode := do
  let desc ← readDesc fs (inodeNum / inodesPerGroup)
  let sector ← (fs.disk.readSector (insertInodeSector desc inodeNum) none).2
  loadAt asInodes sector (inodeNum % inodesPerGroup % 4).toNat

/-- `insert_inode` for inode `n` is defined, and when it succeeds `ext2_fill_inode` of inode `m`
returns the mode, block count and first block that were stored if `m` is `n`, and those that it
returned before otherwise.  A field read from outside the sector buffer is not returned. -/
def InodeRoundTrip (fs : Ext2Filesystem) (node : Ext2Node) (n : UInt32) (mode : UInt16)
    (m : UInt32) : Prop :=
  ∃ r fs', insertInode fs node n mode = .ok (r, fs') ∧ (r ≠ ext2Error →
    ∃ entry, FillsAs (ext2FillInode fs' InodeVar.uninit m) entry ∧
      if m = n then storedInode fs' n = some entry ∧
        entry.iMode = (if mode = attrArchive then attrArchive else attrDirectory)
      else FillsAs (ext2FillInode fs InodeVar.uninit m) entry)

/-- The inode numbers for which both functions stay inside their buffers and look at one slot. -/
def InFirstSector (node : Ext2Node) (n : UInt32) (mode : UInt16) (m : UInt32) : Prop :=
  m.toNat % 1024 < 4 ∧ n.toNat < 16384 ∧ m.toNat < 16384 ∧
    (mode = attrArchive ∨ node.entry.inode.toNat < 16384)

theorem FillsAs.congr {inode : InodeVar} {e e' : Ext2Inode} (h : FillsAs inode e)
    (hsame : SameFields e e') : FillsAs inode e' := by
  obtain ⟨hmode, hblocks, hblock⟩ := hsame
  exact ⟨hmode ▸ h.iMode, hblocks ▸ h.iBlocks, hblock ▸ h.iBlock⟩

/-- Every group whose descriptor can be read has its table at the same block. -/
structure TableAt (fs : Ext2Filesystem) (table : Nat) : Prop where
  firstDataBlock : fs.spb.sFirstDataBlock = 0
  table_eq : ∀ g (hk : g < 16), g < fs.disk.groups → fs.descs[g].bgInodeTable.toNat = table
  table_lt : table < 1000
  -- the sectors of a table do not include the descriptors'
  table_ne : table ≠ 1

/-- The allocation of a block leaves the first sector of every table as far as it is compared. -/
def AllocKeeps (fs : Ext2Filesystem) (table : Nat) (node : Ext2Node) : Prop :=
  ∃ (block : Nat) (fs₁ : Ext2Filesystem), allocFreeBlock fs node = .ok ((block : Int), fs₁) ∧
    fs₁.disk.numberOfSectors = fs.disk.numberOfSectors ∧ TableAt fs₁ table ∧
    ∀ g, g < fs.disk.groups → ∀ k (hk : k < 4),
      SameFields (asInodes (fs.disk.content (262144 * g + 8 * table)))[k]
        (asInodes (fs₁.disk.content (262144 * g + 8 * table)))[k]

section RoundTrip

variable {fs : Ext2Filesystem} {table : Nat}

theorem TableAt.inodeEntry_eq (h : TableAt fs table) {n : UInt32}
    (hn : n.toNat < 1024 * fs.disk.groups) (hk : n.toNat < 16384) :
    inodeEntry fs n = loadAt asInodes (fs.disk.content (262144 * (n.toNat / 1024) + 8 * table))
      (n.toNat % 1024) := by
  have htable := h.table_eq (n.toNat / 1024) (by omega) (by omega)
  have hlt := h.table_lt
  rw [Ext2Fs.inodeEntry_eq h.firstDataBlock rfl (by omega) (by omega) (by omega), htable]

-- What `insert_inode` does, for files and for directories: one slot of one sector changes, on a
-- disk that keeps the first sectors of the tables.
theorem TableAt.insertInode_eq (h : TableAt fs table) {node : Ext2Node} {n : UInt32} {mode : UInt16}
    (hn : n.toNat < 1024 * fs.disk.groups) (hk : n.toNat < 16384)
    (halloc : mode ≠ attrArchive → AllocKeeps fs table node) :
    ∃ (r : Int) (fs' : Ext2Filesystem) (f : Ext2Inode → Ext2Inode) (base : Nat → Sector),
      insertInode fs node n mode = .ok (r, fs') ∧ r ≠ ext2Error ∧ TableAt fs' table ∧
      fs'.disk.numberOfSectors = fs.disk.numberOfSectors ∧
      (∀ e, (f e).iMode = if mode = attrArchive then attrArchive else attrDirectory) ∧
      (∀ g, g < fs.disk.groups → ∀ k (hk : k < 4),
        SameFields (asInodes (fs.disk.content (262144 * g + 8 * table)))[k]
          (asInodes (base (262144 * g + 8 * table)))[k]) ∧
      ∀ x, fs'.disk.content x =
        if x = insertSector table n.toNat then insertedSector fs table n.toNat f else base x := by
  have hlt := h.table_lt
  have hne := h.table_ne
  have hdesc : 8 ≠ insertSector table n.toNat := by
    unfold insertSector
    omega
  by_cases hmode : mode = attrArchive
  · subst hmode
    obtain ⟨fs', hrun, hspb, hsectors, hc⟩ := insertInode_archive h.firstDataBlock rfl
      (by omega) (by omega) (h.table_eq (n.toNat / 1024) (by omega) (by omega)) hlt node
    have hdescs : fs'.descs = fs.descs := by
      rw [Ext2Filesystem.descs, hc, if_neg hdesc, Ext2Filesystem.descs]
    refine ⟨_, fs', initFileInode, fs.disk.content, hrun, by decide, ?_, hsectors, ?_, ?_, hc⟩
    · refine ⟨by rw [hspb]; exact h.firstDataBlock, fun g hg hgr ↦ ?_, hlt, hne⟩
      simp only [hdescs]
      exact h.table_eq g hg (by rwa [groups_congr hsectors] at hgr)
    · exact fun e ↦ (if_pos rfl).symm
    · exact fun g _ k hk ↦ ⟨rfl, rfl, rfl⟩
  · obtain ⟨block, fs₁, hblock, hsectors₁, htab₁, hkeep⟩ := halloc hmode
    obtain ⟨fs', hrun, hspb, hsectors, hc⟩ := insertInode_directory h.firstDataBlock rfl
      (by omega) (by omega) (h.table_eq (n.toNat / 1024) (by omega) (by omega)) hlt hmode hblock
      hsectors₁
    have hdescs : fs'.descs = fs₁.descs := by
      rw [Ext2Filesystem.descs, hc, if_neg hdesc, Ext2Filesystem.descs]
    refine ⟨_, fs', _, fs₁.disk.content, hrun, by rw [ext2Error]; omega, ?_, hsectors, ?_, hkeep, hc⟩
    · refine ⟨by rw [hspb]; exact htab₁.firstDataBlock, fun g hg hgr ↦ ?_, hlt, hne⟩
      simp only [hdescs]
      exact htab₁.table_eq g hg (by rwa [groups_congr (hsectors.trans hsectors₁.symm)] at hgr)
    · exact fun e ↦ (if_neg hmode).symm

-- The descriptor that `insert_inode` reads, and the sector that it computes from it.
theorem TableAt.readDesc_insert (h : TableAt fs table) {n : UInt32}
    (hn : n.toNat < 1024 * fs.disk.groups) (hk : n.toNat < 16384) :
    ∃ desc, readDesc fs (n / inodesPerGroup) = some desc ∧
      (insertInodeSector desc n).toNat = insertSector table n.toNat := by
  have hgroup : n.toNat / 1024 < 16 := by omega
  have hnum := groupNum_toNat (show n.toNat / 1024 = n.toNat / 1024 from rfl)
  have htable := h.table_eq (n.toNat / 1024) hgroup (by omega)
  exact ⟨_, readDesc_of_lt fs h.firstDataBlock (by omega) hnum hgroup,
    insertInodeSector_toNat (by rw [copyDesc_bgInodeTable, htable]) h.table_lt (by omega)⟩

theorem TableAt.storedInode_eq (h : TableAt fs table) {n : UInt32}
    (hn : n.toNat < 1024 * fs.disk.groups) (hk : n.toNat < 16384) :
    storedInode fs n = loadAt asInodes (fs.disk.content (insertSector table n.toNat))
      (n.toNat % 4) := by
  have hslot : (n % inodesPerGroup % 4).toNat = n.toNat % 4 := by simp
  rcases h.readDesc_insert hn hk with ⟨desc, hdesc, haddr⟩
  have hin := insertSector_lt h.table_lt (show n.toNat / 1024 < fs.disk.groups by omega)
  have hread := DiskOperations.readSector_eq none haddr hin rfl
  rw [storedInode, hdesc, Option.bind_eq_bind, Option.bind_some, hread, Option.bind_eq_bind,
    Option.bind_some, hslot]

-- Reading slot `m` back after the slot of `n` was changed.
theorem TableAt.roundTrip (h : TableAt fs table) {node : Ext2Node} {n m : UInt32} {mode : UInt16}
    (hn : n.toNat < 1024 * fs.disk.groups) (hm : m.toNat < 1024 * fs.disk.groups)
    (hin : InFirstSector node n mode m) (halloc : mode ≠ attrArchive → AllocKeeps fs table node) :
    InodeRoundTrip fs node n mode m := by
  obtain ⟨hslot, hn16, hm16, -⟩ := hin
  obtain ⟨r, fs', f, base, hrun, -, htab', hsectors, hmode, hkeep, hc⟩ :=
    h.insertInode_eq hn hn16 halloc
  have hlt := h.table_lt
  have hgroups : fs'.disk.groups = fs.disk.groups := groups_congr hsectors
  have hbefore := h.inodeEntry_eq hm hm16
  have hafter := htab'.inodeEntry_eq (by rw [hgroups]; exact hm) hm16
  rw [loadAt_of_lt _ hslot] at hbefore hafter
  refine ⟨r, fs', hrun, fun _ ↦ ?_⟩
  by_cases hmn : m = n
  · subst hmn
    have hsector : insertSector table m.toNat = 262144 * (m.toNat / 1024) + 8 * table := by
      unfold insertSector
      omega
    have hk : m.toNat % 4 = m.toNat % 1024 := by omega
    refine ⟨_, ext2FillInode_some hafter _, ?_⟩
    rw [if_pos rfl, htab'.storedInode_eq (by rw [hgroups]; exact hm) hm16, hsector, hk,
      loadAt_of_lt _ hslot, hc, if_pos hsector.symm]
    refine ⟨rfl, ?_⟩
    unfold insertedSector
    rw [getElem_updateAt _ _ hslot, if_pos hk, hmode]
  · refine ⟨(asInodes (fs.disk.content (262144 * (m.toNat / 1024) + 8 * table)))[m.toNat % 1024],
      (ext2FillInode_some hafter _).congr ?_, ?_⟩
    · rw [hc]
      by_cases hsector : 262144 * (m.toNat / 1024) + 8 * table = insertSector table n.toNat
      · have hne : m.toNat ≠ n.toNat := fun hx ↦ hmn (UInt32.toNat_inj.mp hx)
        have hk : ¬ n.toNat % 4 = m.toNat % 1024 := by
          unfold insertSector at hsector
          omega
        rw [if_pos hsector, hsector]
        unfold insertedSector
        rw [getElem_updateAt _ _ hslot, if_neg hk]
        exact ⟨rfl, rfl, rfl⟩
      · rw [if_neg hsector]
        exact (hkeep _ (by omega) _ hslot).symm
    · rw [if_neg hmn]
      exact ext2FillInode_some hbefore _

-- Outside the first sector of a table the reader leaves its buffer, and past sixteen groups both
-- functions leave the buffer of the descriptors.
theorem TableAt.inFirstSector (h : TableAt fs table) {node : Ext2Node} {n m : UInt32}
    {mode : UInt16} (hn : n.toNat < 1024 * fs.disk.groups) (hm : m.toNat < 1024 * fs.disk.groups)
    (halloc : node.entry.inode.toNat < 16384 → AllocKeeps fs table node)
    (htrip : InodeRoundTrip fs node n mode m) : InFirstSector node n mode m := by
  obtain ⟨r, fs', hrun, hfill⟩ := htrip
  have hn16 : n.toNat < 16384 := by
    by_contra hge
    rw [insertInode_of_ge (by omega)] at hrun
    cases hrun
  have hnode : mode = attrArchive ∨ node.entry.inode.toNat < 16384 := by
    by_contra hboth
    rw [not_or] at hboth
    have herror := insertInode_of_allocFreeBlock_error h.firstDataBlock rfl (by omega) (by omega)
      (h.table_eq (n.toNat / 1024) (by omega) (by omega)) h.table_lt hboth.1
      (allocFreeBlock_of_ge fs (show 16384 ≤ node.entry.inode.toNat by omega))
    rw [hrun] at herror
    cases herror
  obtain ⟨r', fs'', f, base, hrun', hr, htab', hsectors, -, -, -⟩ :=
    h.insertInode_eq hn hn16 (fun hmode ↦ halloc (hnode.resolve_left hmode))
  rw [hrun] at hrun'
  cases hrun'
  obtain ⟨entry, hentry, -⟩ := hfill hr
  have hsome : inodeEntry fs' m ≠ none := by
    intro hnone
    have hmode := hentry.iMode
    rw [ext2FillInode_none hnone] at hmode
    cases hmode
  have hm16 : m.toNat < 16384 := by
    by_contra hge
    exact hsome (inodeEntry_of_ge (by omega))
  have hslot : m.toNat % 1024 < 4 := by
    by_contra hge
    apply hsome
    rw [htab'.inodeEntry_eq (by rw [groups_congr hsectors]; exact hm) hm16,
      loadAt_of_ge _ (by omega)]
  exact ⟨hslot, hn16, hm16, hnode⟩

end RoundTrip

-- Counting a block moves no table.
theorem TableAt.of_countBlock {fs fs₁ : Ext2Filesystem} {table k : Nat} (h : TableAt fs table)
    (hspb : fs₁.spb = countBlockSb fs.spb)
    (hsectors : fs₁.disk.numberOfSectors = fs.disk.numberOfSectors) {hk : k < 16}
    (hdescs : fs₁.descs = fs.descs.set k (countBlock fs.descs[k])) : TableAt fs₁ table where
  firstDataBlock := by
    rw [hspb]
    exact h.firstDataBlock
  table_eq g hg hgr := by
    rw [groups_congr hsectors] at hgr
    have htable := h.table_eq g hg hgr
    simp only [hdescs]
    rw [Vector.getElem_set]
    split
    · rename_i hgk
      subst hgk
      exact htable
    · exact htable
  table_lt := h.table_lt
  table_ne := h.table_ne

-- A block taken where the descriptor is zeroed: the bit is set in the superblock's sector.
theorem TableAt.allocFreeBlock_zero {fs : Ext2Filesystem} {table k : Nat} (h : TableAt fs table)
    (hpos : 1 ≤ fs.disk.groups) {node : Ext2Node} (hgroup : node.entry.inode.toNat / 1024 = k)
    (hk : k < 16) (hmap : fs.descs[k].bgBlockBitmap = 0) (hbyte : (fs.disk.content 0)[0] = 0) :
    ∃ fs₁, allocFreeBlock fs node = .ok (((0 : Nat) : Int), fs₁) ∧
      fs₁.disk.numberOfSectors = fs.disk.numberOfSectors ∧ TableAt fs₁ table ∧
      ∃ descs, ∀ x, fs₁.disk.content x =
        countedContent fs.disk (countBlockSb fs.spb) 0 descs x := by
  obtain ⟨fs₁, hrun, hspb, hsectors, hc⟩ := allocFreeBlock_spec_zero h.firstDataBlock hpos
    (groupNum_toNat hgroup) hk hmap hbyte
  have hdescs : fs₁.descs = fs.descs.set k (countBlock fs.descs[k]) := by
    rw [Ext2Filesystem.descs, hc, countedContent, if_pos (by omega), Equiv.apply_symm_apply]
  exact ⟨fs₁, hrun, hsectors, h.of_countBlock hspb hsectors hdescs, _, hc⟩

/-! ## Disks of at most sixteen groups -/

section Few

variable {disk disk' : DiskOperations} (h : Formatted disk disk')

include h

theorem Formatted.superBlock_byte (hpos : 1 ≤ disk.groups) : (disk'.content 0)[0] = 0 := by
  have hsb := h.superBlock 0 hpos
  rw [show 262144 * 0 = 0 from rfl] at hsb
  have hcount : (countRootSb disk.newSb).sInodesCount.toNat = 1024 * disk.groups :=
    newSb_sInodesCount disk
  rw [hsb, Ext2Fs.superBlock_byte, hcount]
  apply UInt8.toNat_inj.mp
  simp

theorem tableAt_newFs : TableAt (newFs disk disk') 4 where
  firstDataBlock := rfl
  table_eq g hk hg := by
    rw [newFs_groups h] at hg
    rw [newFs_desc h (by omega) hk, if_pos hg]
    split <;> rfl
  table_lt := by decide
  table_ne := by decide

theorem allocKeeps_newFs (hpos : 1 ≤ disk.groups) {node : Ext2Node}
    (hnode : node.entry.inode.toNat < 16384) : AllocKeeps (newFs disk disk') 4 node := by
  have hgroups := newFs_groups h
  have htable := tableAt_newFs h
  by_cases hgroup : node.entry.inode.toNat / 1024 < disk.groups
  · have hmap : (newFs disk disk').descs[node.entry.inode.toNat / 1024].bgBlockBitmap = 2 := by
      rw [newFs_desc h hpos, if_pos hgroup]
      split <;> rfl
    obtain ⟨fs₁, hrun, hspb, hsectors, hc⟩ := allocFreeBlock_spec htable.firstDataBlock
      (by omega) (groupNum_toNat rfl) (by omega) hmap h.blockBitmap (by decide)
    have hdescs : fs₁.descs = (newFs disk disk').descs.set (node.entry.inode.toNat / 1024)
        (countBlock (newFs disk disk').descs[node.entry.inode.toNat / 1024]) := by
      rw [Ext2Filesystem.descs, hc, if_neg (by decide), countedContent, if_pos (by omega),
        Equiv.apply_symm_apply]
    refine ⟨37, fs₁, hrun, hsectors, htable.of_countBlock hspb hsectors hdescs, fun g hg k hk ↦ ?_⟩
    rw [hc, if_neg (by omega), countedContent, if_neg (by omega), if_neg (by omega)]
    exact ⟨rfl, rfl, rfl⟩
  · -- a node of no group: its descriptor is zeroed, and the sector of the superblock is marked
    have hmap : (newFs disk disk').descs[node.entry.inode.toNat / 1024].bgBlockBitmap = 0 := by
      rw [newFs_desc h hpos, if_neg (by omega), if_neg hgroup]
      rfl
    obtain ⟨fs₁, hrun, hsectors, htable₁, descs, hc⟩ := htable.allocFreeBlock_zero (by omega) rfl
      (by omega) hmap (h.superBlock_byte hpos)
    refine ⟨0, fs₁, hrun, hsectors, htable₁, fun g hg k hk ↦ ?_⟩
    rw [hc, countedContent, if_neg (by omega), if_neg (by omega)]
    exact ⟨rfl, rfl, rfl⟩

end Few

/-! ## Disks of more than sixteen groups -/

section Many

variable {disk disk' : DiskOperations} {count : UInt32} (h : FormattedLarge disk disk')
  (hmany : 16 < disk.groups)

theorem largeFs_desc (h : FormattedLarge disk disk') (hpos : 0 < disk.groups) {g : Nat}
    (hk : g < 16) : (largeFs disk disk' count).descs[g] =
      if g = 0 then countRoot Ext2GroupDesc.zero else Ext2GroupDesc.zero := by
  have hd := h.descs 0 hpos
  rw [show 262144 * 0 + 8 = 8 from rfl] at hd
  have hdescs : (largeFs disk disk' count).descs =
      (Vector.replicate 16 Ext2GroupDesc.zero).set 0 (countRoot Ext2GroupDesc.zero) := by
    change asDescs (disk'.content 8) = _
    rw [hd, Equiv.apply_symm_apply]
  simp only [hdescs]
  rw [Vector.getElem_set, Vector.getElem_replicate]
  grind

theorem largeFs_superBlock_byte
    (hsb : disk'.content 0 = asSuperBlock.symm (largeFs disk disk' count).spb) :
    ((largeFs disk disk' count).disk.content 0)[0] = 0 := by
  have hcount : (largeFs disk disk' count).spb.sInodesCount.toNat = 1024 * disk.groups :=
    newSb_sInodesCount disk
  rw [largeFs_disk, hsb, superBlock_byte, hcount]
  apply UInt8.toNat_inj.mp
  simp

include h hmany

theorem tableAt_largeFs : TableAt (largeFs disk disk' count) 0 where
  firstDataBlock := rfl
  table_eq g hk _ := by
    rw [largeFs_desc h (by omega) hk]
    split <;> rfl
  table_lt := by decide
  table_ne := by decide

-- The tables are where the copies of the superblock are, and the superblocks that are written
-- there differ in fields that no inode is read from.
theorem allocKeeps_largeFs (hsb : disk'.content 0 = asSuperBlock.symm (largeFs disk disk' count).spb)
    {node : Ext2Node} (hnode : node.entry.inode.toNat < 16384) :
    AllocKeeps (largeFs disk disk' count) 0 node := by
  have hgroups : (largeFs disk disk' count).disk.groups = disk.groups := groups_congr h.sectors_eq
  have htable : TableAt (largeFs disk disk' count) 0 := tableAt_largeFs h hmany
  have hmap : (largeFs disk disk' count).descs[node.entry.inode.toNat / 1024].bgBlockBitmap = 0 := by
    rw [largeFs_desc h (by omega)]
    split <;> rfl
  have hbyte := largeFs_superBlock_byte hsb
  obtain ⟨fs₁, hrun, hsectors, htable₁, descs, hc⟩ := htable.allocFreeBlock_zero (by omega) rfl
    (by omega) hmap hbyte
  refine ⟨0, fs₁, hrun, hsectors, htable₁, fun g hg k hk ↦ ?_⟩
  rw [hgroups] at hg
  have hafter : ∃ b f, fs₁.disk.content (262144 * g + 8 * 0) =
      asSuperBlock.symm (disk.newSb.withCounts b f) := by
    rw [hc, countedContent, if_neg (by omega), if_pos (by omega)]
    exact ⟨_, _, rfl⟩
  have hbefore : ∃ b f, (largeFs disk disk' count).disk.content (262144 * g + 8 * 0) =
      asSuperBlock.symm (disk.newSb.withCounts b f) := by
    by_cases h0 : g = 0
    · subst h0
      exact ⟨_, _, hsb⟩
    · exact ⟨_, _, h.superBlocks g (by omega) hg⟩
  obtain ⟨b₁, f₁, h₁⟩ := hbefore
  obtain ⟨b₂, f₂, h₂⟩ := hafter
  rw [h₁, h₂]
  exact sameFields_of_bytes (fun i hi h4 h12 ↦ (superBlock_withCounts _ _ _ hi h4 h12).trans
    (superBlock_withCounts _ _ _ hi h4 h12).symm) hk

end Many

/-! ## Every formatted disk -/

/-- The round trip holds exactly for inodes that are read from the first sector of their table, in
one of the first sixteen groups. -/
theorem inodeRoundTrip_iff {disk : DiskOperations} {fs : Ext2Filesystem} {root node : Ext2Node}
    {n m : UInt32} {mode : UInt16} (hmount : Mounted disk fs root)
    (hn : n.toNat < 1024 * disk.groups) (hm : m.toNat < 1024 * disk.groups) :
    InodeRoundTrip fs node n mode m ↔ InFirstSector node n mode m := by
  by_cases hfew : disk.groups ≤ 16
  · obtain ⟨disk', h, hmount'⟩ := exists_mounted (by omega) hfew
    obtain ⟨rfl, -⟩ := mounted_unique hmount hmount'
    have hpos : 1 ≤ disk.groups := by omega
    rw [← newFs_groups h] at hn hm
    exact ⟨(tableAt_newFs h).inFirstSector hn hm (allocKeeps_newFs h hpos),
      fun hin ↦ (tableAt_newFs h).roundTrip hn hm hin fun hmode ↦
        allocKeeps_newFs h hpos (hin.2.2.2.resolve_left hmode)⟩
  · have hmany : 16 < disk.groups := by omega
    obtain ⟨disk', count, h, hsb, hmount'⟩ := exists_mounted_large hmany
    obtain ⟨rfl, -⟩ := mounted_unique hmount hmount'
    have hgroups : (largeFs disk disk' count).disk.groups = disk.groups := groups_congr h.sectors_eq
    rw [← hgroups] at hn hm
    have htable : TableAt (largeFs disk disk' count) 0 := tableAt_largeFs h hmany
    exact ⟨htable.inFirstSector hn hm (allocKeeps_largeFs h hmany hsb),
      fun hin ↦ htable.roundTrip hn hm hin fun hmode ↦
        allocKeeps_largeFs h hmany hsb (hin.2.2.2.resolve_left hmode)⟩

theorem inodeRoundTrip_iff_zeroedDisk : ∃ fs root, Mounted (zeroedDisk 262144) fs root ∧
    (InodeRoundTrip fs root 3 attrDirectory 1 ↔ InFirstSector root 3 attrDirectory 1) := by
  obtain ⟨disk', -, hmount⟩ := exists_mounted (show 1 ≤ (zeroedDisk 262144).groups by decide)
    (by decide)
  exact ⟨_, _, hmount, inodeRoundTrip_iff hmount (by decide) (by decide)⟩

/-- Inode 11 is the first that `alloc_free_inode` hands out. -/
theorem not_inodeRoundTrip_eleven : ∃ fs root, Mounted (zeroedDisk 262144) fs root ∧
    ¬ InodeRoundTrip fs root 11 attrArchive 11 := by
  obtain ⟨disk', h, hmount⟩ := exists_mounted (show 1 ≤ (zeroedDisk 262144).groups by decide)
    (by decide)
  have hgroups := newFs_groups h
  have hone : (zeroedDisk 262144).groups = 1 := by decide
  refine ⟨_, _, hmount, fun htrip ↦ ?_⟩
  have hin := (tableAt_newFs h).inFirstSector (by rw [hgroups, hone]; decide)
    (by rw [hgroups, hone]; decide) (allocKeeps_newFs h (by decide)) htrip
  exact absurd hin.1 (by decide)

end Ext2Fs
