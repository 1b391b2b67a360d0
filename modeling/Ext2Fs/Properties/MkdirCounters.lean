import Ext2Fs.Properties.Replicas
import Ext2Fs.Properties.Accounting

/-!
# What a new directory counts

`ext2_mkdir` rewrites the descriptor of the new inode's group three times: for the inode, for the
block, and for the directory.
-/

open Reasoning

namespace Ext2Fs

/-! ## The effect -/

/-- One inode and one block fewer, one directory more, and nothing else. -/
structure DirCounted (d d' : Ext2GroupDesc) : Prop where
  freeInodes : d'.bgFreeInodesCount.toNat + 1 = d.bgFreeInodesCount.toNat
  freeBlocks : d'.bgFreeBlocksCount.toNat + 1 = d.bgFreeBlocksCount.toNat
  usedDirs : d'.bgUsedDirsCount.toNat = d.bgUsedDirsCount.toNat + 1
  others : d' = { d with
    bgFreeInodesCount := d'.bgFreeInodesCount
    bgFreeBlocksCount := d'.bgFreeBlocksCount
    bgUsedDirsCount := d'.bgUsedDirsCount }

/-- Between the two states every copy of the table has changed for group `g` alone, and the totals
by one each. -/
structure DirectoryCounted (fs fs' : Ext2Filesystem) (g : Nat) : Prop where
  group_lt : g < fs.disk.groups
  group : ∀ j, j < fs.disk.groups →
    DirCounted (fs.disk.storedDesc j g) (fs'.disk.storedDesc j g)
  others : ∀ j, j < fs.disk.groups → ∀ k, k < fs.disk.groups → k ≠ g →
    fs'.disk.storedDesc j k = fs.disk.storedDesc j k
  freeInodes : fs'.spb.sFreeInodesCount.toNat + 1 = fs.spb.sFreeInodesCount.toNat
  freeBlocks : fs'.spb.sFreeBlocksCount.toNat + 1 = fs.spb.sFreeBlocksCount.toNat
  -- in memory, and so in every copy
  before : SuperBlocksCopied fs
  after : SuperBlocksCopied fs'

/-! ## One update after the other -/

/-- `bg_used_dirs_count++`. -/
def countDir (desc : Ext2GroupDesc) : Ext2GroupDesc :=
  { desc with bgUsedDirsCount := desc.bgUsedDirsCount + 1 }

/-- The superblock and the first descriptor are counted, and every group has a copy of both. -/
structure Counted (fs fs' : Ext2Filesystem) (countSb : Ext2SuperBlock → Ext2SuperBlock)
    (count : Ext2GroupDesc → Ext2GroupDesc) : Prop where
  replicated : Replicated fs'
  spb_eq : fs'.spb = countSb fs.spb
  sectors_eq : fs'.disk.numberOfSectors = fs.disk.numberOfSectors
  descs_eq : fs'.descs =
    fs.descs.set 0 (count (getElem fs.descs 0 firstRecord_lt)) firstRecord_lt

section Counted

variable {fs fs₁ fs₂ : Ext2Filesystem} {countSb countSb' : Ext2SuperBlock → Ext2SuperBlock}
  {count count' : Ext2GroupDesc → Ext2GroupDesc}

-- No update is lost: the second one starts from what the first one has written.
theorem Counted.trans (h : Counted fs fs₁ countSb count) (h' : Counted fs₁ fs₂ countSb' count') :
    Counted fs fs₂ (countSb' ∘ countSb) (count' ∘ count) where
  replicated := h'.replicated
  spb_eq := by rw [h'.spb_eq, h.spb_eq, Function.comp_apply]
  sectors_eq := h'.sectors_eq.trans h.sectors_eq
  descs_eq := by
    rw [h'.descs_eq]
    simp only [h.descs_eq, Vector.getElem_set_self, Vector.set_set, Function.comp_apply]

-- Sectors other than the copies may be written at any time.
theorem Counted.congr (h : Counted fs fs₁ countSb count) (hspb : fs₂.spb = fs₁.spb)
    (hn : fs₂.disk.numberOfSectors = fs₁.disk.numberOfSectors)
    (hc : ∀ x, x % 262144 = 0 ∨ x % 262144 = 8 → fs₂.disk.content x = fs₁.disk.content x) :
    Counted fs fs₂ countSb count := by
  have hgroups : fs₂.disk.groups = fs₁.disk.groups := groups_congr hn
  have hrep := h.replicated
  have h8 := hc 8 (Or.inr rfl)
  refine ⟨⟨⟨?_, ?_, fun g hg ↦ ?_⟩, fun g hg ↦ ?_⟩, hspb.trans h.spb_eq, hn.trans h.sectors_eq, ?_⟩
  · rw [hspb]
    exact hrep.firstDataBlock
  · rw [hgroups]
    exact hrep.groups_pos
  · rw [hc _ (Or.inl (by omega)), hspb]
    exact hrep.superBlock g (by omega)
  · rw [hc _ (Or.inr (by omega)), h8]
    exact hrep.descs g (by omega)
  · rw [Ext2Filesystem.descs, h8]
    exact h.descs_eq

-- One sector of no copy is written, and both counters are written back.
theorem counted_of_content (h0 : (countSb fs.spb).sFirstDataBlock = 0) (hpos : 1 ≤ fs.disk.groups)
    (hspb : fs₁.spb = countSb fs.spb) (hn : fs₁.disk.numberOfSectors = fs.disk.numberOfSectors)
    {bitmap : Nat} {bits : Sector} (h0' : bitmap % 262144 ≠ 0) (h8 : bitmap % 262144 ≠ 8)
    (hc : ∀ x, fs₁.disk.content x = if x = bitmap then bits
      else countedContent fs.disk (countSb fs.spb) 0
        (fs.descs.set 0 (count (getElem fs.descs 0 firstRecord_lt)) firstRecord_lt) x) :
    Counted fs fs₁ countSb count := by
  have hgroups : fs₁.disk.groups = fs.disk.groups := groups_congr hn
  have hdescs : ∀ g, g < fs.disk.groups → fs₁.disk.content (262144 * g + 8) = asDescs.symm
      (fs.descs.set 0 (count (getElem fs.descs 0 firstRecord_lt)) firstRecord_lt) := by
    intro g hg
    rw [hc, if_neg (by omega), countedContent, if_pos (by omega)]
  have hfirst := hdescs 0 hpos
  rw [Nat.mul_zero, Nat.zero_add] at hfirst
  refine ⟨⟨⟨?_, ?_, fun g hg ↦ ?_⟩, fun g hg ↦ ?_⟩, hspb, hn, ?_⟩
  · rw [hspb]
    exact h0
  · rw [hgroups]
    exact hpos
  · rw [hc, if_neg (by omega), countedContent, if_neg (by omega), if_pos (by omega), hspb]
  · rw [hdescs g (by omega), hfirst]
  · rw [Ext2Filesystem.descs, hfirst, Equiv.apply_symm_apply]

theorem Replicated.countDirectory (h : Replicated fs) {n : UInt32} (hn : n.toNat < 1024)
    {buf : Sector} (hrun : Ext2Fs.countDirectory fs n buf = .ok fs₁) :
    Counted fs fs₁ id countDir := by
  have hpos := h.groups_pos
  have hgroup : (n / inodesPerGroup).toNat = 0 := by
    simp
    omega
  unfold Ext2Fs.countDirectory at hrun
  rw [readSector_descs fs h.firstDataBlock hpos, determinate_some, ok_bind, hgroup,
    modifyAt_of_lt _ _ firstRecord_lt, ok_bind, pure_eq_ok, Except.ok.injEq] at hrun
  subst hrun
  have hcopied := h.toSuperBlocksCopied.writeDescs
  refine ⟨hcopied _, rfl, numberOfSectors_writeDescSectors _, ?_⟩
  rw [Ext2Filesystem.descs, content_writeDescSectors h.firstDataBlock, if_pos (by omega),
    Equiv.apply_symm_apply]
  rfl

end Counted

/-! ## The calls in the root -/

def callSb : DirOp → Ext2SuperBlock → Ext2SuperBlock
  | .mkdir => countBlockSb ∘ countInodeSb
  | .create => countInodeSb

def callDesc : DirOp → Ext2GroupDesc → Ext2GroupDesc
  | .mkdir => (countDir ∘ countBlock) ∘ countInode
  | .create => countInode

namespace Live

variable {fs fs' : Ext2Filesystem} {k b d : Nat}

theorem allocFreeInode_counted (h : Live fs k b d) (hk : k < 200) {parent : Ext2Node}
    (hparent : parent.inodeNum = 2) {n : Int}
    (hrun : Ext2Fs.allocFreeInode fs parent = .ok (n, fs')) :
    Counted fs fs' countInodeSb countInode := by
  rcases h.allocFreeInode_content hk hparent with ⟨fs₁, hrun', hspb, hn, hc⟩
  rw [hrun, Except.ok.injEq, Prod.mk.injEq] at hrun'
  rcases hrun' with ⟨-, rfl⟩
  exact counted_of_content h.firstDataBlock h.groups_pos hspb hn (by decide) (by decide) hc

theorem allocFreeBlock_counted (h : Live fs k b d) (hb : b < k) {node : Ext2Node}
    (hnode : node.entry.inode.toNat < 1024) {n : Int}
    (hrun : Ext2Fs.allocFreeBlock fs node = .ok (n, fs')) :
    n = ((37 + b : Nat) : Int) ∧ Counted fs fs' countBlockSb countBlock := by
  rcases h.allocFreeBlock_content hb hnode with ⟨fs₁, hrun', hspb, hn, hc⟩
  rw [hrun, Except.ok.injEq, Prod.mk.injEq] at hrun'
  rcases hrun' with ⟨rfl, rfl⟩
  exact ⟨rfl, counted_of_content h.firstDataBlock h.groups_pos hspb hn (by decide) (by decide) hc⟩

-- The block and the directory are counted one after the other, in the group of the new inode.
theorem makeDirectory_counted (h : Live fs k b d) (hb : b < k) {parent : Ext2Node}
    {entry : Ext2DirEntry} {n : Nat} (hentry : entry.inode.toNat = n) (hlo : 11 ≤ n) (hhi : n < 412)
    {r : Int × Option Ext2Node × Ext2Filesystem}
    (hrun : Ext2Fs.makeDirectory fs parent entry = .ok r) :
    Counted fs r.2.2 countBlockSb (countDir ∘ countBlock) := by
  have hle := h.inodes_le
  have hfit := fs.disk.groups_fit
  have hpos := h.groups_pos
  have hbound := insertSector_bounds hlo hhi
  have htable : fs.descs[0].bgInodeTable.toNat = 4 := by
    rw [h.desc]
    rfl
  unfold Ext2Fs.makeDirectory at hrun
  rcases bind_eq_ok.mp hrun with ⟨⟨datablock, fs₂⟩, hinsert, hrun⟩
  rcases bind_eq_ok.mp hrun with ⟨sector, -, hrun⟩
  rcases bind_eq_ok.mp hrun with ⟨fs₃, hcount, hrun⟩
  rw [pure_eq_ok, Except.ok.injEq] at hrun
  subst hrun
  rcases insertInode_directory_ok hinsert with ⟨desc, fs₁, hdesc, halloc, hspb, hwritten⟩
  rcases h.allocFreeBlock_counted hb (by change entry.inode.toNat < 1024; omega) halloc with
    ⟨rfl, hcounted⟩
  have hdesc' := readDesc_of_lt fs h.firstDataBlock hpos
    (groupNum_toNat (show entry.inode.toNat / 1024 = 0 by omega)) (show 0 < 16 by decide)
  rw [hdesc, Option.some.injEq] at hdesc'
  have hinode : (insertInodeSector desc entry.inode).toNat = insertSector 4 n := by
    rw [insertInodeSector_toNat (by rw [hdesc', copyDesc_bgInodeTable, htable]) (by decide)
      (by omega), hentry]
  -- the inode goes into the table
  have hcounted₂ : Counted fs fs₂ countBlockSb countBlock := by
    rcases hwritten with ⟨herror, -⟩ | ⟨bits, rfl⟩
    · exact absurd herror (natCast_ne_error _)
    · exact hcounted.congr rfl (DiskOperations.numberOfSectors_writeSector _)
        fun x hx ↦ Store.cell_write_of_ne bits (by omega)
  -- and the new block behind the tables
  have haddr : (newDirAddress entry.inode ((37 + b : Nat) : Int)).toNat = 8 * (37 + b) := by
    rw [newDirAddress_toNat (by omega) (by omega)]
    omega
  have hcounted₃ : Counted fs ⟨fs₂.spb, fs₂.disk.writeSector
      (newDirAddress entry.inode ((37 + b : Nat) : Int)) sector⟩ countBlockSb countBlock :=
    hcounted₂.congr rfl (DiskOperations.numberOfSectors_writeSector _)
      fun x hx ↦ Store.cell_write_of_ne sector (by omega)
  exact hcounted₃.trans (hcounted₃.replicated.countDirectory (by omega) hcount)

-- The entry goes into the root's block, so that it is between the updates.
theorem makeNamed_counted (h : Live fs k b d) (hk : k < 200) {parent : Ext2Node}
    (hroot : parent.entry.inode = 2) (hparent : parent.inodeNum = 2) {op : DirOp}
    {s : List UInt8} (hlen : 11 ≤ s.length) (hshort : s.length < 24) (hname : 0 ∉ s)
    (htaken : ¬ Taken fs.disk s) (hslot : HasSlot fs.disk)
    {r : Int × Option Ext2Node × Ext2Filesystem}
    (hrun : Ext2Fs.makeNamed op fs parent s = .ok r) :
    Counted fs r.2.2 (callSb op) (callDesc op) := by
  have hbound := nextInode_bounds hk
  have ht : terminator fs.disk < 128 := hslot
  have hb := h.blocks_le
  rcases h.allocFreeInode hk hparent with ⟨fs₁, halloc, h₁, hn₁, hc₁⟩
  have hslots₁ : rootSlots fs₁.disk = rootSlots fs.disk :=
    rootSlots_congr fun x hlo hhi ↦ hc₁ x (by omega) (by omega) (by omega)
  rcases h.rootAt.addEntry_ok hroot op hlen hshort hname htaken hslot
    (show nextInode k < 2 ^ 31 by omega) halloc h₁.rootAt hslots₁ with ⟨fs₂, hadd, hspb₂, hn₂, hc₂⟩
  have hentry : ∀ x, x < 288 ∨ 296 ≤ x → fs₂.disk.content x = fs₁.disk.content x := by
    intro x hx
    rw [hc₂, if_neg (by omega)]
  have hcounted₁ := h.allocFreeInode_counted hk hparent halloc
  have hcounted₂ := hcounted₁.congr hspb₂ hn₂ fun x hx ↦ hentry x (by omega)
  unfold Ext2Fs.makeNamed at hrun
  cases op with
  | create =>
    simp only [hadd, ok_bind, pure_eq_ok, Except.ok.injEq] at hrun
    subst hrun
    exact hcounted₂
  | mkdir =>
    simp only [hadd, ok_bind] at hrun
    have h₂ : Live fs₂ (k + 1) b d := h₁.congr hspb₂ hn₂ fun x hx ↦ hentry x (by omega)
    have hinode : (dirEntry (UInt32.ofNat (nextInode k)) s).inode.toNat = nextInode k :=
      toNat_nextInode hk
    exact hcounted₂.trans
      (h₂.makeDirectory_counted (Nat.lt_succ_of_le hb) hinode hbound.1 hbound.2 hrun)

end Live

/-! ## Sessions -/

/-- The totals are at least what one group had when it was formatted, less what was taken. -/
structure Totalled (s : Session) : Prop where
  replicated : Replicated s.fs
  freeInodes : 1014 ≤ s.fs.spb.sFreeInodesCount.toNat + s.made.length
  freeBlocks : 32731 ≤ s.fs.spb.sFreeBlocksCount.toNat + s.mkdirs

section Sessions

variable {disk : DiskOperations} {s s' : Session} {c : Call}

theorem Serving.make_counted (h : Serving disk s) {op : DirOp} {parent : Ext2Node}
    (hdir : parent ∈ s.dirs) {entryName : List UInt8} {child : Option Ext2Node}
    {fs' : Ext2Filesystem}
    (hrun : ext2Make op s.fs parent entryName = .ok (ext2Success, child, fs')) :
    Counted s.fs fs' (callSb op) (callDesc op) := by
  have hsuccess : ext2Success ≠ ext2Error := by decide
  rcases ext2Make_formatted hrun with ⟨name, hname⟩
  cases name with
  | none =>
    rw [ext2Make_rejected hname, Except.ok.injEq, Prod.mk.injEq] at hrun
    exact absurd hrun.1.symm hsuccess
  | some name =>
    rcases h.make_cases hdir hname hrun with
      ⟨hroot, hshort, ⟨-, hr⟩ | ⟨htaken, hslot, -⟩⟩
    · rw [Prod.mk.injEq] at hr
      exact absurd hr.1 hsuccess
    · rw [ext2Make_accepted hname] at hrun
      exact h.live.makeNamed_counted h.made_lt (by rw [hroot, h.root_inode])
        (by rw [hroot, h.root_inodeNum]) (formattedName_length hname) hshort
        (formattedName_zeroFree hname) htaken hslot hrun

theorem Counted.totalled {op : DirOp} {fs' : Ext2Filesystem} {m : Made} (hserving : Serving disk s)
    (h : Totalled s) (hcounted : Counted s.fs fs' (callSb op) (callDesc op)) (hop : m.op = op) :
    Totalled { s with fs := fs', made := s.made ++ [m] } := by
  have hmade := hserving.made_lt
  have hmkdirs := hserving.live.blocks_le
  have hinodes := h.freeInodes
  have hblocks := h.freeBlocks
  have hinode := toNat_pred32 (show 0 < s.fs.spb.sFreeInodesCount.toNat by omega)
  have hblock := toNat_pred32 (show 0 < s.fs.spb.sFreeBlocksCount.toNat by omega)
  constructor
  case replicated => exact hcounted.replicated
  case freeInodes =>
    rw [List.length_append, List.length_singleton]
    simp only [hcounted.spb_eq]
    cases op with
    | mkdir =>
      change 1014 ≤ (s.fs.spb.sFreeInodesCount - 1).toNat + (s.made.length + 1)
      omega
    | create =>
      change 1014 ≤ (s.fs.spb.sFreeInodesCount - 1).toNat + (s.made.length + 1)
      omega
  case freeBlocks =>
    rw [Session.mkdirs_append, hop]
    simp only [hcounted.spb_eq]
    cases op with
    | mkdir =>
      change 32731 ≤ (s.fs.spb.sFreeBlocksCount - 1).toNat + (s.mkdirs + 1)
      omega
    | create => exact hblocks

-- A defined call that is not recorded has changed nothing.
theorem Serving.call_counted (hserving : Serving disk s) (hknows : s.Knows c)
    (hcall : s.call c = .ok s') :
    s' = s ∨ ∃ fs' m, m.op = c.op ∧ Counted s.fs fs' (callSb c.op) (callDesc c.op) ∧
      s' = { s with fs := fs', made := s.made ++ [m] } := by
  rcases hserving.call_cases hknows hcall with rfl | ⟨name, fs', -, hname, -, htaken, -, -, rfl⟩
  · exact Or.inl rfl
  · unfold Session.call at hcall
    rw [hname, ok_bind] at hcall
    rcases bind_eq_ok.mp hcall with ⟨⟨status, node, fs₁⟩, hmake, hcall⟩
    rcases hserving.make_cases hknows hname hmake with ⟨-, -, ⟨htaken', -⟩ | ⟨-, -, fs₂, hr, -⟩⟩
    · exact absurd htaken' htaken
    · rw [Prod.mk.injEq, Prod.mk.injEq] at hr
      rcases hr with ⟨rfl, rfl, rfl⟩
      simp only [if_true, pure_eq_ok, Except.ok.injEq] at hcall
      rw [← hcall]
      exact Or.inr ⟨fs₁, _, rfl, hserving.make_counted hknows hmake, rfl⟩

theorem Serving.call_totalled (hserving : Serving disk s) (h : Totalled s) (hknows : s.Knows c)
    (hcall : s.call c = .ok s') : Totalled s' := by
  rcases hserving.call_counted hknows hcall with rfl | ⟨fs', m, hop, hcounted, rfl⟩
  · exact h
  · exact Counted.totalled hserving h hcounted hop

theorem Session.Fresh.totalled (h : s.Fresh disk) (hpos : 1 ≤ disk.groups)
    (hfew : disk.groups ≤ 16) : Totalled s := by
  rcases h with ⟨hmount, hmade⟩
  rcases exists_mounted hpos hfew with ⟨disk', hformatted, hmount'⟩
  rcases mounted_unique hmount hmount' with ⟨hfs, -⟩
  have hblocks := newSb_sFreeBlocksCount disk hpos
  have hinodes := newSb_sFreeInodesCount disk hpos
  have hpred := toNat_pred32 (show 0 < disk.newSb.sFreeBlocksCount.toNat by omega)
  constructor
  case replicated =>
    rw [hfs]
    exact replicated_newFs hformatted hpos
  case freeInodes =>
    rw [hfs]
    change 1014 ≤ disk.newSb.sFreeInodesCount.toNat + _
    omega
  case freeBlocks =>
    rw [hfs]
    change 32731 ≤ (disk.newSb.sFreeBlocksCount - 1).toNat + _
    omega

theorem InUse.totalled (h : InUse disk s) (hpos : 1 ≤ disk.groups) (hfew : disk.groups ≤ 16) :
    Serving disk s ∧ Totalled s :=
  Reachable.invariant (fun s ↦ Serving disk s ∧ Totalled s)
    (fun _ hs ↦ ⟨(Session.Fresh.serving hs hpos hfew).1, hs.totalled hpos hfew⟩)
    (fun _ _ _ hs hknows hcall ↦
      ⟨hs.1.call hknows hcall, hs.1.call_totalled hs.2 hknows hcall⟩) h

end Sessions

/-! ## Successful calls of ext2_mkdir -/

theorem Replicated.storedDesc_eq {fs : Ext2Filesystem} (h : Replicated fs) {j g : Nat}
    (hj : j < fs.disk.groups) (hg : g < 16) : fs.disk.storedDesc j g = fs.descs[g] := by
  have hsector : 262144 * j + 8 + g / 16 = 262144 * j + 8 := by omega
  have hslot : g % 16 = g := by omega
  unfold DiskOperations.storedDesc
  simp only [hsector, hslot, h.descs j hj]
  rfl

theorem dirCounted_liveDesc {k b d : Nat} (hk : k < 200) (hb : b ≤ k) (hd : d < 200) :
    DirCounted (liveDesc k b d) (callDesc .mkdir (liveDesc k b d)) := by
  have hlive : callDesc .mkdir (liveDesc k b d) = liveDesc (k + 1) (b + 1) (d + 1) := by
    change countDir (countBlock (countInode (liveDesc k b d))) = _
    rw [countInode_liveDesc hk, countBlock_liveDesc (by omega)]
    change { liveDesc (k + 1) (b + 1) d with bgUsedDirsCount := UInt16.ofNat (1 + d) + 1 } = _
    unfold liveDesc
    rw [← Nat.add_assoc, UInt16.ofNat_add (1 + d)]
    rfl
  rw [hlive]
  constructor
  case freeInodes =>
    simp [liveDesc]
    omega
  case freeBlocks =>
    simp [liveDesc]
    omega
  case usedDirs =>
    simp [liveDesc]
    omega
  case others => rfl

section Mkdir

variable {disk : DiskOperations} {s : Session} {parent : Ext2Node} {entryName : List UInt8}
  {child : Option Ext2Node} {fs' : Ext2Filesystem}

-- On more than sixteen groups no call with an accepted name returns.
theorem InUse.few_of_success (h : InUse disk s) (op : DirOp) (hdir : parent ∈ s.dirs)
    (hrun : ext2Make op s.fs parent entryName = .ok (ext2Success, child, fs')) :
    disk.groups ≤ 16 := by
  apply Nat.le_of_not_lt
  intro hmany
  rcases ext2Make_formatted hrun with ⟨name, hname⟩
  cases name with
  | none =>
    rw [ext2Make_rejected hname, Except.ok.injEq, Prod.mk.injEq] at hrun
    exact absurd hrun.1.symm (show ext2Success ≠ ext2Error by decide)
  | some name =>
    rw [(h.fresh hmany).make_undefined hmany hdir hname] at hrun
    cases hrun

/-- A successful call counts the new directory in its own group, in every copy, and nowhere else. -/
theorem directoryCounted (h : InUse disk s) (hpos : 1 ≤ disk.groups) (hdir : parent ∈ s.dirs)
    (hrun : ext2Mkdir s.fs parent entryName = .ok (ext2Success, child, fs')) :
    ∃ node, child = some node ∧ DirectoryCounted s.fs fs' (node.entry.inode.toNat / 1024) := by
  rcases h.make_success hpos .mkdir hdir hrun with ⟨hserving, name, hchild, -⟩
  have hfew := h.few_of_success .mkdir hdir hrun
  refine ⟨_, hchild, ?_⟩
  have htotal := (h.totalled hpos hfew).2
  have hcounted : Counted s.fs fs' (callSb .mkdir) (callDesc .mkdir) :=
    hserving.make_counted hdir hrun
  have hlive := hserving.live
  have hmade := hserving.made_lt
  have hmkdirs := hlive.blocks_le
  have hgroups : s.fs.disk.groups = disk.groups := groups_congr hserving.sectors_eq
  have hgroups' : fs'.disk.groups = s.fs.disk.groups := groups_congr hcounted.sectors_eq
  have hinodes := htotal.freeInodes
  have hblocks := htotal.freeBlocks
  have hbound := nextInode_bounds hmade
  have hgroup : (newNode .mkdir (nextInode s.made.length) name).entry.inode.toNat / 1024 = 0 := by
    have hinode : (newNode .mkdir (nextInode s.made.length) name).entry.inode.toNat =
        nextInode s.made.length := toNat_nextInode hmade
    omega
  rw [hgroup]
  constructor
  case group_lt => omega
  case group =>
    intro j hj
    rw [htotal.replicated.storedDesc_eq hj (by decide),
      hcounted.replicated.storedDesc_eq (by omega) (by decide)]
    simp only [hcounted.descs_eq, Vector.getElem_set_self, hlive.desc]
    exact dirCounted_liveDesc hmade hmkdirs (by omega)
  case others =>
    intro j hj k hk hne
    rw [htotal.replicated.storedDesc_eq hj (by omega),
      hcounted.replicated.storedDesc_eq (by omega) (by omega)]
    simp only [hcounted.descs_eq]
    rw [Vector.getElem_set_ne _ _ (Ne.symm hne)]
  case freeInodes =>
    rw [hcounted.spb_eq]
    exact toNat_pred32 (by omega)
  case freeBlocks =>
    rw [hcounted.spb_eq]
    exact toNat_pred32 (show 0 < s.fs.spb.sFreeBlocksCount.toNat by omega)
  case before => exact htotal.replicated.toSuperBlocksCopied
  case after => exact hcounted.replicated.toSuperBlocksCopied

theorem directoryCounted_zeroedDisk : ∃ s child fs', InUse (zeroedDisk 262144) s ∧
    ext2Mkdir s.fs s.root [0x41] = .ok (ext2Success, child, fs') ∧
    ∃ node, child = some node ∧ DirectoryCounted s.fs fs' (node.entry.inode.toNat / 1024) := by
  rcases zeroedDisk_make .mkdir with ⟨s, fs', hfresh, hrun, -⟩
  have huse : InUse (zeroedDisk 262144) s := .start hfresh
  exact ⟨s, _, fs', huse, hrun, directoryCounted huse (by decide) List.mem_cons_self hrun⟩

end Mkdir

end Ext2Fs
