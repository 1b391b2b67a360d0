import Ext2Fs.Spec.Live

/-!
# What a new entry changes

The state after a successful `ext2_mkdir` or `ext2_create` in the root: one more inode, one more
entry, and for a directory one more block and a slot of the inode table.
-/

open Reasoning

namespace Ext2Fs

/-! ## The directory's own sector -/

def newDirEntries (self parent : UInt32) : Vector Ext2DirEntry 16 :=
  entriesOf [dirEntry self dotName, dirEntry parent dotdotName]

theorem newDirSector_eq {self parent : UInt32} (hself : self.toNat < 2 ^ 31)
    (hparent : parent.toNat < 2 ^ 31) :
    newDirSector self parent = .ok (asEntries.symm (newDirEntries self parent)) := by
  have hback : ∀ n : UInt32, UInt32.ofInt (n.toNat : Int) = n := fun n ↦ by
    rw [ofInt_natCast, UInt32.ofNat_toNat]
  have hdot := fillEntry_zero (show (0 : Int) ≤ toCInt self by rw [toCInt_of_lt hself]; omega)
    (show dotName ≠ noMoreName by decide) (by decide)
  have hdotdot := fillEntry_zero (show (0 : Int) ≤ toCInt parent by rw [toCInt_of_lt hparent]; omega)
    (show dotdotName ≠ noMoreName by decide) (by decide)
  have hend := fillEntry_noMore (show (0 : Int) ≤ toCInt self by rw [toCInt_of_lt hself]; omega)
  rw [toCInt_of_lt hself, hback] at hdot
  rw [toCInt_of_lt hparent, hback] at hdotdot
  rw [toCInt_of_lt hself] at hend
  unfold newDirSector
  simp only [forEach_cons, forEach_nil, toCInt_of_lt hself, toCInt_of_lt hparent]
  rw [← asEntries_symm_nil, fillEntry_append (by rfl) (show 0 < 16 by decide) hdot, ok_bind,
    fillEntry_append (by rfl) (show 1 < 16 by decide) hdotdot, ok_bind,
    fillEntry_append (by rfl) (show 2 < 16 by decide) hend, ok_bind, entriesOf_append_zero]
  rfl

/-! ## The counter of directories -/

-- `bg_used_dirs_count++`.
theorem Live.countDirectory {fs : Ext2Filesystem} {k b d : Nat} (h : Live fs k b d) {n : UInt32}
    (hn : n.toNat < 1024) (buf : Sector) :
    ∃ fs', Ext2Fs.countDirectory fs n buf = .ok fs' ∧ Live fs' k b (d + 1) ∧
      fs'.disk.numberOfSectors = fs.disk.numberOfSectors ∧
      ∀ x, x % 262144 ≠ 8 → fs'.disk.content x = fs.disk.content x := by
  have hpos := h.groups_pos
  have hread := readSector_descs fs h.firstDataBlock hpos (some buf)
  have hgroup : (n / inodesPerGroup).toNat = 0 := by
    simp
    omega
  let count (desc : Ext2GroupDesc) : Ext2GroupDesc :=
    { desc with bgUsedDirsCount := desc.bgUsedDirsCount + 1 }
  obtain ⟨sector, hsector⟩ : ∃ s, s = asDescs.symm (fs.descs.set 0 (count fs.descs[0])) := ⟨_, rfl⟩
  have hc : ∀ x, (writeDescSectors fs.disk fs.spb sector).content x =
      if x % 262144 = 8 ∧ x / 262144 < fs.disk.groups then sector else fs.disk.content x :=
    content_writeDescSectors h.firstDataBlock sector
  have hn' : (writeDescSectors fs.disk fs.spb sector).numberOfSectors = fs.disk.numberOfSectors :=
    numberOfSectors_writeDescSectors sector
  refine ⟨⟨fs.spb, writeDescSectors fs.disk fs.spb sector⟩, ?_, ?_, hn', fun x hx ↦ ?_⟩
  · unfold Ext2Fs.countDirectory
    rw [hread, determinate_some, ok_bind, hgroup, modifyAt_of_lt _ _ (by decide), ok_bind, hsector]
    rfl
  · constructor
    case firstDataBlock => exact h.firstDataBlock
    case groups_pos =>
      rw [groups_congr hn']
      exact hpos
    case desc =>
      have hdescs : Ext2Filesystem.descs ⟨fs.spb, writeDescSectors fs.disk fs.spb sector⟩ =
          fs.descs.set 0 (count fs.descs[0]) := by
        rw [Ext2Filesystem.descs, hc, if_pos (by omega), hsector, Equiv.apply_symm_apply]
      simp only [hdescs, Vector.getElem_set_self, h.desc]
      change _ = liveDesc k b (d + 1)
      simp only [count, liveDesc, ← Nat.add_assoc]
      rw [UInt16.ofNat_add (1 + d)]
      rfl
    case rootInode => rw [hc, if_neg (by omega), h.rootInode]
    case blockBitmap => rw [hc, if_neg (by omega), h.blockBitmap]
    case inodeBitmap => rw [hc, if_neg (by omega), h.inodeBitmap]
    case blocks_le => exact h.blocks_le
    case inodes_le => exact h.inodes_le
  · rw [hc, if_neg (by omega)]

/-! ## The inode of a directory -/

-- Where `insert_inode` puts the inode of a new directory.
theorem insertSector_bounds {n : Nat} (hlo : 11 ≤ n) (hhi : n < 412) :
    32 < insertSector 4 n ∧ insertSector 4 n < 288 := by
  unfold insertSector
  omega

theorem Live.makeDirectory {fs : Ext2Filesystem} {k b d : Nat} (h : Live fs k b d) (hb : b < k)
    {parent : Ext2Node} (hparent : parent.entry.inode = 2) {entry : Ext2DirEntry} {n : Nat}
    (hentry : entry.inode = UInt32.ofNat n) (hlo : 11 ≤ n) (hhi : n < 412) :
    ∃ fs', Ext2Fs.makeDirectory fs parent entry =
        .ok (ext2Success, some { entry := entry, inodeNum := 0 }, fs') ∧
      Live fs' k (b + 1) (d + 1) ∧ fs'.disk.numberOfSectors = fs.disk.numberOfSectors ∧
      ∀ x, 25 ≤ x → x < 296 → fs'.disk.content x =
        if x = insertSector 4 n then
          insertedSector fs 4 n (setDatablock (UInt32.ofNat (37 + b)) ∘ initDirInode)
        else fs.disk.content x := by
  have hpos := h.groups_pos
  have hfit := fs.disk.groups_fit
  have hbound := insertSector_bounds hlo hhi
  have hle := h.inodes_le
  have hnat : entry.inode.toNat = n := by
    rw [hentry]
    simp
    omega
  have htable : fs.descs[0].bgInodeTable.toNat = 4 := by
    rw [h.desc]
    rfl
  obtain ⟨fs₁, halloc, h₁, hn₁, hc₁⟩ := h.allocFreeBlock hb
    (show ({ entry := entry, inodeNum := 0 } : Ext2Node).entry.inode.toNat < 1024 by rw [hnat]; omega)
  obtain ⟨fs₂, hinsert, hspb₂, hn₂, hc₂⟩ := insertInode_directory (n := entry.inode) h.firstDataBlock
    (show entry.inode.toNat / 1024 = 0 by omega) hpos (by decide) htable (by decide)
    (show attrDirectory ≠ attrArchive by decide) halloc hn₁
  rw [hnat] at hc₂
  have h₂ : Live fs₂ k (b + 1) d := by
    refine h₁.congr hspb₂ (by rw [hn₂, hn₁]) fun x hx ↦ ?_
    rw [hc₂, if_neg (by omega)]
  -- the block that was allocated, addressed from the start of group 0
  have haddr : (newDirAddress entry.inode ((37 + b : Nat) : Int)).toNat = 8 * (37 + b) := by
    rw [newDirAddress_toNat (by omega) (by omega)]
    omega
  have hdir := newDirSector_eq (show entry.inode.toNat < 2 ^ 31 by rw [hnat]; omega)
    (show parent.entry.inode.toNat < 2 ^ 31 by rw [hparent]; decide)
  obtain ⟨disk₃, hdisk₃⟩ : ∃ disk, disk = fs₂.disk.writeSector
      (newDirAddress entry.inode ((37 + b : Nat) : Int))
      (asEntries.symm (newDirEntries entry.inode parent.entry.inode)) := ⟨_, rfl⟩
  have hn₃ : disk₃.numberOfSectors = fs₂.disk.numberOfSectors := by
    rw [hdisk₃, DiskOperations.numberOfSectors_writeSector]
  have hc₃ : ∀ x, x ≠ 8 * (37 + b) → disk₃.content x = fs₂.disk.content x := by
    intro x hx
    rw [hdisk₃, DiskOperations.content_writeSector _ (by rw [haddr, hn₂]; omega), haddr, if_neg hx]
  have h₃ : Live ⟨fs₂.spb, disk₃⟩ k (b + 1) d :=
    h₂.congr rfl hn₃ fun x hx ↦ hc₃ x (by omega)
  obtain ⟨fs', hcount, h', hn', hc'⟩ := h₃.countDirectory (n := entry.inode) (by rw [hnat]; omega)
    (asEntries.symm (newDirEntries entry.inode parent.entry.inode))
  refine ⟨fs', ?_, h', ?_, fun x hlox hhix ↦ ?_⟩
  · unfold newDirAddress at hdisk₃
    unfold Ext2Fs.makeDirectory
    simp only [hinsert, ok_bind, hdir, ← hdisk₃, hcount]
    rfl
  · rw [hn', hn₃, hn₂]
  · rw [hc' x (by omega), hc₃ x (by omega), hc₂]
    split
    · rfl
    · exact hc₁ x (by omega) (by omega) (by omega)

/-! ## A new entry in the root -/

/-- The node that a successful call returns. -/
def newNode (op : DirOp) (n : Nat) (s : List UInt8) : Ext2Node where
  entry := dirEntry (UInt32.ofNat n) s
  inodeNum := match op with
    | .mkdir => 0
    | .create => UInt32.ofNat n

/-- `op` made the entry `s` for the next inode. -/
structure Makes (op : DirOp) (fs fs' : Ext2Filesystem) (s : List UInt8) (k b d : Nat) : Prop where
  live : Live fs' (k + 1) (if op = .mkdir then b + 1 else b) (if op = .mkdir then d + 1 else d)
  sectors_eq : fs'.disk.numberOfSectors = fs.disk.numberOfSectors
  slots : rootSlots fs'.disk = (rootSlots fs.disk).set (terminator fs.disk)
    (filledEntry (blockSlot fs.disk 36 (terminator fs.disk)) s (UInt32.ofNat (nextInode k)))
  table : ∀ x, 32 ≤ x → x < 288 → fs'.disk.content x =
    if op = .mkdir ∧ x = insertSector 4 (nextInode k) then
      insertedSector fs 4 (nextInode k) (setDatablock (UInt32.ofNat (37 + b)) ∘ initDirInode)
    else fs.disk.content x

-- Both operations succeed in the root on a new name, while a slot is left.
theorem Live.makeNamed {fs : Ext2Filesystem} {k b d : Nat} (h : Live fs k b d) (hk : k < 200)
    {parent : Ext2Node} (hroot : parent.entry.inode = 2) (hparent : parent.inodeNum = 2)
    (op : DirOp) {s : List UInt8} (hlen : 11 ≤ s.length) (hshort : s.length < 24) (hname : 0 ∉ s)
    (htaken : ¬ Taken fs.disk s) (hslot : HasSlot fs.disk) :
    ∃ fs', Ext2Fs.makeNamed op fs parent s =
        .ok (ext2Success, some (newNode op (nextInode k) s), fs') ∧ Makes op fs fs' s k b d := by
  have hbound := nextInode_bounds hk
  have hins := insertSector_bounds hbound.1 hbound.2
  have ht : terminator fs.disk < 128 := hslot
  obtain ⟨fs₁, halloc, h₁, hn₁, hc₁⟩ := h.allocFreeInode hk hparent
  have hslots₁ : rootSlots fs₁.disk = rootSlots fs.disk :=
    rootSlots_congr fun x hlo hhi ↦ hc₁ x (by omega) (by omega) (by omega)
  obtain ⟨fs₂, hadd, hspb₂, hn₂, hc₂⟩ := h.rootAt.addEntry_ok hroot op hlen hshort hname htaken
    hslot (show nextInode k < 2 ^ 31 by omega) halloc h₁.rootAt hslots₁
  have h₂ : Live fs₂ (k + 1) b d := by
    refine h₁.congr hspb₂ hn₂ fun x hx ↦ ?_
    rw [hc₂, if_neg (by omega)]
  have hslots₂ : rootSlots fs₂.disk = (rootSlots fs.disk).set (terminator fs.disk)
      (filledEntry (blockSlot fs.disk 36 (terminator fs.disk)) s (UInt32.ofNat (nextInode k))) := by
    refine rootSlots_update (fun old ↦ filledEntry old s (UInt32.ofNat (nextInode k)))
      fun x hlo hhi ↦ ?_
    rw [hc₂, hc₁ x (by omega) (by omega) (by omega)]
  have htable₂ : ∀ x, 32 ≤ x → x < 288 → fs₂.disk.content x = fs.disk.content x := by
    intro x hlo hhi
    rw [hc₂, if_neg (by omega), hc₁ x (by omega) (by omega) (by omega)]
  cases op with
  | create =>
    refine ⟨fs₂, ?_, h₂, by rw [hn₂, hn₁], hslots₂, fun x hlo hhi ↦ ?_⟩
    · unfold Ext2Fs.makeNamed
      simp only [hadd, ok_bind, ofInt_natCast]
      rfl
    · rw [if_neg (by simp), htable₂ x hlo hhi]
  | mkdir =>
    have hb : b < k + 1 := Nat.lt_succ_of_le h.blocks_le
    obtain ⟨fs₃, hmake, h₃, hn₃, hc₃⟩ := h₂.makeDirectory hb hroot
      (show (dirEntry (UInt32.ofNat (nextInode k)) s).inode = UInt32.ofNat (nextInode k) from rfl)
      hbound.1 hbound.2
    refine ⟨fs₃, ?_, h₃, by rw [hn₃, hn₂, hn₁], ?_, fun x hlo hhi ↦ ?_⟩
    · unfold Ext2Fs.makeNamed
      simp only [hadd, ok_bind, hmake]
      rfl
    · rw [← hslots₂]
      refine rootSlots_congr fun x hlo hhi ↦ ?_
      rw [hc₃ x (by omega) (by omega), if_neg (by omega)]
    · rw [hc₃ x (by omega) (by omega)]
      unfold insertedSector
      rw [htable₂ _ (by omega) (by omega), htable₂ x hlo hhi]
      simp

end Ext2Fs
