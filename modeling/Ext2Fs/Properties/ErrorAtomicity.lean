import Ext2Fs.Properties.Accounting
import Ext2Fs.Spec.Session

/-!
# Errors change nothing

`ext2_mkdir` and `ext2_create` return `EXT2_ERROR` for a name that `format_name` rejects and for one
that is there already.  Every other obstacle is met by a path that returns no value.
-/

open Reasoning

namespace Ext2Fs

/-! ## Obstacles -/

/-- The name is that of an entry of the directory. -/
def NameTaken (fs : Ext2Filesystem) (parent : Ext2Node) (name : List UInt8) : Prop :=
  ∃ slots, dirSlots fs parent = .ok slots ∧ ∃ entry ∈ visited slots, entry.holds name

/-- No slot of the directory is a `DIR_ENTRY_NO_MORE`. -/
def NoFreeSlot (fs : Ext2Filesystem) (parent : Ext2Node) : Prop :=
  ∃ slots, dirSlots fs parent = .ok slots ∧ ∀ entry ∈ slots, ¬ entry.isNoMore

/-- Every bit for an inode is set. -/
def NoFreeInode (fs : Ext2Filesystem) : Prop :=
  ∀ g, g < fs.disk.groups → ∀ desc, readDesc fs (UInt32.ofNat g) = some desc →
    ∀ i, i < 1024 → fs.disk.blockBit desc.bgInodeBitmap i = true

/-- Every bit for a block is set. -/
def NoFreeBlock (fs : Ext2Filesystem) : Prop :=
  ∀ g, g < fs.disk.groups → ∀ desc, readDesc fs (UInt32.ofNat g) = some desc →
    ∀ i, i < 32768 → fs.disk.blockBit desc.bgBlockBitmap i = true

/-- What must make the call return `EXT2_ERROR`. -/
def MustFail (op : DirOp) (fs : Ext2Filesystem) (parent : Ext2Node) (entryName : List UInt8) :
    Prop :=
  formattedName op entryName = .ok none ∨
    (∃ name, formattedName op entryName = .ok (some name) ∧ NameTaken fs parent name) ∨
    NoFreeInode fs ∨ NoFreeSlot fs parent ∨ (op = .mkdir ∧ NoFreeBlock fs)

/-- The call finishes, returns `EXT2_ERROR` at every obstacle, and in that case has changed neither
the superblock in memory nor the disk. -/
def ErrorAtomic (op : DirOp) (fs : Ext2Filesystem) (parent : Ext2Node) (entryName : List UInt8) :
    Prop :=
  ∃ r node fs', ext2Make op fs parent entryName = .ok (r, node, fs') ∧
    (r = ext2Error → fs'.spb = fs.spb ∧ fs'.disk = fs.disk) ∧
    (MustFail op fs parent entryName → r = ext2Error)

/-- The calls that the code handles: the name is rejected, or the disk has at most sixteen groups,
the parent is the root, the name fits an entry, and it is there already or the root has a slot
left. -/
def Handled (disk : DiskOperations) (s : Session) (op : DirOp) (parent : Ext2Node)
    (entryName : List UInt8) : Prop :=
  formattedName op entryName = .ok none ∨
    ∃ name, formattedName op entryName = .ok (some name) ∧ disk.groups ≤ 16 ∧ parent = s.root ∧
      name.length < 24 ∧ (NameTaken s.fs parent name ∨
        ∃ slots, dirSlots s.fs parent = .ok slots ∧ ∃ entry ∈ slots, entry.isNoMore)

/-! ## The root of a disk of at most sixteen groups -/

section RootObstacles

variable {disk : DiskOperations} {s : Session} (h : Serving disk s)

include h

theorem Serving.nameTaken_iff (name : List UInt8) :
    NameTaken s.fs s.root name ↔ Taken s.fs.disk name := by
  unfold NameTaken
  rw [h.dirSlots_root]
  simp [Taken]

theorem Serving.exists_slot_iff :
    (∃ slots, dirSlots s.fs s.root = .ok slots ∧ ∃ entry ∈ slots, entry.isNoMore) ↔
      HasSlot s.fs.disk := by
  rw [h.dirSlots_root, ← exists_noMore_iff]
  simp

theorem Serving.readDesc_zero : readDesc s.fs (UInt32.ofNat 0) =
    some (copyDesc (getElem s.fs.descs 0 firstRecord_lt)) :=
  readDesc_of_lt s.fs h.live.firstDataBlock h.live.groups_pos rfl (by decide)

-- The upper inodes are never handed out before the root is full.
theorem Serving.not_noFreeInode : ¬ NoFreeInode s.fs := by
  intro hfull
  have hbit := hfull 0 h.live.groups_pos _ h.readDesc_zero 1023 (by decide)
  have hmap : (copyDesc s.fs.descs[0]).bgInodeBitmap = 3 := by
    rw [copyDesc_bgInodeBitmap, h.live.desc]
    rfl
  have hlt := h.made_lt
  have hrun : inodeRun s.made.length 127 = 0 := by
    unfold inodeRun
    rw [if_neg (by decide), if_neg (by decide)]
    omega
  rw [hmap] at hbit
  change bitAt (s.fs.disk.content 24) 1023 = true at hbit
  rw [h.live.inodeBitmap, bitAt_leadingRuns (by decide) (inodeRun_le _ _)] at hbit
  change decide (1023 % 8 < inodeRun s.made.length 127) = true at hbit
  rw [hrun] at hbit
  exact absurd hbit (by decide)

theorem Serving.not_noFreeBlock : ¬ NoFreeBlock s.fs := by
  intro hfull
  have hlt := h.made_lt
  have hle := h.live.blocks_le
  have hbit := hfull 0 h.live.groups_pos _ h.readDesc_zero (37 + s.mkdirs) (by omega)
  have hmap : (copyDesc s.fs.descs[0]).bgBlockBitmap = 2 := by
    rw [copyDesc_bgBlockBitmap, h.live.desc]
    rfl
  have hsector : ((2 : UInt32) * sectorsPerBlock).toNat + (37 + s.mkdirs) / 4096 = 16 := by
    rw [show ((2 : UInt32) * sectorsPerBlock).toNat = 16 from rfl]
    omega
  rw [hmap, DiskOperations.blockBit, hsector, Nat.mod_eq_of_lt (by omega), h.live.blockBitmap,
    bitAt_onesPrefix (by omega), decide_eq_true_iff] at hbit
  omega

end RootObstacles

/-! ## Every call -/

theorem errorAtomic_of_handled {disk : DiskOperations} (hpos : 1 ≤ disk.groups) {s : Session}
    (h : InUse disk s) {op : DirOp} {parent : Ext2Node} {entryName : List UInt8}
    (hhandled : Handled disk s op parent entryName) : ErrorAtomic op s.fs parent entryName := by
  obtain hname | ⟨name, hname, hfew, rfl, hlen, hcases⟩ := hhandled
  · exact ⟨_, _, _, ext2Make_rejected hname, fun _ ↦ ⟨rfl, rfl⟩, fun _ ↦ rfl⟩
  have hserving := h.serving hpos hfew
  have hroot := hserving.root_inode
  have h11 := formattedName_length hname
  have h0 := formattedName_zeroFree hname
  rw [hserving.nameTaken_iff, hserving.exists_slot_iff] at hcases
  by_cases htaken : Taken s.fs.disk name
  · have hadd := hserving.live.rootAt.addEntry_taken hroot op h11 h0
      (fun _ _ ↦ Or.inl hlen) htaken
    refine ⟨ext2Error, none, s.fs, ?_, fun _ ↦ ⟨rfl, rfl⟩, fun _ ↦ rfl⟩
    rw [ext2Make_accepted hname, makeNamed_of_addEntry_none hadd]
  · have hslot := hcases.resolve_left htaken
    obtain ⟨fs', hmake, -⟩ := hserving.live.makeNamed hserving.made_lt hroot
      hserving.root_inodeNum op h11 hlen h0 htaken hslot
    refine ⟨_, _, _, by rw [ext2Make_accepted hname, hmake], fun herr ↦ absurd herr (by decide), ?_⟩
    -- none of the obstacles is there
    rintro (hrejected | ⟨name', hname', htaken'⟩ | hinode | ⟨slots, hslots, hnone⟩ | ⟨-, hblock⟩)
    · rw [hname] at hrejected
      cases hrejected
    · rw [hname] at hname'
      cases hname'
      exact absurd ((hserving.nameTaken_iff name).mp htaken') htaken
    · exact absurd hinode hserving.not_noFreeInode
    · obtain ⟨slots', hslots', entry, hmem, hentry⟩ := hserving.exists_slot_iff.mpr hslot
      rw [hslots] at hslots'
      cases hslots'
      exact absurd hentry (hnone entry hmem)
    · exact absurd hblock hserving.not_noFreeBlock

theorem handled_of_defined {disk : DiskOperations} (hpos : 1 ≤ disk.groups) {s : Session}
    (h : InUse disk s) {op : DirOp} {parent : Ext2Node} (hdir : parent ∈ s.dirs)
    {entryName : List UInt8} {r : Int × Option Ext2Node × Ext2Filesystem}
    (hrun : ext2Make op s.fs parent entryName = .ok r) : Handled disk s op parent entryName := by
  obtain ⟨name, hname⟩ := ext2Make_formatted hrun
  cases name with
  | none => exact Or.inl hname
  | some name =>
    by_cases hfew : disk.groups ≤ 16
    · have hserving := h.serving hpos hfew
      obtain ⟨rfl, hlen, hcases⟩ := hserving.make_cases hdir hname hrun
      refine Or.inr ⟨name, hname, hfew, rfl, hlen, ?_⟩
      rw [hserving.nameTaken_iff, hserving.exists_slot_iff]
      exact hcases.imp (·.1) (·.2.1)
    · rw [(h.fresh (by omega)).make_undefined (by omega) hdir hname] at hrun
      cases hrun

-- `format_name` stops at a character that no name has.
theorem formattedName_blank : formattedName .mkdir [0x20] = .ok none := by
  have hformat : formatName (NameBuffer.ofString [0x20]) =
      .ok (ext2Error, NameBuffer.ofString [0x20]) := by
    rw [formatName, cString_ofString (by decide) (by decide)]
    rfl
  unfold formattedName
  rw [show loadName .mkdir [0x20] = .ok (NameBuffer.ofString [0x20]) from rfl, ok_bind, hformat,
    ok_bind]
  rfl

/-- Errors are atomic exactly for the calls that the code handles. -/
theorem errorAtomic_iff {disk : DiskOperations} (hpos : 1 ≤ disk.groups) {s : Session}
    (h : InUse disk s) {op : DirOp} {parent : Ext2Node} (hdir : parent ∈ s.dirs)
    {entryName : List UInt8} :
    ErrorAtomic op s.fs parent entryName ↔ Handled disk s op parent entryName :=
  ⟨fun ⟨_, _, _, hrun, _⟩ ↦ handled_of_defined hpos h hdir hrun, errorAtomic_of_handled hpos h⟩

/-- A blank, which is no name, in a root with a new directory. -/
theorem errorAtomic_iff_zeroedDisk : ∃ s : Session, InUse (zeroedDisk 262144) s ∧
    s.made.length = 1 ∧ ext2Make .mkdir s.fs s.root [0x20] = .ok (ext2Error, none, s.fs) ∧
    (ErrorAtomic .mkdir s.fs s.root [0x20] ↔
      Handled (zeroedDisk 262144) s .mkdir s.root [0x20]) := by
  obtain ⟨s₀, s, -, -, hinuse, -, hmade, -⟩ := zeroedDisk_call .mkdir
  exact ⟨s, hinuse, by rw [hmade]; rfl, ext2Make_rejected formattedName_blank,
    errorAtomic_iff (by decide) hinuse List.mem_cons_self⟩

/-! ## A full root

On a disk whose sectors were filled with letters the format leaves thirteen free slots in the root,
and no other entry there holds a name. -/

/-- One group of sectors filled with the letter `A`. -/
def filledDisk : DiskOperations :=
  DiskOperations.ofContents 262144 fun _ ↦ Vector.replicate 512 0x41

/-- The letter `i`, padded with blanks. -/
def letterName (i : Nat) : List UInt8 := UInt8.ofNat (0x41 + i) :: List.replicate 10 0x20

theorem formattedName_letterName {i : Nat} (hi : i < 14) :
    formattedName .create [UInt8.ofNat (0x41 + i)] = .ok (some (letterName i)) := by
  apply formattedName_letter
  have hmod : (0x41 + i) % 256 = 0x41 + i := by omega
  simp [isUpper, UInt8.le_iff_toNat_le, hmod]
  omega

/-- `j` letters were entered on the filled disk. -/
structure Filling (s : Session) (j : Nat) : Prop where
  inUse : InUse filledDisk s
  blank : ∀ entry ∈ rootSlots s.fs.disk, entry.isNoMore → entry = Ext2DirEntry.zero
  names : ∀ entry ∈ rootSlots s.fs.disk, ∀ name, 11 ≤ name.length → entry.holds name →
    ∃ i, i < j ∧ name = letterName i
  free : (rootSlots s.fs.disk).countP (·.isNoMore) + j = 13

theorem letterName_inj {i j : Nat} (hi : i < 14) (hj : j < 14) (h : letterName i = letterName j) :
    i = j := by
  have hhead := congrArg UInt8.toNat (List.cons.inj h).1
  simp at hhead
  omega

theorem Filling.not_taken {s : Session} {j : Nat} (h : Filling s j) (hj : j < 14) :
    ¬ Taken s.fs.disk (letterName j) := by
  rintro ⟨entry, hmem, hholds⟩
  obtain ⟨i, hi, heq⟩ := h.names entry (visited_subset _ hmem) (letterName j)
    (by simp [letterName]) hholds
  have hij := letterName_inj hj (by omega) heq
  omega

theorem filledDisk_serving {s : Session} (h : InUse filledDisk s) : Serving filledDisk s :=
  h.serving (by decide) (by decide)

-- One letter more.
theorem Filling.step {s : Session} {j : Nat} (h : Filling s j) (hj : j < 13) :
    ∃ s', Filling s' (j + 1) := by
  have hserving := filledDisk_serving h.inUse
  have hname := formattedName_letterName (show j < 14 by omega)
  have h0 := formattedName_zeroFree hname
  have h11 := formattedName_length hname
  have hslot : HasSlot s.fs.disk := by
    have hfree := h.free
    rw [← exists_noMore_iff]
    simpa using List.countP_pos_iff.mp (show 0 < (rootSlots s.fs.disk).countP (·.isNoMore) by omega)
  obtain ⟨fs', hmake, hmakes⟩ := hserving.live.makeNamed hserving.made_lt
    hserving.root_inode hserving.root_inodeNum .create h11
    (by simp [letterName]) h0 (h.not_taken (by omega)) hslot
  have hcall := Session.call_of_make (s := s) (c := ⟨.create, s.root, [UInt8.ofNat (0x41 + j)]⟩) hname
    (by rw [ext2Make_accepted hname]; exact hmake)
  -- the slot was blank, so that its new entry holds the letter
  have hlt : terminator s.fs.disk < (rootSlots s.fs.disk).length := by
    rw [length_rootSlots]
    exact hslot
  have hold : blockSlot s.fs.disk 36 (terminator s.fs.disk) = Ext2DirEntry.zero := by
    rw [← getElem_rootSlots s.fs.disk hlt]
    exact h.blank _ (List.getElem_mem hlt) (isNoMore_terminator hlt)
  have hslots := hmakes.slots
  rw [hold] at hslots
  refine ⟨_, .call h.inUse List.mem_cons_self hcall, ?_, ?_, ?_⟩
  · intro entry hmem hentry
    change entry ∈ rootSlots fs'.disk at hmem
    rw [hslots] at hmem
    rcases List.mem_or_eq_of_mem_set hmem with hmem | rfl
    · exact h.blank entry hmem hentry
    · exact absurd hentry (filledEntry_not_noMore _ h0 h11)
  · intro entry hmem name hlen hholds
    change entry ∈ rootSlots fs'.disk at hmem
    rw [hslots] at hmem
    rcases List.mem_or_eq_of_mem_set hmem with hmem | rfl
    · obtain ⟨i, hi, heq⟩ := h.names entry hmem name hlen hholds
      exact ⟨i, by omega, heq⟩
    · have hs : cString (filledEntry Ext2DirEntry.zero (letterName j) _).name = some (letterName j) :=
        cString_dirEntry h0 (by simp [letterName]) (UInt32.ofNat (nextInode s.made.length))
      rw [Ext2DirEntry.holds, hs, Option.some.injEq] at hholds
      exact ⟨j, by omega, hholds.symm⟩
  · have hcount := hmakes.countP_noMore hslot h0 h11
    have hfree := h.free
    change (rootSlots fs'.disk).countP (·.isNoMore) + (j + 1) = 13
    omega

-- The root of the filled disk after the format: the entries that the format makes, blank ones to
-- the end of the sector, and letters in the sectors that it does not write.
theorem filledDisk_slot {disk : DiskOperations} (h : Formatted filledDisk disk) {t : Nat}
    (ht : t < 128) :
    if t < 16 then blockSlot disk 36 t =
      [dirEntry 2 slashName, dirEntry 2 dotName, dirEntry 2 dotdotName].getD t Ext2DirEntry.zero
    else (blockSlot disk 36 t).name = Vector.replicate 24 0x41 := by
  split
  · exact h.blockSlot_eq (by assumption)
  · obtain ⟨entry, hentries, hname⟩ := asEntries_replicate 0x41
    have hcontent : disk.content (8 * 36 + t / 16) = Vector.replicate 512 0x41 :=
      h.frame _ (by omega) (by omega) (by omega) (by omega) (by omega)
    rw [blockSlot_eq hcontent]
    simp only [hentries, Vector.getElem_replicate]
    exact hname

theorem filling_start : ∃ s, Filling s 0 := by
  obtain ⟨disk, h, hmount⟩ := exists_mounted (show 1 ≤ filledDisk.groups by decide) (by decide)
  have hnot : ¬ (Vector.replicate 24 (0x41 : UInt8))[0] = dirEntryNoMore := by decide
  have hentries : ∀ t, t < 16 →
      let entry := [dirEntry 2 slashName, dirEntry 2 dotName, dirEntry 2 dotdotName].getD t
        Ext2DirEntry.zero
      (entry.isNoMore ↔ 3 ≤ t) ∧ (entry.isNoMore → entry = Ext2DirEntry.zero) ∧
        (cString entry.name).all (·.length < 11) := by decide
  refine ⟨⟨newFs filledDisk disk, rootNode, []⟩, .start ⟨hmount, rfl⟩, ?_, ?_, ?_⟩
  · intro entry hmem hentry
    obtain ⟨t, ht, rfl⟩ := List.mem_map.mp hmem
    have hslot := filledDisk_slot h (List.mem_range.mp ht)
    split at hslot
    · rename_i hlt
      rw [newFs_disk, hslot] at hentry ⊢
      exact (hentries t hlt).2.1 hentry
    · rw [newFs_disk, Ext2DirEntry.isNoMore, hslot] at hentry
      exact absurd hentry hnot
  · intro entry hmem name hlen hholds
    obtain ⟨t, ht, rfl⟩ := List.mem_map.mp hmem
    have hslot := filledDisk_slot h (List.mem_range.mp ht)
    exfalso
    split at hslot
    · rename_i hlt
      have hall := (hentries t hlt).2.2
      rw [newFs_disk, Ext2DirEntry.holds, hslot] at hholds
      rw [hholds] at hall
      have hshort : name.length < 11 := by simpa using hall
      omega
    · rw [newFs_disk, Ext2DirEntry.holds, hslot] at hholds
      have hnone : cString (Vector.replicate 24 (0x41 : UInt8)) = none := by decide
      rw [hnone] at hholds
      cases hholds
  · have hiff : ∀ t ∈ List.range 128,
        decide ((blockSlot disk 36 t).isNoMore) = true ↔ decide (3 ≤ t ∧ t < 16) = true := by
      intro t ht
      have hslot := filledDisk_slot h (List.mem_range.mp ht)
      rw [decide_eq_true_iff, decide_eq_true_iff]
      split at hslot
      · rename_i hlt
        rw [hslot, (hentries t hlt).1]
        omega
      · rename_i hge
        rw [Ext2DirEntry.isNoMore, hslot]
        exact ⟨fun hentry ↦ absurd hentry hnot, fun hlt ↦ absurd hlt.2 hge⟩
    change (rootSlots disk).countP (·.isNoMore) + 0 = 13
    rw [rootSlots, List.countP_map]
    have hcount := List.countP_congr hiff
    simp only [Function.comp_def]
    rw [hcount]
    decide

/-- The fourteenth letter on the filled disk: the root is full, and no error is returned. -/
theorem not_errorAtomic_full : ∃ s : Session, InUse filledDisk s ∧ NoFreeSlot s.fs s.root ∧
    ¬ ErrorAtomic .create s.fs s.root [0x4e] := by
  have hrun : ∀ j, j ≤ 13 → ∃ s, Filling s j := by
    intro j hj
    induction j with
    | zero => exact filling_start
    | succ j ih =>
      obtain ⟨s, hs⟩ := ih (by omega)
      exact hs.step (by omega)
  obtain ⟨s, hs⟩ := hrun 13 (Nat.le_refl 13)
  have hserving := filledDisk_serving hs.inUse
  have hfree := hs.free
  have hnone : ∀ entry ∈ rootSlots s.fs.disk, ¬ entry.isNoMore := by
    simpa using List.countP_eq_zero.mp
      (show (rootSlots s.fs.disk).countP (·.isNoMore) = 0 by omega)
  refine ⟨s, hs.inUse, ⟨_, hserving.dirSlots_root, hnone⟩, ?_⟩
  rintro ⟨r, node, fs', hmake, -⟩
  obtain ⟨-, -, ⟨htaken, -⟩ | ⟨-, hslot, -⟩⟩ := hserving.make_cases List.mem_cons_self
    (formattedName_letterName (show 13 < 14 by decide)) hmake
  · exact hs.not_taken (by decide) htaken
  · obtain ⟨entry, hmem, hentry⟩ := (exists_noMore_iff _).mpr hslot
    exact hnone entry hmem hentry

end Ext2Fs
