import Ext2Fs.Properties.MkdirCounters

/-!
# Mounting a disk again

Everything that the file system has in memory is on the disk between two calls: a mount in the
middle of a session finds the superblock and the root node with which the session went on.
-/

open Reasoning

namespace Ext2Fs

/-! ## The entries of the root -/

section Entries

variable {op : DirOp} {fs fs' : Ext2Filesystem} {name : List UInt8} {k b d : Nat}

-- A new entry is put behind those that a lookup visits.
theorem Makes.visited_prefix (h : Makes op fs fs' name k b d) (hslot : HasSlot fs.disk)
    (h0 : 0 ∉ name) (h11 : 11 ≤ name.length) :
    visited (rootSlots fs.disk) <+: visited (rootSlots fs'.disk) := by
  have hlt : (visited (rootSlots fs.disk)).length < (rootSlots fs.disk).length := by
    rw [length_rootSlots]
    exact hslot
  rw [h.slots, terminator, visited_set (filledEntry_not_noMore _ h0 h11) hlt]
  exact List.prefix_append _ _

theorem Taken.mono {disk disk' : DiskOperations}
    (h : visited (rootSlots disk) <+: visited (rootSlots disk')) (htaken : Taken disk name) :
    Taken disk' name := by
  rcases htaken with ⟨e, he, hholds⟩
  exact ⟨e, h.subset he, hholds⟩

-- Slot 0 of a directory whose first visited entry is known.
theorem blockSlot_zero {disk : DiskOperations} {entry : Ext2DirEntry}
    (h : [entry] <+: visited (rootSlots disk)) : blockSlot disk 36 0 = entry := by
  have hmore : [entry] <+: rootSlots disk := h.trans (List.takeWhile_prefix _)
  have hlt : 0 < (rootSlots disk).length := by
    rw [length_rootSlots]
    decide
  have hzero := hmore.getElem Nat.zero_lt_one
  rw [getElem_rootSlots] at hzero
  exact hzero.symm

end Entries

/-! ## Reading the superblock -/

-- A mount looks at the superblock of group 0, its descriptor and the first entry of the root.
theorem ext2ReadSuperblock_slash {fs : Ext2Filesystem} (h : Replicated fs)
    (hper : fs.spb.sInodesPerGroup = 1024)
    (htable : (getElem fs.descs 0 firstRecord_lt).bgInodeTable = 4)
    (hslash : blockSlot fs.disk 36 0 = dirEntry 2 slashName) :
    ext2ReadSuperblock fs.disk = .ok (some (fs, rootNode)) := by
  have hfit := fs.disk.groups_fit
  have hpos := h.groups_pos
  have hspb := h.superBlock 0 hpos
  rw [Nat.mul_zero] at hspb
  have hread : fs.disk.readSector 0 none = (0, some (asSuperBlock.symm fs.spb)) := by
    rw [DiskOperations.readSector_of_lt none (by rw [UInt32.toNat_zero]; omega),
      UInt32.toNat_zero, hspb]
  have hdesc := readDesc_of_lt fs h.firstDataBlock hpos UInt32.toNat_zero (by decide)
  have hroot : (fs.disk.readSector ((fs.spb.sFirstDataBlock + fs.descs[0].bgInodeTable +
      inodeTableBlocks fs.spb) * sectorsPerBlock) none).2 = some (fs.disk.content 288) := by
    refine DiskOperations.readSector_eq none ?_ (show 288 < _ by omega) rfl
    rw [h.firstDataBlock, htable, inodeTableBlocks_eq hper]
    rfl
  have hload : loadAt asEntries (fs.disk.content 288) 0 = some (dirEntry 2 slashName) := by
    rw [loadAt_of_lt _ (by decide), ← hslash]
    rfl
  unfold ext2ReadSuperblock
  rw [hread]
  simp only [Equiv.apply_symm_apply, hdesc, determinate_some, ok_bind, copyDesc_bgInodeTable,
    hroot, hload]
  rfl

/-! ## Sessions -/

/-- What a mount looks at beside the counters. -/
structure Remountable (s : Session) : Prop where
  perGroup : s.fs.spb.sInodesPerGroup = 1024
  slash : [dirEntry 2 slashName] <+: visited (rootSlots s.fs.disk)

section Sessions

variable {disk : DiskOperations} {s s' : Session} {c : Call}

theorem sInodesPerGroup_callSb (op : DirOp) (spb : Ext2SuperBlock) :
    (callSb op spb).sInodesPerGroup = spb.sInodesPerGroup := by
  cases op <;> rfl

-- What a call does to the entries of the root that a lookup visits.
theorem Serving.call_visited (h : Serving disk s) (hknows : s.Knows c)
    (hcall : s.call c = .ok s') :
    visited (rootSlots s.fs.disk) <+: visited (rootSlots s'.fs.disk) := by
  rcases h.call_cases hknows hcall with rfl | ⟨name, fs', -, hname, -, -, hslot, hmakes, rfl⟩
  · exact List.prefix_rfl
  · exact hmakes.visited_prefix hslot (formattedName_zeroFree hname) (formattedName_length hname)

theorem Session.Fresh.remountable (h : s.Fresh disk) (hpos : 1 ≤ disk.groups)
    (hfew : disk.groups ≤ 16) : Remountable s := by
  rcases h with ⟨hmount, -⟩
  rcases exists_mounted hpos hfew with ⟨disk', hformatted, hmount'⟩
  rcases mounted_unique hmount hmount' with ⟨hfs, -⟩
  constructor
  case perGroup =>
    rw [hfs]
    rfl
  case slash =>
    rw [hfs, newFs_disk, hformatted.visited_eq]
    exact List.prefix_append [dirEntry 2 slashName] _

theorem Remountable.call (h : Remountable s) (hserving : Serving disk s) (hknows : s.Knows c)
    (hcall : s.call c = .ok s') : Remountable s' := by
  constructor
  case perGroup =>
    rcases hserving.call_counted hknows hcall with rfl | ⟨fs', m, -, hcounted, rfl⟩
    · exact h.perGroup
    · simp only [hcounted.spb_eq, sInodesPerGroup_callSb, h.perGroup]
  case slash => exact h.slash.trans (hserving.call_visited hknows hcall)

theorem InUse.remountable (h : InUse disk s) (hpos : 1 ≤ disk.groups) (hfew : disk.groups ≤ 16) :
    Remountable s := by
  have hboth : Serving disk s ∧ Remountable s := by
    apply Reachable.invariant (fun s ↦ Serving disk s ∧ Remountable s) _ _ h
    · intro s hs
      exact ⟨(hs.serving hpos hfew).1, hs.remountable hpos hfew⟩
    · intro s c s' hs hknows hcall
      exact ⟨hs.1.call hknows hcall, hs.2.call hs.1 hknows hcall⟩
  exact hboth.2

theorem InUse.ext2ReadSuperblock_eq (h : InUse disk s) (hpos : 1 ≤ disk.groups)
    (hfew : disk.groups ≤ 16) :
    ext2ReadSuperblock s.fs.disk = .ok (some (s.fs, s.root)) := by
  rcases h.totalled hpos hfew with ⟨hserving, htotalled⟩
  have hremountable := h.remountable hpos hfew
  rw [hserving.root]
  refine ext2ReadSuperblock_slash htotalled.replicated hremountable.perGroup ?_
    (blockSlot_zero hremountable.slash)
  rw [hserving.live.desc]
  rfl

end Sessions

/-! ## Sessions with mounts in between -/

/-- `fs_umount` and `fs_mount` on the disk as it is. -/
def Session.remount (s : Session) : Exec Session := do
  let (fs, root) ← determinate (← ext2ReadSuperblock s.fs.disk)
  return { s with fs := fs, root := root }

/-- A call, or a mount in its place. -/
def Session.callOrRemount (s : Session) : Option Call → Exec Session
  | some c => s.call c
  | none => s.remount

/-- The directories of the calls are known; a mount is always allowed. -/
def Session.KnowsOrRemount (s : Session) (c : Option Call) : Prop := ∀ c' ∈ c, s.Knows c'

-- A mount finds what is in memory already.
theorem InUse.remount_eq {disk : DiskOperations} {s : Session} (h : InUse disk s)
    (hpos : 1 ≤ disk.groups) (hfew : disk.groups ≤ 16) : s.remount = .ok s := by
  unfold Session.remount
  rw [h.ext2ReadSuperblock_eq hpos hfew]
  rfl

/-- The states of a session do not depend on whether, and when, the disk is mounted anew. -/
theorem remounts_invisible (disk : DiskOperations) (hpos : 1 ≤ disk.groups)
    (hfew : disk.groups ≤ 16) (s : Session) :
    Reachable Session.callOrRemount Session.KnowsOrRemount (Session.Fresh disk) s ↔
      InUse disk s := by
  constructor
  · apply Reachable.invariant
    · exact fun s hs ↦ .start hs
    · intro s c s' hinuse hknows hcall
      cases c with
      | some c => exact .call hinuse (hknows c rfl) hcall
      | none =>
        change s.remount = _ at hcall
        rw [hinuse.remount_eq hpos hfew, Except.ok.injEq] at hcall
        rw [← hcall]
        exact hinuse
  · apply Reachable.invariant
    · exact fun s hs ↦ .start hs
    · intro s c s' hs hknows hcall
      refine @Reachable.call _ _ _ _ _ s s' (some c) hs ?_ hcall
      intro c' hc'
      rw [← Option.mem_some.mp hc']
      exact hknows

/-- A directory is made, and the disk is mounted anew. -/
theorem remounts_invisible_zeroedDisk : ∃ s : Session, s.made.length = 1 ∧
    s.callOrRemount none = .ok s ∧ InUse (zeroedDisk 262144) s := by
  have hpos : 1 ≤ (zeroedDisk 262144).groups := by decide
  have hfew : (zeroedDisk 262144).groups ≤ 16 := by decide
  rcases zeroedDisk_call .mkdir with ⟨s₀, s, hfresh, hcall, hinuse, -, hmade, -⟩
  have hknows : s₀.KnowsOrRemount (some ⟨.mkdir, s₀.root, [0x41]⟩) := by
    intro c hc
    rw [← Option.mem_some.mp hc]
    exact List.mem_cons_self
  have hremount : s.callOrRemount none = .ok s := hinuse.remount_eq hpos hfew
  refine ⟨s, by rw [hmade]; rfl, hremount, (remounts_invisible _ hpos hfew s).mp ?_⟩
  exact .call (.call (.start hfresh) hknows hcall) (fun c hc ↦ by cases hc) hremount

end Ext2Fs
