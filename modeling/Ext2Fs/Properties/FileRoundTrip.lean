import Ext2Fs.Model.File
import Ext2Fs.Properties.CrossLinks
import Ext2Fs.Properties.RootCapacity

/-!
# Files written and read back

`ext2_write` and `ext2_read` start from the size of the file, which `ext2_fill_inode` leaves out.
No write has a defined outcome, and no other call touches the size that the inode table holds.
-/

open Reasoning

namespace Ext2Fs

/-- A write to the file, or a call that makes another entry in between. -/
inductive FileEvent where
  | write (offset : UInt64) (buffer : List UInt8)
  | make (c : Call)

/-- The bytes that the writes append. -/
def written (events : List FileEvent) : List UInt8 :=
  events.flatMap fun event ↦ match event with
    | .write _ buffer => buffer
    | .make _ => []

/-- The calls that make other entries. -/
def between (events : List FileEvent) : List Call :=
  events.filterMap fun event ↦ match event with
    | .write _ _ => none
    | .make c => some c

def fileEvent (file : Ext2Node) (s : Session) : FileEvent → Exec Session
  | .write offset buffer => do
    let (_, fs) ← ext2Write s.fs file offset (UInt64.ofNat buffer.length) buffer
    return { s with fs := fs }
  | .make c => s.call c

/-- After the events the size in the inode table is the number of bytes written, and every range
inside the file is read back as the bytes written there. -/
def FileRoundTrip (s : Session) (file : Ext2Node) (events : List FileEvent) : Prop :=
  ∃ s', forEach (fileEvent file) s events = .ok s' ∧
    (∃ inode, tableSlot s'.fs file.entry.inode = some inode ∧
      inode.iSize.toNat = (written events).length) ∧
    ∀ a n, 0 < n → a + n ≤ (written events).length →
      ∃ fs', ext2Read s'.fs file (UInt64.ofNat a) (UInt64.ofNat n) =
        .ok ((n : Int), ((written events).drop a).take n, fs')

/-! ## Writes -/

section Events

variable {file : Ext2Node} {s s' : Session} {events : List FileEvent}

-- The end of the file is computed from a size that was never filled in.
theorem ext2Write_undefined (fs : Ext2Filesystem) (file : Ext2Node) (offset length : UInt64)
    (buffer : List UInt8) : ext2Write fs file offset length buffer = .error .indeterminate := by
  rw [ext2Write, ext2WriteOn, ext2FillInode_iSize]
  rfl

theorem not_write_mem (h : forEach (fileEvent file) s events = .ok s') (offset : UInt64)
    (buffer : List UInt8) : FileEvent.write offset buffer ∉ events := by
  intro hmem
  rcases forEach_turn h hmem with ⟨t, t', hturn⟩
  rw [fileEvent, ext2Write_undefined] at hturn
  cases hturn

-- Without writes only the calls in between are left.
theorem written_eq_nil (h : ∀ offset buffer, FileEvent.write offset buffer ∉ events) :
    written events = [] := by
  rw [written, List.flatMap_eq_nil_iff]
  intro event hevent
  cases event with
  | write offset buffer => exact absurd hevent (h offset buffer)
  | make c => rfl

theorem forEach_fileEvent (h : ∀ offset buffer, FileEvent.write offset buffer ∉ events) :
    forEach (fileEvent file) s events = forEach Session.call s (between events) := by
  induction events generalizing s with
  | nil => rfl
  | cons event events ih =>
    cases event with
    | write offset buffer => exact absurd List.mem_cons_self (h offset buffer)
    | make c =>
      change _ = forEach Session.call s (c :: between events)
      rw [forEach_cons, forEach_cons]
      apply bind_congr_ok
      intro s₁ _
      exact ih fun offset buffer hmem ↦ h offset buffer (List.mem_cons_of_mem _ hmem)

end Events

/-! ## The size in the inode table -/

section Size

variable {op : DirOp} {fs fs' : Ext2Filesystem} {name : List UInt8} {k b d : Nat} {n : UInt32}

/-- The size that the inode table holds. -/
def slotSize (fs : Ext2Filesystem) (n : UInt32) : Option UInt32 := (tableSlot fs n).map (·.iSize)

-- Neither the fields of a new directory nor its first block include a size.
theorem Makes.slotSize_eq (h : Makes op fs fs' name k b d) (hlive : Live fs k b d)
    (hn : n.toNat < 412) : slotSize fs' n = slotSize fs n := by
  rw [slotSize, slotSize, h.live.tableSlot_eq (by omega), hlive.tableSlot_eq (by omega),
    h.table _ (by omega) (by omega)]
  by_cases hmk : op = .mkdir ∧ 32 + n.toNat / 4 = insertSector 4 (nextInode k)
  · rw [if_pos hmk, insertedSector, getElem_updateAt, hmk.2]
    split <;> rfl
  · rw [if_neg hmk]

theorem Serving.call_slotSize {disk : DiskOperations} {s s' : Session} {c : Call}
    (h : Serving disk s) (hknows : s.Knows c) (hcall : s.call c = .ok s') (hn : n.toNat < 412) :
    slotSize s'.fs n = slotSize s.fs n := by
  rcases h.call_cases hknows hcall with rfl | ⟨name, fs', -, -, -, -, -, hmakes, rfl⟩
  · rfl
  · exact hmakes.slotSize_eq h.live hn

end Size

/-! ## The round trip -/

section RoundTrip

variable {disk : DiskOperations} {s : Session} {file : Ext2Node} {events : List FileEvent}

/-- Exactly the files that are never written to, and whose size was zero on the disk already, are
read back. -/
theorem fileRoundTrip_iff (hpos : 1 ≤ disk.groups) (h : InUse disk s)
    (hfile : ∃ m ∈ s.made, m.op = .create ∧ m.node = file)
    (hcalls : AllAllowed Session.call Session.Knows s (between events))
    (hreturn : Defined (forEach Session.call s (between events))) :
    FileRoundTrip s file events ↔
      (∀ offset buffer, FileEvent.write offset buffer ∉ events) ∧
      ∃ inode, tableSlot s.fs file.entry.inode = some inode ∧ inode.iSize = 0 := by
  rcases hfile with ⟨m, hm, -, rfl⟩
  have hfew : disk.groups ≤ 16 := by
    by_contra hmany
    rw [(h.fresh (by omega)).2] at hm
    exact absurd hm List.not_mem_nil
  have hserving := h.serving hpos hfew
  have hn := (hserving.node_bounds hm).2
  rcases hreturn with ⟨t, hrun⟩
  -- the calls in between leave the size alone
  have hsize : slotSize t.fs m.node.entry.inode = slotSize s.fs m.node.entry.inode := by
    apply And.right (a := Serving disk t)
    apply AllAllowed.invariant (fun u ↦ Serving disk u ∧
      slotSize u.fs m.node.entry.inode = slotSize s.fs m.node.entry.inode) _ ⟨hserving, rfl⟩ hcalls
      hrun
    intro u c u' hu hknows hcall
    exact ⟨hu.1.call hknows hcall, (hu.1.call_slotSize hknows hcall hn).trans hu.2⟩
  constructor
  · rintro ⟨s', hevents, ⟨inode, hslot, hlength⟩, -⟩
    have hwrites := not_write_mem hevents
    rw [forEach_fileEvent hwrites, hrun, Except.ok.injEq] at hevents
    subst hevents
    have hzero : inode.iSize = 0 := by
      rw [written_eq_nil hwrites] at hlength
      exact UInt32.toNat_inj.mp hlength
    rw [slotSize, hslot, Option.map_some, eq_comm, slotSize, Option.map_eq_some_iff] at hsize
    rcases hsize with ⟨inode', hslot', hsize'⟩
    exact ⟨hwrites, inode', hslot', hsize'.trans hzero⟩
  · rintro ⟨hwrites, inode, hslot, hzero⟩
    have hnil := written_eq_nil hwrites
    rw [slotSize, slotSize, hslot, Option.map_some, Option.map_eq_some_iff] at hsize
    rcases hsize with ⟨inode', hslot', hsize'⟩
    refine ⟨t, (forEach_fileEvent hwrites).trans hrun, ⟨inode', hslot', ?_⟩, ?_⟩
    · rw [hsize', hzero, hnil]
      rfl
    · intro a n hn hle
      rw [hnil, List.length_nil] at hle
      omega

end RoundTrip

/-- The first file made on a zeroed disk, and a directory that is made after it. -/
theorem fileRoundTrip_zeroedDisk : ∃ (s : Session) (file : Ext2Node) (c : Call),
    InUse (zeroedDisk 262144) s ∧ s.made = [⟨.create, s.root, nameA, file⟩] ∧
    FileRoundTrip s file [.make c] := by
  rcases zeroedDisk_call .create with ⟨s₀, s, hfresh, -, hinuse, hroot, hmade, hmakes⟩
  rcases exists_new_name s.fs.disk with ⟨c, hc, hnew⟩
  have hname := formattedName_dotted hc .mkdir
  rcases hinuse.make_of_room (by decide) (by decide) hname
    (show 12 < 24 by decide) hnew (by
      rw [rootCapacity_zeroedDisk, hmade, List.length_singleton]
      decide) with ⟨fs', hmake⟩
  have hcall := Session.call_of_make (c := ⟨.mkdir, s.root, dottedName c⟩) hname hmake
  refine ⟨s, newNode .create 11 nameA, ⟨.mkdir, s.root, dottedName c⟩, hinuse, by rw [hmade, hroot],
    (fileRoundTrip_iff (by decide) hinuse ?_ ?_ ?_).mpr ⟨?_, Ext2Inode.zero, ?_, rfl⟩⟩
  · rw [hmade]
    exact ⟨_, List.mem_singleton_self _, rfl, rfl⟩
  · exact ⟨List.mem_cons_self, fun _ _ ↦ trivial⟩
  · change Defined (forEach Session.call s [⟨.mkdir, s.root, dottedName c⟩])
    rw [forEach_cons, hcall, ok_bind, forEach_nil]
    exact defined_ok _
  · intro offset buffer hmem
    cases List.mem_singleton.mp hmem
  · change tableSlot s.fs 11 = _
    rw [← hfresh.slot_zeroedDisk]
    exact hmakes.tableSlot_create (hfresh.live (by decide) (by decide)) (by decide)

/-- The first file made on a zeroed disk, and one byte written to it. -/
theorem not_fileRoundTrip_A : ∃ (s : Session) (file : Ext2Node), InUse (zeroedDisk 262144) s ∧
    s.made = [⟨.create, s.root, nameA, file⟩] ∧ ¬ FileRoundTrip s file [.write 0 [0x58]] := by
  obtain ⟨s, s', -, -, hinUse, hroot, hmade, -⟩ := zeroedDisk_call .create
  refine ⟨s', newNode .create 11 nameA, hinUse, by rw [hroot, hmade], ?_⟩
  rintro ⟨s'', hrun, -⟩
  exact not_write_mem hrun 0 [0x58] List.mem_cons_self

end Ext2Fs
