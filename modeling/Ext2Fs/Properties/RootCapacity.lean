import Ext2Fs.Properties.Remount
import Ext2Fs.Spec.FirstSector
import Ext2Fs.Spec.NameGrammar
import Mathlib.Data.List.Nodup

/-!
# How many entries the root takes

`ext2_format` leaves thirteen blank slots in the first sector of the root directory, and in the
other seven what the disk held before.  Every entry takes one of them; when none is left the search
leaves the directory, and the function ends without a value.
-/

open Reasoning

namespace Ext2Fs

/-- The blank slots of the root of a disk that `ext2_format` is called for. -/
def rootCapacity (disk : DiskOperations) : Nat := 13 + (laterSlots disk).countP (·.isNoMore)

section Capacity

variable {disk : DiskOperations} {s s' : Session} {c : Call}

theorem Formatted.countP_noMore {old disk' : DiskOperations} (h : Formatted old disk') :
    (rootSlots disk').countP (·.isNoMore) = rootCapacity old := by
  have hfirst : (firstSlots disk').countP (·.isNoMore) = 13 := by
    have hslots : firstSlots disk' = rootEntries.toList := by
      unfold firstSlots
      rw [h.rootDir, Equiv.apply_symm_apply]
    rw [hslots]
    decide
  rw [rootSlots_append, List.countP_append, hfirst, h.laterSlots_eq, rootCapacity]

theorem hasSlot_iff (disk : DiskOperations) :
    HasSlot disk ↔ 0 < (rootSlots disk).countP (·.isNoMore) := by
  rw [← exists_noMore_iff, List.countP_pos_iff]
  simp only [decide_eq_true_eq]

/-! ## The slots of a session -/

/-- Every entry that was made has taken one of the blank slots. -/
def Fills (disk : DiskOperations) (s : Session) : Prop :=
  (rootSlots s.fs.disk).countP (·.isNoMore) + s.made.length = rootCapacity disk

theorem Session.Fresh.fills (h : s.Fresh disk) (hpos : 1 ≤ disk.groups)
    (hfew : disk.groups ≤ 16) : Fills disk s := by
  rcases h with ⟨hmount, hmade⟩
  rcases exists_mounted hpos hfew with ⟨disk', hformatted, hmount'⟩
  rcases mounted_unique hmount hmount' with ⟨hfs, -⟩
  unfold Fills
  rw [hfs, newFs_disk, hformatted.countP_noMore, hmade]
  rfl

theorem Serving.call_fills (h : Serving disk s) (hfills : Fills disk s) (hknows : s.Knows c)
    (hcall : s.call c = .ok s') : Fills disk s' := by
  rcases h.call_cases hknows hcall with rfl | ⟨name, fs', -, hname, -, -, hslot, hmakes, rfl⟩
  · exact hfills
  · have hcount := hmakes.countP_noMore hslot (formattedName_zeroFree hname)
      (formattedName_length hname)
    unfold Fills at hfills ⊢
    rw [List.length_append, List.length_singleton]
    simp only
    omega

theorem InUse.fills (h : InUse disk s) (hpos : 1 ≤ disk.groups) (hfew : disk.groups ≤ 16) :
    Serving disk s ∧ Fills disk s := by
  apply Reachable.invariant (fun s ↦ Serving disk s ∧ Fills disk s) _ _ h
  · intro s hs
    exact ⟨(hs.serving hpos hfew).1, hs.fills hpos hfew⟩
  · intro s c s' hs hknows hcall
    exact ⟨hs.1.call hknows hcall, hs.1.call_fills hs.2 hknows hcall⟩

theorem Fills.hasSlot_iff (h : Fills disk s) :
    HasSlot s.fs.disk ↔ s.made.length < rootCapacity disk := by
  unfold Fills at h
  rw [Ext2Fs.hasSlot_iff]
  omega

-- A new name is entered while there is room, and leads nowhere afterwards.
theorem InUse.make_of_room (h : InUse disk s) (hpos : 1 ≤ disk.groups) (hfew : disk.groups ≤ 16)
    {op : DirOp} {entryName name : List UInt8}
    (hname : formattedName op entryName = .ok (some name)) (hlen : name.length < 24)
    (hnew : ¬ Taken s.fs.disk name) (hroom : s.made.length < rootCapacity disk) :
    ∃ fs', ext2Make op s.fs s.root entryName =
      .ok (ext2Success, some (newNode op (nextInode s.made.length) name), fs') := by
  rcases h.fills hpos hfew with ⟨hserving, hfills⟩
  rcases hserving.live.makeNamed hserving.made_lt hserving.root_inode hserving.root_inodeNum op
    (formattedName_length hname) hlen (formattedName_zeroFree hname) hnew
    (hfills.hasSlot_iff.mpr hroom) with ⟨fs', hmake, -⟩
  refine ⟨fs', ?_⟩
  rw [ext2Make_accepted hname]
  exact hmake

-- A call that finishes for a new name has entered it, and there was room.
theorem InUse.room_of_make (h : InUse disk s) (hpos : 1 ≤ disk.groups) (hfew : disk.groups ≤ 16)
    {op : DirOp} {entryName name : List UInt8} {result : Int} {node : Option Ext2Node}
    {fs' : Ext2Filesystem} (hname : formattedName op entryName = .ok (some name))
    (hnew : ¬ Taken s.fs.disk name)
    (hmake : ext2Make op s.fs s.root entryName = .ok (result, node, fs')) :
    result = ext2Success ∧ s.made.length < rootCapacity disk := by
  rcases h.fills hpos hfew with ⟨hserving, hfills⟩
  rcases hserving.make_cases List.mem_cons_self hname hmake with
    ⟨-, -, ⟨htaken, -⟩ | ⟨-, hslot, fs₁, hr, -⟩⟩
  · exact absurd htaken hnew
  · cases hr
    exact ⟨rfl, hfills.hasSlot_iff.mp hslot⟩

end Capacity

/-! ## Enough names -/

/-- A dot, ten letters and one more character: `format_name` replaces the first eleven. -/
def dottedName (c : UInt8) : List UInt8 := 0x2e :: List.replicate 10 0x61 ++ [c]

theorem formattedName_dotted {c : UInt8} (hc : c ≠ 0) (op : DirOp) :
    formattedName op (dottedName c) = .ok (some (dotRegular.toList ++ [c])) := by
  have h0 : 0 ∉ dottedName c := by simpa [dottedName] using Ne.symm hc
  have hlen : (dottedName c).length < 256 := by
    rw [show (dottedName c).length = 12 from rfl]
    decide
  have hload : loadName op (dottedName c) = .ok (NameBuffer.ofString (dottedName c)) := by
    cases op with
    | mkdir => rfl
    | create => rw [loadName, if_pos hlen]
  have htwo : (dottedName c).take 2 ≠ [0x2e, 0x2e] := by
    rw [show (dottedName c).take 2 = [0x2e, 0x61] from rfl]
    decide
  unfold formattedName
  rw [hload, ok_bind, formatName_dot h0 hlen htwo rfl, ok_bind]
  simp only [cString_overwrite h0 hlen dotRegular_zeroFree]
  rfl

-- The root has fewer slots than there are such names.
theorem exists_new_name (disk : DiskOperations) :
    ∃ c : UInt8, c ≠ 0 ∧ ¬ Taken disk (dotRegular.toList ++ [c]) := by
  by_contra hall
  have htaken : ∀ c : UInt8, c ≠ 0 → Taken disk (dotRegular.toList ++ [c]) := by
    intro c hc
    by_contra hnew
    exact hall ⟨c, hc, hnew⟩
  let name (i : Nat) : Option (List UInt8) :=
    some (dotRegular.toList ++ [UInt8.ofNat (i + 1)])
  have hnodup : ((List.range 129).map name).Nodup := by
    apply List.Nodup.map_on _ List.nodup_range
    intro i hi j hj hij
    rw [List.mem_range] at hi hj
    rw [Option.some.injEq, List.append_cancel_left_eq, List.cons.injEq] at hij
    have hnat := congrArg UInt8.toNat hij.1
    simp at hnat
    omega
  have hsubset : (List.range 129).map name ⊆
      (visited (rootSlots disk)).map fun e ↦ cString e.name := by
    intro x hx
    rcases List.mem_map.mp hx with ⟨i, hi, rfl⟩
    rw [List.mem_range] at hi
    have hne : UInt8.ofNat (i + 1) ≠ 0 := by
      intro hzero
      have hnat := congrArg UInt8.toNat hzero
      simp at hnat
      omega
    rcases htaken _ hne with ⟨e, he, hholds⟩
    exact List.mem_map.mpr ⟨e, he, hholds⟩
  have hle := hnodup.length_le_of_subset hsubset
  have hslots := visited_length_le (rootSlots disk)
  rw [length_rootSlots] at hslots
  rw [List.length_map, List.length_range, List.length_map] at hle
  omega

/-! ## The capacity -/

theorem laterSlots_zeroedDisk (n : UInt32) :
    laterSlots (zeroedDisk n) = List.replicate 112 Ext2DirEntry.zero := by
  unfold laterSlots
  rw [List.eq_replicate_iff, List.length_map, List.length_range']
  refine ⟨rfl, ?_⟩
  intro e he
  rcases List.mem_map.mp he with ⟨t, -, rfl⟩
  have hcontent : (zeroedDisk n).content (8 * 36 + t / 16) = asEntries.symm (entriesOf []) := by
    rw [asEntries_symm_nil]
    rfl
  rw [blockSlot_eq hcontent, Equiv.apply_symm_apply, getElem_entriesOf _ (Nat.mod_lt t (by decide))]
  rfl

theorem rootCapacity_zeroedDisk (n : UInt32) : rootCapacity (zeroedDisk n) = 125 := by
  unfold rootCapacity
  rw [laterSlots_zeroedDisk, List.countP_replicate]
  decide

section Exact

variable {disk : DiskOperations} (hpos : 1 ≤ disk.groups) (hfew : disk.groups ≤ 16)

include hpos hfew

/-- The root takes no more entries than the format left blank slots: no session makes more, and a
call that finishes for a new name has entered it, and found fewer.  Once all slots are taken it has
no defined result. -/
theorem root_takes_capacity {s : Session} (h : InUse disk s) :
    s.made.length ≤ rootCapacity disk ∧
    ∀ op entryName name, formattedName op entryName = .ok (some name) → ¬ Taken s.fs.disk name →
      ∀ result node fs', ext2Make op s.fs s.root entryName = .ok (result, node, fs') →
        result = ext2Success ∧ s.made.length < rootCapacity disk := by
  constructor
  · have hfills := (h.fills hpos hfew).2
    unfold Fills at hfills
    omega
  · intro op entryName name hname hnew result node fs' hmake
    exact h.room_of_make hpos hfew hname hnew hmake

omit hpos hfew in
/-- A file made on a zeroed disk. -/
theorem root_takes_capacity_zeroedDisk : ∃ s fs', InUse (zeroedDisk 262144) s ∧
    ext2Make .create s.fs s.root [0x41] =
      .ok (ext2Success, some (newNode .create 11 nameA), fs') ∧
    s.made.length < 125 := by
  have hpos : 1 ≤ (zeroedDisk 262144).groups := by decide
  have hfew : (zeroedDisk 262144).groups ≤ 16 := by decide
  rcases zeroedDisk_make .create with ⟨s, fs', hfresh, hmake, -⟩
  rcases hfresh.serving hpos hfew with ⟨-, disk', hformatted, hdisk⟩
  have hnew : ¬ Taken s.fs.disk nameA := by
    unfold Taken
    rw [hdisk, hformatted.visited_eq]
    decide
  refine ⟨s, fs', .start hfresh, hmake, ?_⟩
  rw [← rootCapacity_zeroedDisk 262144]
  exact ((root_takes_capacity hpos hfew (.start hfresh)).2 .create [0x41] nameA
    (formattedName_A .create) hnew _ _ _ hmake).2

-- One call after the other, each with a name that is not there yet.
theorem exists_session (op : DirOp) (n : Nat) (hn : n ≤ rootCapacity disk) :
    ∃ s, InUse disk s ∧ s.made.length = n := by
  induction n with
  | zero =>
    rcases exists_mounted hpos hfew with ⟨disk', -, hmount⟩
    exact ⟨⟨_, _, []⟩, .start ⟨hmount, rfl⟩, rfl⟩
  | succ n ih =>
    rcases ih (by omega) with ⟨s, hinuse, hlength⟩
    rcases exists_new_name s.fs.disk with ⟨c, hc, hnew⟩
    have hname := formattedName_dotted hc op
    rcases hinuse.make_of_room hpos hfew hname (show 12 < 24 by decide) hnew (by omega) with
      ⟨fs', hmake⟩
    have hcall := Session.call_of_make (c := ⟨op, s.root, dottedName c⟩) hname hmake
    refine ⟨_, hinuse.call List.mem_cons_self hcall, ?_⟩
    rw [List.length_append, hlength]
    rfl

end Exact

end Ext2Fs
