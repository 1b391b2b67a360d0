import Ext2Fs.Spec.Insert

/-!
# Making an entry

`ext2_mkdir` and `ext2_create` look the formatted name up, take an inode, and overwrite the first
`DIR_ENTRY_NO_MORE` of the parent.
-/

open Reasoning

namespace Ext2Fs

/-! ## The common part of ext2_mkdir and ext2_create -/

/-- What `ext2_create` copies of the name before `fill_entry`. -/
def shortEntry (s : List UInt8) : Ext2DirEntry :=
  { Ext2DirEntry.zero with name := Vector.ofFn fun i ↦ if i.val < 11 then s.getD i 0 else 0 }

/-- The entry of the new node before `fill_entry`. -/
def blankEntry (op : DirOp) (s : List UInt8) : Ext2DirEntry :=
  match op with
  | .mkdir => Ext2DirEntry.zero
  | .create => shortEntry s

/-- From the lookup of the formatted name to the entry in the parent.  The new entry is `none` where
the callers return `EXT2_ERROR`. -/
def addEntry (op : DirOp) (fs : Ext2Filesystem) (parent : Ext2Node) (s : List UInt8) :
    Exec (Option Ext2DirEntry × Int × Ext2Filesystem) := do
  let r ← ext2Lookup fs parent s none
  let status ← determinate r.status
  if status = ext2Success then return (none, 0, r.fs)
  let (inodeNum, fs) ← allocFreeInode r.fs parent
  let entry ← fillEntry (blankEntry op s) s inodeNum
  if entry.inode = UInt32.ofInt ext2Error then return (none, inodeNum, fs)
  let (location, fs) ← findNoMore parent 8 fs r.location
  let fs ← insertEntry fs location entry
  return (some entry, inodeNum, fs)

/-- The rest of `ext2_mkdir`: the inode, the first sector of the directory, and the counter. -/
def makeDirectory (fs : Ext2Filesystem) (parent : Ext2Node) (entry : Ext2DirEntry) :
    Exec (Int × Option Ext2Node × Ext2Filesystem) := do
  let node : Ext2Node := { entry := entry, inodeNum := 0 }
  let (datablock, fs) ← insertInode fs node entry.inode attrDirectory
  let datablock := UInt32.ofInt datablock
  let sector ← newDirSector entry.inode parent.entry.inode
  let disk := fs.disk.writeSector
    ((entry.inode / inodesPerGroup * blockPerGroup + datablock) * sectorsPerBlock) sector
  let fs ← countDirectory { fs with disk := disk } entry.inode sector
  return (ext2Success, some node, fs)

/-- The sector of the first block of a new directory. -/
def newDirAddress (n : UInt32) (datablock : Int) : UInt32 :=
  (n / inodesPerGroup * blockPerGroup + UInt32.ofInt datablock) * sectorsPerBlock

theorem newDirAddress_toNat {n : UInt32} (hn : n.toNat < 4096) {m : Nat} (hm : m < 4096) :
    (newDirAddress n (m : Int)).toNat = 262144 * (n.toNat / 1024) + 8 * m := by
  rw [newDirAddress, ofInt_natCast]
  simp
  omega

/-- The two operations that make an entry. -/
def ext2Make : DirOp → Ext2Filesystem → Ext2Node → List UInt8 →
    Exec (Int × Option Ext2Node × Ext2Filesystem)
  | .mkdir => ext2Mkdir
  | .create => ext2Create

/-- The operations on a formatted name. -/
def makeNamed (op : DirOp) (fs : Ext2Filesystem) (parent : Ext2Node) (s : List UInt8) :
    Exec (Int × Option Ext2Node × Ext2Filesystem) :=
  match op with
  | .mkdir => do
    let (entry, _, fs) ← addEntry .mkdir fs parent s
    match entry with
    | none => return (ext2Error, none, fs)
    | some entry => makeDirectory fs parent entry
  | .create => do
    let (entry, inodeNum, fs) ← addEntry .create fs parent s
    match entry with
    | none => return (ext2Error, none, fs)
    | some entry =>
      return (ext2Success, some { entry := entry, inodeNum := UInt32.ofInt inodeNum }, fs)

section Named

variable (fs : Ext2Filesystem) (parent : Ext2Node) (entryName : List UInt8)

theorem ext2Mkdir_eq : ext2Mkdir fs parent entryName =
    formattedName .mkdir entryName >>= fun name ↦ match name with
      | none => .ok (ext2Error, none, fs)
      | some s => makeNamed .mkdir fs parent s := by
  unfold ext2Mkdir formattedName makeNamed addEntry
  rw [bind_bind]
  refine bind_congr_ok fun name _ ↦ ?_
  rw [bind_bind]
  refine bind_congr_ok fun p _ ↦ ?_
  obtain ⟨rejected, name'⟩ := p
  by_cases hr : rejected ≠ 0
  · simp only [if_pos hr]
    rfl
  simp only [if_neg hr]
  cases cString name' with
  | none => rfl
  | some s =>
    simp only [pure_eq_ok, ok_bind]
    rw [bind_bind]
    refine bind_congr_ok fun r _ ↦ ?_
    rw [bind_bind]
    refine bind_congr_ok fun status _ ↦ ?_
    split
    · rfl
    rw [bind_bind]
    refine bind_congr_ok fun a _ ↦ ?_
    rw [bind_bind]
    refine bind_congr_ok fun entry _ ↦ ?_
    split
    · rfl
    rw [bind_bind]
    refine bind_congr_ok fun l _ ↦ ?_
    rw [bind_bind]
    exact bind_congr_ok fun fs' _ ↦ rfl

-- The eleven bytes that `ext2_create` copies are the first characters of the name.
theorem shortName_eq {name : NameBuffer} {s : List UInt8} (hs : cString name = some s)
    (hlen : 11 ≤ s.length) :
    (Vector.ofFn fun i : Fin 24 ↦ if i.val < 11 then name[i.val] else 0) = (shortEntry s).name := by
  apply Vector.ext
  intro i hi
  simp only [shortEntry, Vector.getElem_ofFn]
  split
  · rename_i hlt
    have hget := cString_getElem hs (show i < s.length by omega)
    rw [List.getElem?_eq_getElem (by simp; omega), Vector.getElem_toList, Option.some.injEq] at hget
    rw [hget, List.getD_eq_getElem?_getD, List.getElem?_eq_getElem (by omega), Option.getD_some]
  · rfl

theorem ext2Create_eq : ext2Create fs parent entryName =
    formattedName .create entryName >>= fun name ↦ match name with
      | none => .ok (ext2Error, none, fs)
      | some s => makeNamed .create fs parent s := by
  unfold ext2Create formattedName makeNamed addEntry
  rw [bind_bind]
  refine bind_congr_ok fun name hload ↦ ?_
  rw [bind_bind]
  refine bind_congr_ok fun p hformat ↦ ?_
  obtain ⟨rejected, name'⟩ := p
  by_cases hr : rejected ≠ 0
  · simp only [if_pos hr]
    rfl
  simp only [if_neg hr]
  rw [not_not] at hr
  subst hr
  cases hs : cString name' with
  | none => rfl
  | some s =>
    have hlen : 11 ≤ s.length := length_of_formatName hformat hs
    simp only [pure_eq_ok, ok_bind, shortName_eq hs hlen]
    rw [bind_bind]
    refine bind_congr_ok fun r _ ↦ ?_
    rw [bind_bind]
    refine bind_congr_ok fun status _ ↦ ?_
    split
    · rfl
    rw [bind_bind]
    refine bind_congr_ok fun a _ ↦ ?_
    change fillEntry (shortEntry s) s a.1 >>= _ = _
    rw [bind_bind]
    refine bind_congr_ok fun entry _ ↦ ?_
    split
    · rfl
    rw [bind_bind]
    refine bind_congr_ok fun l _ ↦ ?_
    rw [bind_bind]
    exact bind_congr_ok fun fs' _ ↦ rfl

theorem ext2Make_eq (op : DirOp) : ext2Make op fs parent entryName =
    formattedName op entryName >>= fun name ↦ match name with
      | none => .ok (ext2Error, none, fs)
      | some s => makeNamed op fs parent s := by
  cases op with
  | mkdir => exact ext2Mkdir_eq fs parent entryName
  | create => exact ext2Create_eq fs parent entryName

end Named

/-! ## addEntry -/

/-- A name is among the entries of the root. -/
def Taken (disk : DiskOperations) (name : List UInt8) : Prop :=
  ∃ entry ∈ visited (rootSlots disk), entry.holds name

instance (disk : DiskOperations) (name : List UInt8) : Decidable (Taken disk name) :=
  inferInstanceAs (Decidable (∃ entry ∈ visited (rootSlots disk), entry.holds name))

instance (disk : DiskOperations) : Decidable (HasSlot disk) :=
  inferInstanceAs (Decidable (_ < _))

-- The new node's entry holds the name and nothing behind it.
theorem filledEntry_blank (op : DirOp) {s : List UInt8} (hlen : 11 ≤ s.length) (n : UInt32) :
    filledEntry (blankEntry op s) s n = dirEntry n s := by
  cases op with
  | mkdir => rfl
  | create =>
    have hname : copyName (shortEntry s).name s = copyName (Vector.replicate 24 0) s := by
      apply Vector.ext
      intro i hi
      rw [getElem_copyName _ _ hi, getElem_copyName _ _ hi]
      split
      · rfl
      · simp only [shortEntry, Vector.getElem_ofFn, Vector.getElem_replicate]
        rw [if_neg (by omega)]
    unfold filledEntry dirEntry
    rw [show (blankEntry .create s).name = (shortEntry s).name from rfl, hname]

-- A number that an allocator returns is not taken for `EXT2_ERROR`.
theorem ofNat_ne_error {n : Nat} (hn : n < 2 ^ 31) : UInt32.ofNat n ≠ UInt32.ofInt ext2Error := by
  intro h
  have hmax : (UInt32.ofInt ext2Error).toNat = 4294967295 := by decide
  have hnat := congrArg UInt32.toNat h
  rw [hmax] at hnat
  simp at hnat
  omega

theorem cString_dirEntry {s : List UInt8} (hname : 0 ∉ s) (hlen : s.length < 24) (n : UInt32) :
    cString (dirEntry n s).name = some s :=
  cString_filledEntry Ext2DirEntry.zero n hname hlen (Vector.getElem_replicate _)

namespace RootAt

variable {fs : Ext2Filesystem} (h : RootAt fs) {parent : Ext2Node} (hroot : parent.entry.inode = 2)

include h hroot

-- The lookup of a name in the root, when no comparison leaves its entry.
theorem lookup_name {name : List UInt8} (hne : name ≠ []) (hname : 0 ∉ name)
    (hin : ∀ e ∈ visited (rootSlots fs.disk), name.length < 24 ∨ cString e.name ≠ none)
    (location : Option EntryLocation) :
    ∃ r, ext2Lookup fs parent name location = .ok r ∧ r.fs = fs ∧
      r.status = if Taken fs.disk name then some ext2Success
        else if HasSlot fs.disk then some ext2Error else none := by
  have hscan := scanEntries_name hne hname 0 hin
  rw [length_rootSlots] at hscan
  rw [h.ext2Lookup_eq hroot, hscan, ok_bind]
  refine ⟨_, rfl, ?_⟩
  cases hfind : (visited (rootSlots fs.disk)).findIdx? (·.holds name) with
  | some i =>
    have htaken : Taken fs.disk name := by
      rw [List.findIdx?_eq_some_iff_getElem] at hfind
      obtain ⟨hi, hholds, -⟩ := hfind
      exact ⟨_, List.getElem_mem hi, by simpa using hholds⟩
    rw [if_pos htaken]
    exact ⟨rfl, rfl⟩
  | none =>
    have htaken : ¬ Taken fs.disk name := by
      rw [List.findIdx?_eq_none_iff] at hfind
      rintro ⟨e, he, hholds⟩
      simpa [hholds] using hfind e he
    rw [if_neg htaken]
    simp only []
    by_cases hslot : HasSlot fs.disk
    · rw [if_pos hslot, if_pos (show (visited (rootSlots fs.disk)).length < 128 from hslot)]
      exact ⟨rfl, rfl⟩
    · rw [if_neg hslot, if_neg (show ¬ (visited (rootSlots fs.disk)).length < 128 from hslot)]
      exact ⟨rfl, rfl⟩

theorem findNoMore_eq (hslot : HasSlot fs.disk) (location : Option EntryLocation) :
    findNoMore parent 8 fs location =
      .ok (some ⟨36, UInt32.ofNat (terminator fs.disk)⟩, fs) := by
  have hscan := scanEntries_noMore (rootSlots fs.disk) 0
  rw [length_rootSlots, if_pos (show (visited (rootSlots fs.disk)).length < 128 from hslot),
    Nat.zero_add] at hscan
  rw [findNoMore, h.ext2Lookup_eq hroot, hscan, ok_bind, ok_bind]
  simp only [EntryScan.result, determinate_some, ok_bind]
  rw [if_pos trivial]
  rfl

-- A name that is there already.
theorem addEntry_taken (op : DirOp) {s : List UInt8} (hlen : 11 ≤ s.length) (hname : 0 ∉ s)
    (hin : ∀ e ∈ visited (rootSlots fs.disk), s.length < 24 ∨ cString e.name ≠ none)
    (htaken : Taken fs.disk s) : addEntry op fs parent s = .ok (none, 0, fs) := by
  have hne : s ≠ [] := List.ne_nil_of_length_pos (by omega)
  obtain ⟨r, hlookup, hfs, hstatus⟩ := h.lookup_name hroot hne hname hin none
  rw [if_pos htaken] at hstatus
  rw [addEntry, hlookup, ok_bind, hstatus, determinate_some, ok_bind, if_pos rfl, hfs]
  rfl

-- No slot is left: the lookup of the name returns no value.
theorem addEntry_noSlot (op : DirOp) {s : List UInt8} (hlen : 11 ≤ s.length) (hname : 0 ∉ s)
    (hin : ∀ e ∈ visited (rootSlots fs.disk), s.length < 24 ∨ cString e.name ≠ none)
    (htaken : ¬ Taken fs.disk s) (hslot : ¬ HasSlot fs.disk) :
    addEntry op fs parent s = .error .indeterminate := by
  have hne : s ≠ [] := List.ne_nil_of_length_pos (by omega)
  obtain ⟨r, hlookup, -, hstatus⟩ := h.lookup_name hroot hne hname hin none
  rw [if_neg htaken, if_neg hslot] at hstatus
  rw [addEntry, hlookup, ok_bind, hstatus, determinate_none, error_bind]

-- The entry goes into the first slot that is left; `fs₁` is the state after the allocation of the
-- inode.
theorem addEntry_ok (op : DirOp) {s : List UInt8} (hlen : 11 ≤ s.length) (hshort : s.length < 24)
    (hname : 0 ∉ s) (htaken : ¬ Taken fs.disk s) (hslot : HasSlot fs.disk) {n : Nat}
    (hn : n < 2 ^ 31) {fs₁ : Ext2Filesystem}
    (halloc : allocFreeInode fs parent = .ok ((n : Int), fs₁)) (h₁ : RootAt fs₁)
    (hslots : rootSlots fs₁.disk = rootSlots fs.disk) :
    ∃ fs₂, addEntry op fs parent s = .ok (some (dirEntry (UInt32.ofNat n) s), (n : Int), fs₂) ∧
      fs₂.spb = fs₁.spb ∧ fs₂.disk.numberOfSectors = fs₁.disk.numberOfSectors ∧
      ∀ x, fs₂.disk.content x =
        if x = 288 + terminator fs.disk / 16 then
          updateAt asEntries (fs₁.disk.content x) (terminator fs.disk % 16)
            fun old ↦ filledEntry old s (UInt32.ofNat n)
        else fs₁.disk.content x := by
  have hne : s ≠ [] := List.ne_nil_of_length_pos (by omega)
  obtain ⟨r, hlookup, hfs, hstatus⟩ := h.lookup_name hroot hne hname (fun _ _ ↦ Or.inl hshort) none
  rw [if_neg htaken, if_pos hslot] at hstatus
  have hterm : terminator fs₁.disk = terminator fs.disk := by
    rw [terminator, hslots, terminator]
  have hslot₁ : HasSlot fs₁.disk := by
    rw [HasSlot, hterm]
    exact hslot
  have hfind := h₁.findNoMore_eq hroot hslot₁ r.location
  have hfill : fillEntry (blankEntry op s) s (n : Int) = .ok (dirEntry (UInt32.ofNat n) s) := by
    rw [fillEntry_eq (by omega) hlen, if_pos (by omega), filledEntry_blank op hlen, ofInt_natCast]
  have hinode : (dirEntry (UInt32.ofNat n) s).inode.toNat = n := by
    change (UInt32.ofNat n).toNat = n
    simp
    omega
  have hvalid : (dirEntry (UInt32.ofNat n) s).inode ≠ UInt32.ofInt ext2Error := ofNat_ne_error hn
  obtain ⟨fs₂, hinsert, hspb, hn₂, hc⟩ := insertEntry_spec
    (show 296 ≤ fs₁.disk.numberOfSectors.toNat from h₁.block_lt)
    (show terminator fs.disk < 128 from hslot)
    (cString_dirEntry hname hshort (UInt32.ofNat n)) hlen (by rw [hinode]; exact hn)
  refine ⟨fs₂, ?_, hspb, hn₂, hc⟩
  rw [addEntry, hlookup, ok_bind, hstatus, determinate_some, ok_bind, if_neg (by decide), hfs, halloc]
  simp only [ok_bind, hfill]
  rw [if_neg hvalid, hfind]
  simp only [ok_bind, hterm, hinsert]
  rfl

-- A name of 24 characters or more is never entered.
theorem addEntry_long (op : DirOp) {s : List UInt8} (hlen : 24 ≤ s.length) (hname : 0 ∉ s) {n : Nat}
    (hn : n < 2 ^ 31) {fs₁ : Ext2Filesystem}
    (halloc : allocFreeInode fs parent = .ok ((n : Int), fs₁)) :
    ¬ Defined (addEntry op fs parent s) := by
  rintro ⟨res, hrun⟩
  unfold addEntry at hrun
  obtain ⟨r, hlookup, hrun⟩ := bind_eq_ok.mp hrun
  rw [h.ext2Lookup_eq hroot] at hlookup
  obtain ⟨scan, hscan, hr⟩ := bind_eq_ok.mp hlookup
  rw [Except.ok.injEq] at hr
  subst hr
  cases scan with
  | found i => exact scanEntries_long hlen _ _ _ hscan
  | next => cases hrun
  | noMore =>
    simp only [EntryScan.result, determinate_some, ok_bind] at hrun
    rw [if_neg (by decide), halloc] at hrun
    simp only [ok_bind] at hrun
    obtain ⟨entry, hfill, hrun⟩ := bind_eq_ok.mp hrun
    rw [fillEntry_eq (by omega) (by omega), ofInt_natCast] at hfill
    split at hfill
    · rw [Except.ok.injEq] at hfill
      subst hfill
      rw [if_neg] at hrun
      · obtain ⟨l, -, hrun⟩ := bind_eq_ok.mp hrun
        obtain ⟨fs₂, hinsert, -⟩ := bind_eq_ok.mp hrun
        exact insertEntry_unterminated (cString_filledEntry_full _ hname (by omega)) _ ⟨fs₂, hinsert⟩
      · rw [filledEntry_inode]
        exact ofNat_ne_error hn
    · cases hfill

end RootAt

end Ext2Fs
