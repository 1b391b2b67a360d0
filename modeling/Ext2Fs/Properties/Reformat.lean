import Ext2Fs.Properties.RootCapacity

/-!
# Formatting a disk again

What `ext2_format` writes does not depend on what the disk held.  It clears the first sector of the
root directory only, so that entries of an earlier session can come back.
-/

open Reasoning

namespace Ext2Fs

/-! ## The image -/

/-- What `create_root` leaves on a disk of at most sixteen groups. -/
def rootImage (sb : Ext2SuperBlock) (groups x : Nat) : Option Sector :=
  if x = 16 then some (onesPrefix 512 37)
  else if x % 262144 = 8 ∧ x / 262144 < groups then some (asDescs.symm (newDescs groups))
  else if x % 262144 = 0 ∧ x / 262144 < groups then some (asSuperBlock.symm (countRootSb sb))
  else if x = 288 then some (asEntries.symm rootEntries)
  else if x = 32 then some (rootInodeSector 36)
  else none

/-- And on a larger one, where it takes the superblock's sector for the bitmap. -/
def rootImageLarge (sb : Ext2SuperBlock) (groups x : Nat) : Option Sector :=
  if x = 0 then (setBit (asSuperBlock.symm (countRootSb sb)) 32).toOption
  else if x % 262144 = 8 ∧ x / 262144 < groups then
    some (asDescs.symm
      ((Vector.replicate 16 Ext2GroupDesc.zero).set 0 (countRoot Ext2GroupDesc.zero) firstRecord_lt))
  else if x % 262144 = 0 ∧ x / 262144 < groups then some (asSuperBlock.symm (countRootSb sb))
  else if x = 256 then some (asEntries.symm rootEntries)
  else none

/-- Everything that `ext2_format` writes. -/
def formatImage (sb : Ext2SuperBlock) (groups : Nat) : Nat → Option Sector :=
  onTop (if groups ≤ 16 then rootImage sb groups else rootImageLarge sb groups)
    (onTop (loopImage groups groups) (startImage sb))

section Format

variable {disk disk' : DiskOperations} {r : Int}

theorem ext2Format_image (hpos : 1 ≤ disk.groups) :
    ∃ disk', ext2Format disk = .ok (ext2Success, disk') ∧
      disk'.numberOfSectors = disk.numberOfSectors ∧
      disk'.content = overlay (formatImage disk.newSb disk.groups) disk.content := by
  by_cases hfew : disk.groups ≤ 16
  · rcases ext2Format_content hpos hfew with ⟨st, disk', hst, hformat, hn, hc⟩
    refine ⟨disk', hformat, ?_, ?_⟩
    · rw [hn, hst.sectors_eq]
      simp [formatStart]
    · rw [formatImage, if_pos hfew, overlay_onTop, ← hst.image]
      funext x
      rw [hc, overlay, rootImage]
      split
      · rfl
      · split
        · rfl
        · split
          · rfl
          · split
            · rfl
            · split <;> rfl
  · have hmany : 16 < disk.groups := Nat.lt_of_not_le hfew
    rcases ext2Format_content_large hmany with ⟨st, disk', bits, hst, hbits, hformat, hn, hc⟩
    refine ⟨disk', hformat, ?_, ?_⟩
    · rw [hn, hst.sectors_eq]
      simp [formatStart]
    · rw [formatImage, if_neg hfew, overlay_onTop, ← hst.image]
      funext x
      rw [hc, overlay, rootImageLarge, hbits]
      split
      · rfl
      · split
        · rfl
        · split
          · rfl
          · split
            · rfl
            · rfl

theorem ext2Format_again (hpos : 1 ≤ disk.groups) (h : ext2Format disk = .ok (r, disk')) :
    ext2Format disk' = .ok (r, disk') := by
  rcases ext2Format_image hpos with ⟨disk₁, hformat, hn, hc⟩
  rw [h, Except.ok.injEq, Prod.mk.injEq] at hformat
  rcases hformat with ⟨rfl, rfl⟩
  have hgroups : disk'.groups = disk.groups := groups_congr hn
  rcases ext2Format_image (show 1 ≤ disk'.groups by omega) with ⟨disk₂, hformat, hn', hc'⟩
  have heq : disk₂ = disk' := by
    apply DiskOperations.ext_content hn'
    intro x
    rw [hc', newSb_congr hn, hgroups, hc, overlay_overlay]
  rw [hformat, heq]

/-- On two disks of one size `ext2_format` writes the same sectors with the same contents, whatever
the disks held, and leaves the others alone; so a second format changes nothing. -/
theorem format_independent {disk₁ disk₂ : DiskOperations} (hpos : 1 ≤ disk₁.groups)
    (hn : disk₂.numberOfSectors = disk₁.numberOfSectors) :
    ∃ disk₁' disk₂', ext2Format disk₁ = .ok (ext2Success, disk₁') ∧
      ext2Format disk₂ = .ok (ext2Success, disk₂') ∧
      (∀ x, disk₁'.content x = disk₂'.content x ∨
        (disk₁'.content x = disk₁.content x ∧ disk₂'.content x = disk₂.content x)) ∧
      ext2Format disk₁' = .ok (ext2Success, disk₁') := by
  have hgroups : disk₂.groups = disk₁.groups := groups_congr hn
  rcases ext2Format_image hpos with ⟨disk₁', hformat₁, -, hc₁⟩
  rcases ext2Format_image (show 1 ≤ disk₂.groups by omega) with ⟨disk₂', hformat₂, -, hc₂⟩
  refine ⟨disk₁', disk₂', hformat₁, hformat₂, fun x ↦ ?_, ext2Format_again hpos hformat₁⟩
  rw [hc₁, hc₂, newSb_congr hn, hgroups]
  exact overlay_cases _ disk₁.content disk₂.content x

/-- A zeroed disk, and one whose sectors hold ones. -/
theorem format_independent_zeroedDisk : ∃ disk₁ disk₂,
    ext2Format (zeroedDisk 262144) = .ok (ext2Success, disk₁) ∧
    ext2Format (DiskOperations.ofContents 262144 fun _ ↦ Vector.replicate 512 0xff) =
      .ok (ext2Success, disk₂) ∧
    ext2Format disk₁ = .ok (ext2Success, disk₁) := by
  rcases @format_independent (zeroedDisk 262144)
    (.ofContents 262144 fun _ ↦ Vector.replicate 512 0xff) (by decide) rfl with
    ⟨disk₁, disk₂, hformat₁, hformat₂, -, hagain⟩
  exact ⟨disk₁, disk₂, hformat₁, hformat₂, hagain⟩

end Format

/-! ## The slots of the root -/

/-- The entries that `create_root` makes. -/
def rootStart : List Ext2DirEntry := [dirEntry 2 slashName, dirEntry 2 dotName, dirEntry 2 dotdotName]

/-- The root's slots in a session: the entries that were made, in order, in the first `room` slots
behind those of `create_root`, and then `rest`. -/
structure Laid (room : Nat) (rest : List Ext2DirEntry) (s : Session) : Prop where
  slots : s.made.length ≤ room → rootSlots s.fs.disk =
    rootStart ++ s.made.map (·.node.entry) ++
      List.replicate (room - s.made.length) Ext2DirEntry.zero ++ rest
  held : ∀ m ∈ s.made, m.node.entry.holds m.name ∧ ¬ m.node.entry.isNoMore

section Slots

variable {disk : DiskOperations} {s s' : Session} {c : Call} {room : Nat}
  {rest : List Ext2DirEntry}

theorem rootStart_not_noMore : ∀ entry ∈ rootStart, ¬ entry.isNoMore := by
  decide

-- The entries before the first blank slot.
theorem visited_of_forall {front later : List Ext2DirEntry} (h : ∀ entry ∈ front, ¬ entry.isNoMore) :
    visited (front ++ later) = front ++ visited later := by
  induction front with
  | nil => rfl
  | cons entry front ih =>
    rw [List.cons_append, visited_cons, if_neg (h entry List.mem_cons_self),
      ih fun e he ↦ h e (List.mem_cons_of_mem entry he), List.cons_append]

theorem visited_zero (slots : List Ext2DirEntry) : visited (Ext2DirEntry.zero :: slots) = [] := by
  rw [visited_cons, if_pos (by decide)]

theorem Formatted.rootSlots_laid {old disk' : DiskOperations} (h : Formatted old disk') :
    rootSlots disk' = rootStart ++ List.replicate 13 Ext2DirEntry.zero ++ laterSlots old := by
  have hfirst : firstSlots disk' = rootStart ++ List.replicate 13 Ext2DirEntry.zero := by
    unfold firstSlots
    rw [h.rootDir, Equiv.apply_symm_apply]
    decide
  rw [rootSlots_append, hfirst, h.laterSlots_eq]

-- The entries that were made are in front of the first blank slot.
theorem Laid.front_not_noMore (h : Laid room rest s) :
    ∀ entry ∈ rootStart ++ s.made.map (·.node.entry), ¬ entry.isNoMore := by
  intro entry hentry
  rcases List.mem_append.mp hentry with hstart | hmade
  · exact rootStart_not_noMore entry hstart
  · rcases List.mem_map.mp hmade with ⟨m, hm, rfl⟩
    exact (h.held m hm).2

theorem Laid.visited_eq (h : Laid room rest s) (hroom : s.made.length < room) :
    visited (rootSlots s.fs.disk) = rootStart ++ s.made.map (·.node.entry) := by
  obtain ⟨k, hk⟩ : ∃ k, room - s.made.length = k + 1 := ⟨room - s.made.length - 1, by omega⟩
  rw [h.slots (by omega), hk, List.replicate_succ, List.append_assoc, List.cons_append,
    visited_of_forall h.front_not_noMore, visited_zero, List.append_nil]

theorem Laid.visited_full (h : Laid room rest s) (hfull : s.made.length = room) :
    visited (rootSlots s.fs.disk) = rootStart ++ s.made.map (·.node.entry) ++ visited rest := by
  rw [h.slots (by omega), hfull, Nat.sub_self, List.replicate_zero, List.append_nil,
    visited_of_forall h.front_not_noMore]

theorem getElem?_rootSlots (disk : DiskOperations) {t : Nat} (ht : t < 128) :
    (rootSlots disk)[t]? = some (blockSlot disk 36 t) := by
  have hlt : t < (rootSlots disk).length := by
    rw [length_rootSlots]
    exact ht
  rw [List.getElem?_eq_getElem hlt, getElem_rootSlots]

-- A new entry takes the first blank slot.
theorem Laid.make (h : Laid room rest s) (hroom : s.made.length < room) {op : DirOp}
    {fs' : Ext2Filesystem} {name : List UInt8} {k b d : Nat}
    (hmakes : Makes op s.fs fs' name k b d) (hslot : HasSlot s.fs.disk) :
    rootSlots fs'.disk = rootStart ++ s.made.map (·.node.entry) ++
      [dirEntry (UInt32.ofNat (nextInode k)) name] ++
      List.replicate (room - (s.made.length + 1)) Ext2DirEntry.zero ++ rest := by
  obtain ⟨n, hn⟩ : ∃ n, room - s.made.length = n + 1 := ⟨room - s.made.length - 1, by omega⟩
  have hnext : room - (s.made.length + 1) = n := by omega
  have hterm : terminator s.fs.disk = (rootStart ++ s.made.map (·.node.entry)).length := by
    rw [terminator, h.visited_eq hroom]
  have hslots : rootSlots s.fs.disk = (rootStart ++ s.made.map (·.node.entry)) ++
      Ext2DirEntry.zero :: (List.replicate n Ext2DirEntry.zero ++ rest) := by
    rw [h.slots (by omega), hn, List.replicate_succ, List.append_assoc, List.cons_append]
  have hblank : blockSlot s.fs.disk 36 (terminator s.fs.disk) = Ext2DirEntry.zero := by
    have hget := getElem?_rootSlots s.fs.disk hslot
    rw [hslots, hterm, List.getElem?_append_right (Nat.le_refl _), Nat.sub_self,
      List.getElem?_cons_zero, Option.some.injEq] at hget
    rw [hterm]
    exact hget.symm
  rw [hmakes.slots, hblank, hterm, hslots, List.set_append_right _ _ (Nat.le_refl _), Nat.sub_self,
    List.set_cons_zero, hnext]
  simp only [List.append_assoc, List.cons_append, List.nil_append]
  rfl

theorem Laid.call (h : Laid room rest s) (hserving : Serving disk s) (hknows : s.Knows c)
    (hcall : s.call c = .ok s') : Laid room rest s' := by
  rcases hserving.call_cases hknows hcall with
    rfl | ⟨name, fs', -, hname, hshort, -, hslot, hmakes, rfl⟩
  · exact h
  · constructor
    case slots =>
      intro hroom
      rw [List.length_append, List.length_singleton] at hroom ⊢
      rw [h.make (by omega) hmakes hslot, List.map_append, ← List.append_assoc]
      rfl
    case held =>
      intro m hm
      rcases List.mem_append.mp hm with hold | hnew
      · exact h.held m hold
      · rw [List.mem_singleton.mp hnew]
        have h0 := formattedName_zeroFree hname
        have hentry : (newNode c.op (nextInode s.made.length) name).entry =
            filledEntry Ext2DirEntry.zero name (UInt32.ofNat (nextInode s.made.length)) := rfl
        rw [hentry]
        constructor
        · refine cString_filledEntry _ _ h0 hshort ?_
          exact Vector.getElem_replicate _
        · exact filledEntry_not_noMore _ h0 (formattedName_length hname)

theorem Session.Fresh.laid (h : s.Fresh disk) (hpos : 1 ≤ disk.groups) (hfew : disk.groups ≤ 16)
    (hlater : List.replicate 13 Ext2DirEntry.zero ++ laterSlots disk =
      List.replicate room Ext2DirEntry.zero ++ rest) : Laid room rest s := by
  rcases h with ⟨hmount, hmade⟩
  rcases exists_mounted hpos hfew with ⟨disk', hformatted, hmount'⟩
  rcases mounted_unique hmount hmount' with ⟨hfs, -⟩
  constructor
  case slots =>
    intro _
    rw [hfs, newFs_disk, hformatted.rootSlots_laid, hmade, List.append_assoc, hlater]
    rfl
  case held =>
    intro m hm
    rw [hmade] at hm
    cases hm

theorem InUse.laid (h : InUse disk s) (hpos : 1 ≤ disk.groups) (hfew : disk.groups ≤ 16)
    (hlater : List.replicate 13 Ext2DirEntry.zero ++ laterSlots disk =
      List.replicate room Ext2DirEntry.zero ++ rest) : Serving disk s ∧ Laid room rest s := by
  apply Reachable.invariant (fun s ↦ Serving disk s ∧ Laid room rest s) _ _ h
  · intro s hs
    exact ⟨(hs.serving hpos hfew).1, hs.laid hpos hfew hlater⟩
  · intro s c s' hs hknows hcall
    exact ⟨hs.1.call hknows hcall, hs.2.call hs.1 hknows hcall⟩

end Slots

/-! ## Names of an earlier session -/

section Names

variable {disk : DiskOperations} {s s' : Session} {c : Call}

-- A call makes one entry at most.
theorem Serving.call_length (h : Serving disk s) (hknows : s.Knows c) (hcall : s.call c = .ok s') :
    s'.made.length ≤ s.made.length + 1 := by
  rcases h.call_cases hknows hcall with rfl | ⟨name, fs', -, -, -, -, -, -, rfl⟩
  · exact Nat.le_succ _
  · rw [List.length_append, List.length_singleton]

/-- When the first sector of the root is full, the entries behind it are visited. -/
def ShowsLater (disk : DiskOperations) (s : Session) : Prop :=
  13 ≤ s.made.length →
    ∀ entry ∈ visited (laterSlots disk), entry ∈ visited (rootSlots s.fs.disk)

theorem Laid.showsLater (h : Laid 13 (laterSlots disk) s) (hfull : s.made.length ≤ 13) :
    ShowsLater disk s := by
  intro hlength entry hentry
  rw [h.visited_full (Nat.le_antisymm hfull hlength)]
  exact List.mem_append_right _ hentry

theorem InUse.showsLater (h : InUse disk s) (hpos : 1 ≤ disk.groups) (hfew : disk.groups ≤ 16) :
    (Serving disk s ∧ Laid 13 (laterSlots disk) s) ∧ ShowsLater disk s := by
  apply Reachable.invariant
    (fun s ↦ (Serving disk s ∧ Laid 13 (laterSlots disk) s) ∧ ShowsLater disk s) _ _ h
  · intro s hs
    have hlaid := hs.laid hpos hfew rfl
    refine ⟨⟨(hs.serving hpos hfew).1, hlaid⟩, hlaid.showsLater ?_⟩
    rw [hs.2]
    exact Nat.zero_le _
  · rintro s c s' ⟨⟨hserving, hlaid⟩, hshows⟩ hknows hcall
    have hlaid' := hlaid.call hserving hknows hcall
    refine ⟨⟨hserving.call hknows hcall, hlaid'⟩, ?_⟩
    by_cases hfull : 13 ≤ s.made.length
    · intro _ entry hentry
      exact (hserving.call_visited hknows hcall).subset (hshows hfull entry hentry)
    · have hlength := hserving.call_length hknows hcall
      exact hlaid'.showsLater (by omega)

-- The entries that the format does not reach, of a session on a disk with a blank root block.
theorem InUse.visited_later (h : InUse disk s) (hpos : 1 ≤ disk.groups) (hfew : disk.groups ≤ 16)
    (hblank : laterSlots disk = List.replicate 112 Ext2DirEntry.zero) {m : Made}
    (hm : m ∈ s.made.drop 13) :
    m.node.entry ∈ visited (laterSlots s.fs.disk) ∧ m.node.entry.holds m.name := by
  have hlater : List.replicate 13 Ext2DirEntry.zero ++ laterSlots disk =
      List.replicate 125 Ext2DirEntry.zero ++ [] := by
    rw [hblank, List.append_nil, ← List.replicate_add]
  rcases h.laid hpos hfew hlater with ⟨hserving, hlaid⟩
  have hroom := hserving.room
  have hslots : laterSlots s.fs.disk = (s.made.drop 13).map (·.node.entry) ++
      List.replicate (125 - s.made.length) Ext2DirEntry.zero := by
    have hdrop : (rootSlots s.fs.disk).drop 16 = laterSlots s.fs.disk := by
      rw [rootSlots_append]
      exact List.drop_left' (length_firstSlots _)
    have h13 : 13 ≤ s.made.length := by
      by_contra hlt
      rw [List.drop_eq_nil_of_le (by omega)] at hm
      cases hm
    rw [← hdrop, hlaid.slots (by omega), List.append_nil, List.drop_append_of_le_length,
      List.drop_append, List.map_drop]
    · rfl
    · rw [List.length_append, List.length_map]
      change 16 ≤ 3 + _
      omega
  have hheld := hlaid.held m (List.mem_of_mem_drop hm)
  refine ⟨?_, hheld.1⟩
  rw [hslots, visited_of_forall]
  · exact List.mem_append_left _ (List.mem_map_of_mem hm)
  · intro entry hentry
    rcases List.mem_map.mp hentry with ⟨m', hm', rfl⟩
    exact (hlaid.held m' (List.mem_of_mem_drop hm')).2

end Names

/-- A disk with a blank root block is formatted and used, and then formatted and used once more.
The names of the first use are gone, until the second one has made thirteen entries: then those
from the fourteenth on are in the root again. -/
theorem old_names_return {disk : DiskOperations} {s₁ s₂ : Session} (hpos : 1 ≤ disk.groups)
    (hfew : disk.groups ≤ 16)
    (hblank : laterSlots disk = List.replicate 112 Ext2DirEntry.zero) (h₁ : InUse disk s₁)
    (h₂ : InUse s₁.fs.disk s₂) :
    (s₂.made.length < 13 → ∀ name, Taken s₂.fs.disk name ↔
      name ∈ [slashName, dotName, dotdotName] ++ s₂.made.map (·.name)) ∧
    (13 ≤ s₂.made.length → ∀ m ∈ s₁.made.drop 13, Taken s₂.fs.disk m.name) := by
  have hgroups : s₁.fs.disk.groups = disk.groups := groups_congr (h₁.serving hpos hfew).sectors_eq
  rcases h₂.showsLater (by omega) (by omega) with ⟨⟨-, hlaid⟩, hshows⟩
  constructor
  · intro hroom name
    unfold Taken
    rw [hlaid.visited_eq hroom, List.mem_append, List.mem_map]
    constructor
    · rintro ⟨entry, hentry, hholds⟩
      rcases List.mem_append.mp hentry with hstart | hmade
      · left
        have hnames : ∀ entry ∈ rootStart,
            cString entry.name ∈ [slashName, dotName, dotdotName].map some := by decide
        have hname := hnames entry hstart
        rw [hholds] at hname
        simpa using hname
      · right
        rcases List.mem_map.mp hmade with ⟨m, hm, rfl⟩
        refine ⟨m, hm, ?_⟩
        have hheld := (hlaid.held m hm).1
        exact Option.some.inj (hheld.symm.trans hholds)
    · rintro (hstart | ⟨m, hm, rfl⟩)
      · have hentries : ∀ name ∈ [slashName, dotName, dotdotName],
            ∃ entry ∈ rootStart, entry.holds name := by decide
        rcases hentries name hstart with ⟨entry, hentry, hholds⟩
        exact ⟨entry, List.mem_append_left _ hentry, hholds⟩
      · exact ⟨m.node.entry, List.mem_append_right _ (List.mem_map_of_mem hm), (hlaid.held m hm).1⟩
  · intro hfull m hm
    rcases h₁.visited_later hpos hfew hblank hm with ⟨hentry, hholds⟩
    exact ⟨m.node.entry, hshows hfull _ hentry, hholds⟩

/-- Fourteen files, a format, and thirteen more. -/
theorem old_names_return_zeroedDisk : ∃ s₁ s₂, InUse (zeroedDisk 262144) s₁ ∧
    s₁.made.length = 14 ∧ InUse s₁.fs.disk s₂ ∧ s₂.made.length = 13 ∧
    ∃ m ∈ s₁.made.drop 13, Taken s₂.fs.disk m.name := by
  have hpos : 1 ≤ (zeroedDisk 262144).groups := by decide
  have hfew : (zeroedDisk 262144).groups ≤ 16 := by decide
  rcases exists_session hpos hfew .create 14 (by rw [rootCapacity_zeroedDisk]; decide) with
    ⟨s₁, h₁, hlength₁⟩
  have hgroups : s₁.fs.disk.groups = (zeroedDisk 262144).groups :=
    groups_congr (h₁.serving hpos hfew).sectors_eq
  rcases @exists_session s₁.fs.disk (by omega) (by omega) .create 13 (Nat.le_add_right _ _) with
    ⟨s₂, h₂, hlength₂⟩
  have hlast : s₁.made[13] ∈ s₁.made.drop 13 := by
    rw [List.drop_eq_getElem_cons (by omega)]
    exact List.mem_cons_self
  exact ⟨s₁, s₂, h₁, hlength₁, h₂, hlength₂, _, hlast,
    (old_names_return hpos hfew (laterSlots_zeroedDisk 262144) h₁ h₂).2 (by omega) _ hlast⟩

end Ext2Fs
