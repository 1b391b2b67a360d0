import Ext2Fs.Properties.ErrorAtomicity
import Ext2Fs.Spec.Client

/-!
# What the disk held before the format

Two disks of the same size are formatted and mounted, and a client makes the same calls on both.
The format leaves the sectors of the root directory behind the first one, and the inode table behind
its first sector, as they were.
-/

open Reasoning

namespace Ext2Fs

/-! ## The property -/

/-- Everything that a client gets back, or `none` when the mount fails. -/
def observations (disk : DiskOperations) (calls : List ClientCall) :
    Exec (Option (List Observation)) := do
  match ← Client.start disk with
  | none => return none
  | some s => do
    let s ← forEach Client.observe s calls
    return some s.seen

/-- The calls give the same on both disks. -/
def HistoryErased (disk old : DiskOperations) (calls : List ClientCall) : Prop :=
  ∃ seen, observations disk calls = .ok seen ∧ observations old calls = .ok seen

/-- Every call of the run is shielded. -/
def ShieldedRun (disk : DiskOperations) (calls : List ClientCall) : Prop :=
  1 ≤ disk.groups ∧ ∀ s, Client.start disk = .ok (some s) →
    AllAllowed Client.observe Shielded s calls

/-! ## Two runs -/

/-- Two states that differ in what the format left alone; `later` are the entries that the second
one has behind the first sector of the root. -/
def Alike (later : List Ext2DirEntry) (s₁ s₂ : Client) : Prop :=
  (∃ v, Matches v s₁ ∧ Matches v s₂ ∧ laterSlots s₂.fs.disk = later) ∨
    ∃ seen, Rootless seen s₁ ∧ Rootless seen s₂

section Alike

variable {later : List Ext2DirEntry} {s₁ s₂ : Client} {c : ClientCall}

theorem Alike.seen (h : Alike later s₁ s₂) : s₁.seen = s₂.seen := by
  rcases h with ⟨v, h₁, h₂, -⟩ | ⟨seen, h₁, h₂⟩
  · rw [h₁.seen, h₂.seen]
  · rw [h₁.seen, h₂.seen]

theorem Alike.step (h : Alike later s₁ s₂) (hshielded : Shielded s₁ c) :
    ∃ s₁' s₂', s₁.observe c = .ok s₁' ∧ s₂.observe c = .ok s₂' ∧ Alike later s₁' s₂' := by
  rcases h with ⟨v, h₁, h₂, hlater⟩ | ⟨seen, h₁, h₂⟩
  · rcases h₁.step hshielded with ⟨v', hstep⟩
    rcases hstep s₁ h₁ with ⟨s₁', hcall₁, hmatches₁, -⟩
    rcases hstep s₂ h₂ with ⟨s₂', hcall₂, hmatches₂, hsame⟩
    exact ⟨s₁', s₂', hcall₁, hcall₂, Or.inl ⟨v', hmatches₁, hmatches₂, hsame.trans hlater⟩⟩
  · rcases h₁.step hshielded with ⟨seen', hstep⟩
    rcases hstep s₁ h₁ with ⟨s₁', hcall₁, hrootless₁⟩
    rcases hstep s₂ h₂ with ⟨s₂', hcall₂, hrootless₂⟩
    exact ⟨s₁', s₂', hcall₁, hcall₂, Or.inr ⟨seen', hrootless₁, hrootless₂⟩⟩

theorem Shielded.congr (hnodes : s₁.nodes = s₂.nodes)
    (hslots : s₂.fs.disk.groups ≤ 16 →
      s₁.fs.disk.groups ≤ 16 ∧ firstSlots s₁.fs.disk = firstSlots s₂.fs.disk)
    (h : Shielded s₂ c) : Shielded s₁ c := by
  cases c with
  | make op dir entryName =>
    rcases h with ⟨hdir, hname | ⟨name, hname, hfew, hdir0, hlen, hdecides⟩⟩
    · exact ⟨hnodes ▸ hdir, Or.inl hname⟩
    · rcases hslots hfew with ⟨hfew₁, hsame⟩
      exact ⟨hnodes ▸ hdir, Or.inr ⟨name, hname, hfew₁, hdir0, hlen, hsame ▸ hdecides⟩⟩
  | lookup dir entryName location =>
    rcases h with ⟨hfew, hdir, hdecides⟩
    rcases hslots hfew with ⟨hfew₁, hsame⟩
    exact ⟨hfew₁, hdir, hsame ▸ hdecides⟩
  | fillInode inode node => exact h

-- A call that gives an answer in the second state is shielded in the first.
theorem Alike.blocked (h : Alike later s₁ s₂) (hsilent : Silent later)
    (hdefined : Defined (s₂.observe c)) : Shielded s₁ c := by
  rcases h with ⟨v, h₁, h₂, hlater⟩ | ⟨seen, h₁, h₂⟩
  · refine Shielded.congr (h₁.nodes.trans h₂.nodes.symm) (fun _ ↦ ⟨h₁.few, ?_⟩)
      (h₂.blocked (by rw [hlater]; exact hsilent) hdefined)
    rw [h₁.slots, h₂.slots]
  · have hmany := h₂.many
    exact Shielded.congr (h₁.nodes.trans h₂.nodes.symm) (fun hfew ↦ by omega) (h₂.blocked hdefined)

end Alike

/-! ## The start -/

/-- The format puts three entries into the first sector of the root. -/
def freshView : View where
  slots := rootEntries.toList
  made := []
  seen := [.mounted rootNode]
  unreadable := fun _ hnode ↦ absurd hnode List.not_mem_nil
  room := by decide
  terminated := by decide
  blank := by decide

section Start

variable {disk old : DiskOperations}

theorem start_of_mounted {fs : Ext2Filesystem} {root : Ext2Node} (h : Mounted disk fs root) :
    Client.start disk = .ok (some ⟨fs, [root], [.mounted root]⟩) := by
  rw [Client.start, show formatAndMount disk = _ from h]
  rfl

theorem start_few (hpos : 1 ≤ disk.groups) (hfew : disk.groups ≤ 16) :
    ∃ s, Client.start disk = .ok (some s) ∧ Matches freshView s ∧
      laterSlots s.fs.disk = laterSlots disk := by
  rcases exists_mounted hpos hfew with ⟨disk', hformatted, hmount⟩
  refine ⟨_, start_of_mounted hmount, ⟨rfl, rfl, ?_, ?_, ⟨0, 0, hformatted.live hpos⟩⟩, ?_⟩
  · change (asEntries (disk'.content 288)).toList = rootEntries.toList
    rw [hformatted.rootDir, Equiv.apply_symm_apply]
  · rw [newFs_groups hformatted]
    exact hfew
  · unfold laterSlots
    apply List.map_congr_left
    intro t ht
    have hrange : 16 ≤ t ∧ t < 128 := by simpa using List.mem_range'_1.mp ht
    unfold blockSlot
    rw [newFs_disk, hformatted.frame _ (by omega) (by omega) (by omega) (by omega) (by omega)]

theorem start_many (hmany : 16 < disk.groups) :
    ∃ s, Client.start disk = .ok (some s) ∧ Rootless [.mounted rootNode] s := by
  rcases exists_mounted_large hmany with ⟨disk', count, hformatted, -, hmount⟩
  refine ⟨_, start_of_mounted hmount, rfl, rfl, ?_, (exists_mounted_noRoot hmany hmount).2⟩
  rw [largeFs_disk, groups_congr hformatted.sectors_eq]
  exact hmany

theorem exists_alike (hpos : 1 ≤ disk.groups) (hn : old.numberOfSectors = disk.numberOfSectors) :
    ∃ s₁ s₂, Client.start disk = .ok (some s₁) ∧ Client.start old = .ok (some s₂) ∧
      Alike (laterSlots old) s₁ s₂ := by
  have hgroups := groups_congr hn
  by_cases hfew : disk.groups ≤ 16
  · rcases start_few hpos hfew with ⟨s₁, hstart₁, hmatches₁, -⟩
    rcases start_few (show 1 ≤ old.groups by omega) (by omega) with ⟨s₂, hstart₂, hmatches₂, hlater⟩
    exact ⟨s₁, s₂, hstart₁, hstart₂, Or.inl ⟨freshView, hmatches₁, hmatches₂, hlater⟩⟩
  · rcases start_many (show 16 < disk.groups by omega) with ⟨s₁, hstart₁, hrootless₁⟩
    rcases start_many (show 16 < old.groups by omega) with ⟨s₂, hstart₂, hrootless₂⟩
    exact ⟨s₁, s₂, hstart₁, hstart₂, Or.inr ⟨_, hrootless₁, hrootless₂⟩⟩

end Start

/-! ## A disk full of letters -/

/-- Sectors filled with the letter `A`. -/
def letteredDisk (numberOfSectors : UInt32) : DiskOperations :=
  DiskOperations.ofContents numberOfSectors fun _ ↦ Vector.replicate 512 0x41

theorem letteredDisk_silent (n : UInt32) : Silent (laterSlots (letteredDisk n)) := by
  obtain ⟨entry, hentries, hname⟩ := asEntries_replicate 0x41
  have hslot : ∀ t, blockSlot (letteredDisk n) 36 t = entry := by
    intro t
    rw [blockSlot_eq (show (letteredDisk n).content _ = Vector.replicate 512 0x41 from rfl)]
    simp only [hentries, Vector.getElem_replicate]
  intro e hmem
  rcases List.mem_map.mp hmem with ⟨t, -, rfl⟩
  rw [hslot, Ext2DirEntry.isNoMore, hname]
  exact ⟨by decide, by decide⟩

-- Without a group the descriptor that the root is put by is one of letters.
theorem letteredDisk_undefined {n : UInt32} (hzero : (letteredDisk n).groups = 0) :
    ¬ Defined (Client.start (letteredDisk n)) := by
  rintro ⟨s, hstart⟩
  obtain ⟨desc, hdescs, htable⟩ := asDescs_replicate 0x41
  have hvalue : (getElem (asDescs ((letteredDisk n).content 8)) 0 firstRecord_lt).bgInodeTable =
      0x41414141 := by
    change (getElem (asDescs (Vector.replicate 512 0x41)) 0 firstRecord_lt).bgInodeTable = _
    simp only [hdescs, Vector.getElem_replicate, htable]
    decide
  unfold Client.start formatAndMount at hstart
  rcases bind_eq_ok.mp hstart with ⟨mounted, hmount, -⟩
  rcases bind_eq_ok.mp hmount with ⟨r, hformat, -⟩
  exact ext2Format_undefined hzero (by rw [hvalue]; decide) (by rw [hvalue]; decide) ⟨r, hformat⟩

/-! ## The condition -/

theorem observations_eq {disk : DiskOperations} {s : Client}
    (h : Client.start disk = .ok (some s)) (calls : List ClientCall) :
    observations disk calls = forEach Client.observe s calls >>= fun s' ↦ .ok (some s'.seen) := by
  rw [observations, h]
  rfl

/-- What the client gets back is independent of what the disk held exactly when every call is
shielded. -/
theorem historyErased_iff (disk : DiskOperations) (calls : List ClientCall) :
    (∀ old : DiskOperations, old.numberOfSectors = disk.numberOfSectors →
      HistoryErased disk old calls) ↔ ShieldedRun disk calls := by
  constructor
  · intro h
    let old := letteredDisk disk.numberOfSectors
    have hn : old.numberOfSectors = disk.numberOfSectors := rfl
    rcases h old hn with ⟨seen, -, hold⟩
    have hpos : 1 ≤ disk.groups := by
      by_contra hzero
      have hgroups : old.groups = 0 := by
        rw [groups_congr hn]
        omega
      rcases bind_eq_ok.mp hold with ⟨s, hstart, -⟩
      exact letteredDisk_undefined hgroups ⟨s, hstart⟩
    refine ⟨hpos, fun s hs ↦ ?_⟩
    rcases exists_alike hpos hn with ⟨s₁, s₂, hstart₁, hstart₂, halike⟩
    rw [hs, Except.ok.injEq, Option.some.injEq] at hstart₁
    subst hstart₁
    rw [observations_eq hstart₂] at hold
    rcases bind_eq_ok.mp hold with ⟨s', hrun, -⟩
    exact @allAllowed_of_defined _ _ Client.observe Shielded (Alike (laterSlots old))
      (fun _ _ _ hrel hc ↦ hrel.step hc)
      (fun _ _ _ hrel hdefined ↦ hrel.blocked (letteredDisk_silent _) hdefined) _ _ _ halike
      ⟨s', hrun⟩
  · rintro ⟨hpos, hshielded⟩ old hn
    rcases exists_alike hpos hn with ⟨s₁, s₂, hstart₁, hstart₂, halike⟩
    rcases @forEach_lockstep _ _ Client.observe Shielded (Alike (laterSlots old))
      (fun _ _ _ hrel hc ↦ hrel.step hc) _ _ _ halike (hshielded s₁ hstart₁) with
      ⟨s₁', s₂', hrun₁, hrun₂, hend⟩
    refine ⟨some s₁'.seen, ?_, ?_⟩
    · rw [observations_eq hstart₁, hrun₁, ok_bind]
    · rw [observations_eq hstart₂, hrun₂, ok_bind, hend.seen]

/-! ## A file from before the format -/

/-- One letter, as `ext2_create` is given it. -/
def letter (i : Fin 14) : CString :=
  ⟨[UInt8.ofNat (0x41 + i.val)], by
    revert i
    decide⟩

/-- A file for each letter. -/
def creates (is : List (Fin 14)) : List ClientCall := is.map fun i ↦ .make .create 0 (letter i)

theorem letterName_length (i : Nat) : (letterName i).length = 11 := by simp [letterName]

-- New letters fill the first sector.
theorem creates_run {is : List (Fin 14)} (hnodup : is.Nodup) {v : View}
    (hroom : v.made.length + is.length ≤ 13)
    (hnew : ∀ i ∈ is, ∀ entry ∈ v.slots, ¬ entry.holds (letterName i)) :
    ∃ v' : View, v'.made.length = v.made.length + is.length ∧
      (∀ i : Fin 14, i ∉ is → (∀ entry ∈ v.slots, ¬ entry.holds (letterName i)) →
        ∀ entry ∈ v'.slots, ¬ entry.holds (letterName i)) ∧
      ∀ s, Matches v s → ∃ s', forEach Client.observe s (creates is) = .ok s' ∧ Matches v' s' ∧
        laterSlots s'.fs.disk = laterSlots s.fs.disk := by
  induction is generalizing v with
  | nil => exact ⟨v, rfl, fun i _ h ↦ h, fun s h ↦ ⟨s, rfl, h, rfl⟩⟩
  | cons i is ih =>
    rw [List.nodup_cons] at hnodup
    rw [List.length_cons] at hroom
    have hname := formattedName_letterName i.isLt
    have hlen : (letterName i).length < 24 := by
      rw [letterName_length]
      decide
    have hnoMore : ∃ entry ∈ v.slots, entry.isNoMore := by
      have hcount := v.room
      simpa using List.countP_pos_iff.mp (show 0 < v.slots.countP (·.isNoMore) by omega)
    have hdecides : Decides v.slots (letterName i) := by
      rcases hnoMore with ⟨entry, hmem, hentry⟩
      exact ⟨entry, hmem, Or.inl hentry⟩
    have htaken : ¬ ∃ entry ∈ visited v.slots, entry.holds (letterName i) := by
      rintro ⟨entry, hmem, hholds⟩
      exact hnew i List.mem_cons_self entry (visited_subset _ hmem) hholds
    obtain ⟨v₁, hv₁⟩ : ∃ v₁, v₁ = v.enter .create (formattedName_length hname) hlen
      (formattedName_zeroFree hname) hnoMore := ⟨_, rfl⟩
    have hlength : v₁.made.length = v.made.length + 1 := by
      rw [hv₁]
      exact List.length_append
    -- the other letters are as new as before
    have hothers : ∀ i' : Fin 14, i' ≠ i → (∀ entry ∈ v.slots, ¬ entry.holds (letterName i')) →
        ∀ entry ∈ v₁.slots, ¬ entry.holds (letterName i') := by
      intro i' hne hnone entry hmem hholds
      rw [hv₁] at hmem
      rcases List.mem_or_eq_of_mem_set hmem with hmem | rfl
      · exact hnone entry hmem hholds
      · rw [Ext2DirEntry.holds, cString_dirEntry (formattedName_zeroFree hname) hlen,
          Option.some.injEq] at hholds
        exact hne (Fin.ext (letterName_inj i'.isLt i.isLt hholds.symm))
    rcases ih hnodup.2 (v := v₁) (by omega) (fun i' hi' ↦ hothers i'
      (fun heq ↦ hnodup.1 (heq ▸ hi')) (hnew i' (List.mem_cons_of_mem i hi'))) with
      ⟨v', hmade, hkept, hrun⟩
    refine ⟨v', ?_, fun i' hi' hnone ↦ ?_, fun s h ↦ ?_⟩
    · rw [hmade, hlength, List.length_cons]
      omega
    · rw [List.mem_cons, not_or] at hi'
      exact hkept i' hi'.2 (hothers i' hi'.1 hnone)
    · rcases h.make_new hname hlen hdecides htaken hnoMore with ⟨fs', hmake, hmatches, hlater⟩
      rw [← hv₁] at hmatches
      rcases hrun _ hmatches with ⟨s', hrest, hend, hsame⟩
      refine ⟨s', ?_, hend, hsame.trans hlater⟩
      have hcall : s.observe (.make .create 0 (letter i)) = _ :=
        observe_success (Client.node_zero h.nodes) hmake
      rw [creates, List.map_cons, forEach_cons, hcall, ok_bind]
      exact hrest

/-- The fourteenth name, as `ext2_create` formats it. -/
def lastName : CString := ⟨letterName 13, by decide⟩

/-- Thirteen files, and a lookup of a fourteenth. -/
def reuseCalls : List ClientCall :=
  creates ((List.finRange 14).take 13) ++ [.lookup 0 lastName none]

-- The lookup goes on to the sectors that the format left alone.
theorem observations_reuse : ∃ seen : List Observation, ∀ (disk : DiskOperations) (status : Int),
    1 ≤ disk.groups → disk.groups ≤ 16 →
    (if ∃ entry ∈ visited (laterSlots disk), entry.holds lastName then some ext2Success
      else if ∃ entry ∈ laterSlots disk, entry.isNoMore then some ext2Error else none) =
        some status →
    ∃ location, observations disk reuseCalls = .ok (some (seen ++ [.looked status location])) := by
  obtain ⟨v, hmade, hkept, hrun⟩ := @creates_run ((List.finRange 14).take 13) (by decide) freshView
    (by decide) (by decide)
  have hnone : ∀ entry ∈ v.slots, ¬ entry.holds lastName := hkept 13 (by decide) (by decide)
  have hfull : ¬ ∃ entry ∈ v.slots, entry.isNoMore := by
    have hroom := v.room
    have hthirteen : v.made.length = 13 := hmade
    simpa using List.countP_eq_zero.mp (show v.slots.countP (·.isNoMore) = 0 by omega)
  refine ⟨v.seen, fun disk status hpos hfew hstatus ↦ ?_⟩
  rcases start_few hpos hfew with ⟨s₀, hstart, hfresh, hlater₀⟩
  rcases hrun s₀ hfresh with ⟨s, hcreates, hmatches, hlater⟩
  have hslots : rootSlots s.fs.disk = v.slots ++ laterSlots disk := by
    rw [rootSlots_append, hmatches.slots, hlater, hlater₀]
  have hvisited : visited (rootSlots s.fs.disk) = v.slots ++ visited (laterSlots disk) := by
    rw [exists_noMore_iff_visited] at hfull
    rw [hslots, visited_append, if_pos (by
      have hle := visited_length_le v.slots
      omega)]
  have htaken : Taken s.fs.disk lastName ↔
      ∃ entry ∈ visited (laterSlots disk), entry.holds lastName := by
    unfold Taken
    rw [hvisited]
    constructor
    · rintro ⟨entry, hmem, hholds⟩
      rcases List.mem_append.mp hmem with hmem | hmem
      · exact absurd hholds (hnone entry hmem)
      · exact ⟨entry, hmem, hholds⟩
    · rintro ⟨entry, hmem, hholds⟩
      exact ⟨entry, List.mem_append_right _ hmem, hholds⟩
  have hslot : HasSlot s.fs.disk ↔ ∃ entry ∈ laterSlots disk, entry.isNoMore := by
    rw [← exists_noMore_iff, hslots]
    constructor
    · rintro ⟨entry, hmem, hentry⟩
      rcases List.mem_append.mp hmem with hmem | hmem
      · exact absurd ⟨entry, hmem, hentry⟩ hfull
      · exact ⟨entry, hmem, hentry⟩
    · rintro ⟨entry, hmem, hentry⟩
      exact ⟨entry, List.mem_append_right _ hmem, hentry⟩
  rcases hmatches.rootAt.lookup_name (show rootNode.entry.inode = 2 from rfl)
    (show lastName.val ≠ [] by decide) lastName.2 (fun _ _ ↦ Or.inl (by decide)) none with
    ⟨r, hlookup, hfs, hr⟩
  have hanswer : r.status = some status := by
    rw [hr, ← hstatus]
    simp only [htaken, hslot]
  refine ⟨r.location, ?_⟩
  rw [observations_eq hstart, reuseCalls, forEach_append, hcreates, ok_bind, forEach_cons,
    observe_looked (Client.node_zero hmatches.nodes) hlookup hfs hanswer, ok_bind, forEach_nil,
    ok_bind, hmatches.seen]

/-- A zeroed disk but for one entry of the file system that it held before. -/
def reusedDisk : DiskOperations :=
  DiskOperations.ofContents 262144 fun x ↦
    if x = 289 then asEntries.symm (entriesOf [dirEntry 40 lastName]) else zeroSector

theorem laterSlots_eq_cons (disk : DiskOperations) : laterSlots disk =
    blockSlot disk 36 16 :: (List.range' 17 111).map (blockSlot disk 36) := rfl

-- Nothing is found behind a terminator.
theorem zeroedDisk_looked :
    (if ∃ entry ∈ visited (laterSlots (zeroedDisk 262144)), entry.holds lastName
        then some ext2Success
      else if ∃ entry ∈ laterSlots (zeroedDisk 262144), entry.isNoMore then some ext2Error
      else none) = some ext2Error := by
  have hzero : blockSlot (zeroedDisk 262144) 36 16 = Ext2DirEntry.zero := by
    rw [blockSlot_eq (show (zeroedDisk 262144).content _ = zeroSector from rfl)]
    simp only [asEntries_zeroSector, Vector.getElem_replicate]
  have hnoMore : Ext2DirEntry.zero.isNoMore := by decide
  rw [laterSlots_eq_cons, hzero, visited_cons, if_pos hnoMore, if_neg (by simp),
    if_pos ⟨Ext2DirEntry.zero, List.mem_cons_self, hnoMore⟩]

theorem reusedDisk_looked :
    (if ∃ entry ∈ visited (laterSlots reusedDisk), entry.holds lastName then some ext2Success
      else if ∃ entry ∈ laterSlots reusedDisk, entry.isNoMore then some ext2Error else none) =
        some ext2Success := by
  have hcontent : reusedDisk.content 289 = asEntries.symm (entriesOf [dirEntry 40 lastName]) := by
    change (if (289 : Nat) = 289 then asEntries.symm (entriesOf [dirEntry 40 lastName])
      else zeroSector) = _
    rw [if_pos rfl]
  have hold : blockSlot reusedDisk 36 16 = dirEntry 40 lastName := by
    rw [blockSlot_eq (show reusedDisk.content (8 * 36 + 16 / 16) = _ from hcontent),
      Equiv.apply_symm_apply, getElem_entriesOf _ (by decide)]
    rfl
  have hnoMore : ¬ (dirEntry 40 lastName).isNoMore := by decide
  have hholds : (dirEntry 40 lastName).holds lastName := by decide
  rw [laterSlots_eq_cons, hold, visited_cons, if_neg hnoMore,
    if_pos ⟨dirEntry 40 lastName, List.mem_cons_self, hholds⟩]

/-- The name of the old entry is found on one disk only. -/
theorem not_historyErased : reusedDisk.numberOfSectors = (zeroedDisk 262144).numberOfSectors ∧
    Defined (observations (zeroedDisk 262144) reuseCalls) ∧
    Defined (observations reusedDisk reuseCalls) ∧
    ¬ HistoryErased (zeroedDisk 262144) reusedDisk reuseCalls := by
  obtain ⟨seen, hlooked⟩ := observations_reuse
  rcases hlooked _ _ (by decide) (by decide) zeroedDisk_looked with ⟨location₁, hrun₁⟩
  rcases hlooked _ _ (by decide) (by decide) reusedDisk_looked with ⟨location₂, hrun₂⟩
  refine ⟨rfl, ⟨_, hrun₁⟩, ⟨_, hrun₂⟩, ?_⟩
  rintro ⟨o, ho₁, ho₂⟩
  rw [hrun₁, Except.ok.injEq] at ho₁
  rw [hrun₂, Except.ok.injEq, ← ho₁, Option.some.injEq] at ho₂
  have hlast := List.append_cancel_left ho₂
  rw [List.cons.injEq, Observation.looked.injEq] at hlast
  exact absurd hlast.1.1 (by decide)

end Ext2Fs
