import Ext2Fs.Spec.Session

/-!
# The contents of directories

What `ext2_lookup` visits in each directory is compared with the calls that made the entries.
-/

open Reasoning

namespace Ext2Fs

/-! ## What the directories should hold -/

/-- Names and inode numbers of the entries of a directory. -/
abbrev Listing := List (List UInt8 × UInt32)

namespace Listing

abbrev names (l : Listing) : List (List UInt8) := l.map (·.1)

/-- The entries hold these names and inode numbers, in this order. -/
def HeldBy (l : Listing) (entries : List Ext2DirEntry) : Prop :=
  entries.map (fun entry ↦ (cString entry.name, entry.inode)) = l.map fun p ↦ (some p.1, p.2)

end Listing

/-- The entries that `create_root` makes. -/
def rootListing : Listing := [(slashName, 2), (dotName, 2), (dotdotName, 2)]

namespace Session

/-- The directories with the entries that they start with. -/
def startListings (s : Session) : List (Ext2Node × Listing) :=
  (s.root, rootListing) :: (s.made.filter (·.op = .mkdir)).map fun m ↦
    (m.node, [(dotName, m.node.entry.inode), (dotdotName, m.parent.entry.inode)])

/-- The entries that successful calls made in a directory, in order. -/
def madeIn (s : Session) (dir : Ext2Node) : Listing :=
  (s.made.filter (·.parent.entry.inode = dir.entry.inode)).map fun m ↦ (m.name, m.node.entry.inode)

/-- Every directory holds what it started with and what was made in it, under distinct names, and
`ext2_lookup` finds these names and no others. -/
def DirectoryContents (s : Session) : Prop :=
  ∀ p ∈ s.startListings,
    (p.2 ++ s.madeIn p.1).names.Nodup ∧
    (∃ slots, dirSlots s.fs p.1 = .ok slots ∧ (p.2 ++ s.madeIn p.1).HeldBy (visited slots)) ∧
    ∀ name, name ≠ [] → 0 ∉ name → ∃ r, ext2Lookup s.fs p.1 name none = .ok r ∧
      r.status = some (if name ∈ (p.2 ++ s.madeIn p.1).names then ext2Success else ext2Error)

end Session

/-- Status and location that a lookup returns. -/
def lookupResult (fs : Ext2Filesystem) (dir : Ext2Node) (name : List UInt8) :
    Exec (Option Int × Option EntryLocation) := do
  let r ← ext2Lookup fs dir name none
  return (r.status, r.location)

/-- The call changes the lookup of no name in any directory but that of its own name in its own
parent. -/
def OthersKept (s s' : Session) (c : Call) : Prop :=
  ∀ dir ∈ s.dirs, ∀ name, name ≠ [] → 0 ∉ name →
    (dir.entry.inode = c.parent.entry.inode → formattedName c.op c.entryName ≠ .ok (some name)) →
    lookupResult s'.fs dir name = lookupResult s.fs dir name

/-- The entry goes into a slot whose old name shows nothing behind the new one, and the slot behind
it ends the directory. -/
def StaysTerminated (fs : Ext2Filesystem) (dir : Ext2Node) (name : List UInt8) : Prop :=
  ∃ slots slot next rest, dirSlots fs dir = .ok slots ∧
    slots.drop (visited slots).length = slot :: next :: rest ∧
    slot.name.toList[name.length]? = some 0 ∧ next.isNoMore

/-- The calls that keep the contents of directories: on the root, and either without an effect, the
name being rejected or there already, or a call of `ext2_create` that leaves the root terminated. -/
def KeepsContents (s : Session) (c : Call) : Prop :=
  c.parent = s.root ∧ (formattedName c.op c.entryName = .ok none ∨
    ∃ name, formattedName c.op c.entryName = .ok (some name) ∧
      ((∃ slots, dirSlots s.fs s.root = .ok slots ∧ ∃ entry ∈ visited slots, entry.holds name) ∨
        (c.op = .create ∧ StaysTerminated s.fs s.root name)))

/-! ## The root -/

/-- What holds between the calls of such a session. -/
structure Listed (s : Session) : Prop where
  created : ∀ m ∈ s.made, m.op = .create
  inRoot : ∀ m ∈ s.made, m.parent = s.root
  held : (rootListing ++ s.madeIn s.root).HeldBy (visited (rootSlots s.fs.disk))
  nodup : (rootListing ++ s.madeIn s.root).names.Nodup
  slot : HasSlot s.fs.disk

section Held

variable {l : Listing} {entries : List Ext2DirEntry} (h : l.HeldBy entries)

include h

-- A name is listed exactly when an entry holds it.
theorem Listing.HeldBy.mem_names_iff (name : List UInt8) :
    name ∈ l.names ↔ ∃ entry ∈ entries, entry.holds name := by
  have hmap := congrArg (List.map Prod.fst) h
  rw [List.map_map, List.map_map] at hmap
  have hmem : some name ∈ l.map (fun p ↦ some p.1) ↔ name ∈ l.names := by
    simp
  rw [← hmem]
  change some name ∈ l.map (Prod.fst ∘ fun p ↦ (some p.1, p.2)) ↔ _
  rw [← hmap, List.mem_map]
  rfl

theorem Listing.HeldBy.ne_none {entry : Ext2DirEntry} (hmem : entry ∈ entries) :
    cString entry.name ≠ none := by
  have hpair : (cString entry.name, entry.inode) ∈ l.map fun p ↦ (some p.1, p.2) := by
    rw [← show _ = _ from h]
    exact List.mem_map.mpr ⟨entry, hmem, rfl⟩
  obtain ⟨p, -, hp⟩ := List.mem_map.mp hpair
  rw [← (Prod.mk.inj hp).1]
  exact Option.some_ne_none _

end Held

theorem Listing.HeldBy.append {l : Listing} {entries : List Ext2DirEntry} (h : l.HeldBy entries)
    {name : List UInt8} {inode : UInt32} {entry : Ext2DirEntry} (hname : entry.holds name)
    (hinode : entry.inode = inode) : (l ++ [(name, inode)]).HeldBy (entries ++ [entry]) := by
  unfold HeldBy at h ⊢
  rw [List.map_append, List.map_append, h]
  simp [hinode, show cString entry.name = some name from hname]

-- Status and location of a lookup in a terminated root.
theorem RootAt.lookupResult_eq {fs : Ext2Filesystem} (h : RootAt fs) {dir : Ext2Node}
    (hroot : dir.entry.inode = 2) (hslot : HasSlot fs.disk) {name : List UInt8} (hne : name ≠ [])
    (hname : 0 ∉ name) (hin : ∀ entry ∈ visited (rootSlots fs.disk), cString entry.name ≠ none) :
    lookupResult fs dir name = .ok (
      match (visited (rootSlots fs.disk)).findIdx? (·.holds name) with
      | some i => (some ext2Success, some ⟨36, UInt32.ofNat i⟩)
      | none => (some ext2Error, none)) := by
  have hscan := scanEntries_name hne hname 0 (fun entry hmem ↦ Or.inr (hin entry hmem))
  rw [length_rootSlots, if_pos (show (visited (rootSlots fs.disk)).length < 128 from hslot)] at hscan
  rw [lookupResult, h.ext2Lookup_eq hroot, hscan]
  cases (visited (rootSlots fs.disk)).findIdx? (·.holds name) with
  | some i =>
    simp only [Nat.zero_add, ok_bind]
    rfl
  | none => rfl

-- The slot that ends the directory, and the terminator behind it.
theorem StaysTerminated.behind {disk : DiskOperations} {s : Session} (hs : Serving disk s)
    {name : List UInt8} (h : StaysTerminated s.fs s.root name) :
    name.length < 24 ∧
      (blockSlot s.fs.disk 36 (terminator s.fs.disk)).name.toList[name.length]? = some 0 ∧
      ∃ next rest, (rootSlots s.fs.disk).drop (terminator s.fs.disk + 1) = next :: rest ∧
        next.isNoMore := by
  obtain ⟨slots, slot, next, rest, hslots, hdrop, hbyte, hnext⟩ := h
  rw [hs.dirSlots_root, Except.ok.injEq] at hslots
  subst hslots
  have hlen : name.length < 24 := by
    obtain ⟨hlt, -⟩ := List.getElem?_eq_some_iff.mp hbyte
    simpa using hlt
  have hlt : terminator s.fs.disk < (rootSlots s.fs.disk).length := by
    have hl := congrArg List.length hdrop
    simp only [List.length_drop, List.length_cons] at hl
    unfold terminator
    omega
  have hcons := List.drop_eq_getElem_cons hlt
  rw [show (rootSlots s.fs.disk).drop (terminator s.fs.disk) = slot :: next :: rest from hdrop,
    getElem_rootSlots] at hcons
  obtain ⟨hslot, htail⟩ := List.cons.inj hcons
  rw [hslot] at hbyte
  exact ⟨hlen, hbyte, next, rest, htail.symm, hnext⟩

-- With a terminator behind the slot that it takes, a new entry becomes the last one.
theorem Makes.visited_eq {op : DirOp} {fs fs' : Ext2Filesystem} {name : List UInt8} {k b d : Nat}
    (h : Makes op fs fs' name k b d) (h0 : 0 ∉ name) (h11 : 11 ≤ name.length)
    {next : Ext2DirEntry} {rest : List Ext2DirEntry}
    (hbehind : (rootSlots fs.disk).drop (terminator fs.disk + 1) = next :: rest)
    (hnext : next.isNoMore) :
    visited (rootSlots fs'.disk) = visited (rootSlots fs.disk) ++
        [filledEntry (blockSlot fs.disk 36 (terminator fs.disk)) name
          (UInt32.ofNat (nextInode k))] ∧
      HasSlot fs'.disk := by
  have hroom : terminator fs.disk + 1 < (rootSlots fs.disk).length := by
    have hl := congrArg List.length hbehind
    simp only [List.length_drop, List.length_cons] at hl
    omega
  have hvisited : visited (rootSlots fs'.disk) = visited (rootSlots fs.disk) ++
      [filledEntry (blockSlot fs.disk 36 (terminator fs.disk)) name
        (UInt32.ofNat (nextInode k))] := by
    rw [h.slots, terminator,
      visited_set (filledEntry_not_noMore _ h0 h11) (Nat.lt_of_succ_lt hroom)]
    rw [show (rootSlots fs.disk).drop ((visited (rootSlots fs.disk)).length + 1) = next :: rest
      from hbehind, visited_cons, if_pos hnext]
  refine ⟨hvisited, ?_⟩
  rw [length_rootSlots] at hroom
  rw [HasSlot, terminator, hvisited, List.length_append, List.length_singleton]
  exact hroom

namespace Listed

variable {disk : DiskOperations} {s : Session} {c : Call}

theorem dirs_eq (h : Listed s) : s.dirs = [s.root] := by
  have hnone : s.made.filter (·.op = .mkdir) = [] := by
    rw [List.filter_eq_nil_iff]
    intro m hm
    simp [h.created m hm]
  rw [Session.dirs, hnone]
  rfl

theorem taken_iff (h : Listed s) (name : List UInt8) :
    Taken s.fs.disk name ↔ name ∈ (rootListing ++ s.madeIn s.root).names :=
  (h.held.mem_names_iff name).symm

theorem directoryContents (h : Listed s) (hs : Serving disk s) : s.DirectoryContents := by
  have hnone : s.made.filter (·.op = .mkdir) = [] := by
    rw [List.filter_eq_nil_iff]
    intro m hm
    simp [h.created m hm]
  intro p hp
  rw [Session.startListings, hnone, List.map_nil, List.mem_singleton] at hp
  subst hp
  refine ⟨h.nodup, ⟨_, hs.dirSlots_root, h.held⟩, fun name hne hname ↦ ?_⟩
  obtain ⟨r, hlookup, -, hstatus⟩ := hs.live.rootAt.lookup_name hs.root_inode hne hname
    (fun entry hmem ↦ Or.inr (h.held.ne_none hmem)) none
  refine ⟨r, hlookup, ?_⟩
  rw [hstatus, if_pos h.slot]
  by_cases htaken : Taken s.fs.disk name
  · rw [if_pos htaken, if_pos ((h.taken_iff name).mp htaken)]
  · rw [if_neg htaken, if_neg (fun hmem ↦ htaken ((h.taken_iff name).mpr hmem))]

-- One more call recorded in the root.
theorem madeIn_append (hparent : c.parent = s.root) {fs' : Ext2Filesystem} {name : List UInt8}
    {node : Ext2Node} :
    Session.madeIn { s with fs := fs', made := s.made ++ [⟨c.op, c.parent, name, node⟩] } s.root =
      s.madeIn s.root ++ [(name, node.entry.inode)] := by
  unfold Session.madeIn
  rw [List.filter_append, List.map_append]
  simp [hparent]

-- A call without an effect.
theorem step_error (h : Listed s) {name : Option (List UInt8)}
    (hname : formattedName c.op c.entryName = .ok name)
    (hmake : ext2Make c.op s.fs c.parent c.entryName = .ok (ext2Error, none, s.fs)) :
    ∃ s', s.call c = .ok s' ∧ Listed s' ∧ OthersKept s s' c :=
  ⟨s, Session.call_of_error hname hmake, h, fun _ _ _ _ _ _ ↦ rfl⟩

-- The lookups of the names that were there see nothing of an entry behind theirs.
theorem lookupResult_append (h : Listed s) (hs : Serving disk s) {fs' : Ext2Filesystem}
    {entry : Ext2DirEntry} {name name' : List UInt8} (hroot : RootAt fs') (hslot : HasSlot fs'.disk)
    (hvisited : visited (rootSlots fs'.disk) = visited (rootSlots s.fs.disk) ++ [entry])
    (hnew : entry.holds name) (hne : name' ≠ []) (hname : 0 ∉ name') (hother : name ≠ name') :
    lookupResult fs' s.root name' = lookupResult s.fs s.root name' := by
  have hdiff : ¬ entry.holds name' := by
    intro hholds
    rw [Ext2DirEntry.holds, show cString entry.name = some name from hnew,
      Option.some.injEq] at hholds
    exact hother hholds
  have hstrings : ∀ e ∈ visited (rootSlots fs'.disk), cString e.name ≠ none := by
    rw [hvisited]
    intro e hmem
    rcases List.mem_append.mp hmem with hmem | hmem
    · exact h.held.ne_none hmem
    · rw [List.mem_singleton.mp hmem, show cString entry.name = some name from hnew]
      exact Option.some_ne_none _
  rw [hs.live.rootAt.lookupResult_eq hs.root_inode h.slot hne hname
      (fun entry hmem ↦ h.held.ne_none hmem),
    hroot.lookupResult_eq hs.root_inode hslot hne hname hstrings, hvisited, List.findIdx?_append]
  cases (visited (rootSlots s.fs.disk)).findIdx? (·.holds name') with
  | some i => rfl
  | none => simp [List.findIdx?_cons, hdiff]

-- A new entry, with a terminator behind it.
theorem step_create (h : Listed s) (hs : Serving disk s) (hparent : c.parent = s.root)
    {name : List UInt8} (hname : formattedName c.op c.entryName = .ok (some name))
    (hop : c.op = .create) (htaken : ¬ Taken s.fs.disk name)
    (hstays : StaysTerminated s.fs s.root name) :
    ∃ s', s.call c = .ok s' ∧ Listed s' ∧ OthersKept s s' c := by
  have h0 := formattedName_zeroFree hname
  have h11 := formattedName_length hname
  obtain ⟨hlen, hbyte, next, rest, hbehind, hnext⟩ := hstays.behind hs
  have hold : (blockSlot s.fs.disk 36 (terminator s.fs.disk)).name[name.length] = 0 := by
    rw [List.getElem?_eq_getElem (by simpa using hlen), Vector.getElem_toList,
      Option.some.injEq] at hbyte
    exact hbyte
  obtain ⟨fs', hmake, hmakes⟩ := hs.live.makeNamed hs.made_lt hs.root_inode hs.root_inodeNum c.op
    h11 hlen h0 htaken h.slot
  have hcall := Session.call_of_make (s := s) hname
    (by rw [hparent, ext2Make_accepted hname]; exact hmake)
  have hnew := cString_filledEntry (blockSlot s.fs.disk 36 (terminator s.fs.disk))
    (UInt32.ofNat (nextInode s.made.length)) h0 hlen hold
  obtain ⟨hvisited, hslot'⟩ := hmakes.visited_eq h0 h11 hbehind hnext
  refine ⟨_, hcall, ⟨?_, ?_, ?_, ?_, hslot'⟩, ?_⟩
  · intro m hm
    rcases List.mem_append.mp hm with hm | hm
    · exact h.created m hm
    · rw [List.mem_singleton.mp hm]
      exact hop
  · intro m hm
    rcases List.mem_append.mp hm with hm | hm
    · exact h.inRoot m hm
    · rw [List.mem_singleton.mp hm]
      exact hparent
  · rw [madeIn_append hparent, ← List.append_assoc]
    change Listing.HeldBy _ (visited (rootSlots fs'.disk))
    rw [hvisited]
    exact h.held.append hnew rfl
  · rw [madeIn_append hparent, ← List.append_assoc, Listing.names, List.map_append,
      List.nodup_append]
    refine ⟨h.nodup, by simp, ?_⟩
    intro a ha b hb heq
    rw [List.map_singleton, List.mem_singleton] at hb
    rw [heq, hb] at ha
    exact htaken ((h.taken_iff name).mpr ha)
  · intro dir hdir name' hne' hname' hother
    rw [h.dirs_eq, List.mem_singleton] at hdir
    subst hdir
    refine h.lookupResult_append hs hmakes.live.rootAt hslot' hvisited hnew hne' hname' ?_
    rintro rfl
    exact hother (by rw [hparent]) hname

-- One step of the sessions that keep the contents.
theorem step (h : Listed s) (hs : Serving disk s) (hkeeps : KeepsContents s c) :
    ∃ s', s.call c = .ok s' ∧ Listed s' ∧ OthersKept s s' c := by
  obtain ⟨hparent, hname | ⟨name, hname, hcases⟩⟩ := hkeeps
  · exact h.step_error hname (ext2Make_rejected hname)
  by_cases htaken : Taken s.fs.disk name
  · have hadd := hs.live.rootAt.addEntry_taken hs.root_inode c.op (formattedName_length hname)
      (formattedName_zeroFree hname) (fun entry hmem ↦ Or.inr (h.held.ne_none hmem)) htaken
    refine h.step_error hname ?_
    rw [hparent, ext2Make_accepted hname, makeNamed_of_addEntry_none hadd]
  · rcases hcases with ⟨slots, hslots, hmem⟩ | ⟨hop, hstays⟩
    · rw [hs.dirSlots_root, Except.ok.injEq] at hslots
      subst hslots
      exact absurd hmem htaken
    · exact h.step_create hs hparent hname hop htaken hstays

theorem start {s : Session} (h : s.Fresh disk) (hpos : 1 ≤ disk.groups) (hfew : disk.groups ≤ 16) :
    Listed s := by
  obtain ⟨-, disk', hformatted, hdisk⟩ := h.serving hpos hfew
  have hvisited := hformatted.visited_eq
  rw [← hdisk] at hvisited
  have hmadeIn : s.madeIn s.root = [] := by
    rw [Session.madeIn, h.2]
    rfl
  constructor
  case created =>
    rw [h.2]
    exact fun m hm ↦ absurd hm List.not_mem_nil
  case inRoot =>
    rw [h.2]
    exact fun m hm ↦ absurd hm List.not_mem_nil
  case held =>
    rw [hmadeIn, hvisited, Listing.HeldBy]
    decide
  case nodup =>
    rw [hmadeIn]
    decide
  case slot =>
    rw [HasSlot, terminator, hvisited]
    decide

end Listed

/-! ## Every session -/

/-- Along every session whose calls keep the contents, every directory holds what was made in it,
and a further such call changes no other lookup. -/
theorem directoryContents_of_keepsContents {disk : DiskOperations} (hpos : 1 ≤ disk.groups)
    (hfew : disk.groups ≤ 16) {s : Session}
    (h : Reachable Session.call KeepsContents (Session.Fresh disk) s) :
    s.DirectoryContents ∧
      ∀ c, KeepsContents s c → ∀ s', s.call c = .ok s' → OthersKept s s' c := by
  have hinv : Serving disk s ∧ Listed s := by
    refine Reachable.invariant (fun s ↦ Serving disk s ∧ Listed s)
      (fun s hs ↦ ⟨(hs.serving hpos hfew).1, Listed.start hs hpos hfew⟩) ?_ h
    rintro s c s' ⟨hs, hl⟩ hkeeps hcall
    obtain ⟨s'', hcall', hl', -⟩ := hl.step hs hkeeps
    rw [hcall, Except.ok.injEq] at hcall'
    subst hcall'
    have hknows : s.Knows c := by
      rw [Session.Knows, Session.dirs, hkeeps.1]
      exact List.mem_cons_self
    exact ⟨hs.call hknows hcall, hl'⟩
  obtain ⟨hs, hl⟩ := hinv
  refine ⟨hl.directoryContents hs, fun c hkeeps s' hcall ↦ ?_⟩
  obtain ⟨s'', hcall', -, hothers⟩ := hl.step hs hkeeps
  rw [hcall, Except.ok.injEq] at hcall'
  rw [hcall']
  exact hothers

-- A file made on a zeroed disk keeps the contents.
theorem keepsContents_zeroedDisk {s : Session} (h : s.Fresh (zeroedDisk 262144)) :
    KeepsContents s ⟨.create, s.root, [0x41]⟩ := by
  obtain ⟨hs, disk', hformatted, hdisk⟩ := h.serving (by decide) (by decide)
  obtain ⟨rest, hslots, -⟩ := hformatted.rootSlots_eq
  have hvisited := hformatted.visited_eq
  rw [← hdisk] at hslots hvisited
  refine ⟨rfl, Or.inr ⟨nameA, formattedName_A .create, Or.inr ⟨rfl, ?_⟩⟩⟩
  refine ⟨_, Ext2DirEntry.zero, Ext2DirEntry.zero, rest, hs.dirSlots_root, ?_, by decide, by decide⟩
  rw [hvisited, hslots]
  rfl

theorem directoryContents_zeroedDisk : ∃ s : Session, s.made.length = 1 ∧ s.DirectoryContents ∧
    ∀ c, KeepsContents s c → ∀ s', s.call c = .ok s' → OthersKept s s' c := by
  obtain ⟨s, s', hfresh, hcall, -, -, hmade, -⟩ := zeroedDisk_call .create
  exact ⟨s', by rw [hmade]; rfl, directoryContents_of_keepsContents (by decide) (by decide)
    (.call (.start hfresh) (keepsContents_zeroedDisk hfresh) hcall)⟩

/-- The first directory made on a zeroed disk has no entries that can be visited. -/
theorem not_directoryContents_mkdir :
    ∃ s : Session, InUse (zeroedDisk 262144) s ∧ s.made.length = 1 ∧ ¬ s.DirectoryContents := by
  obtain ⟨s, s', -, -, hinUse, -, hmade, hmakes⟩ := zeroedDisk_call .mkdir
  refine ⟨s', hinUse, by rw [hmade]; rfl, fun hcontents ↦ ?_⟩
  have hdir : (newNode .mkdir 11 nameA, [(dotName, 11), (dotdotName, s.root.entry.inode)]) ∈
      s'.startListings := by
    rw [Session.startListings, hmade]
    exact List.mem_cons_of_mem _ List.mem_cons_self
  obtain ⟨-, ⟨slots, hslots, -⟩, -⟩ := hcontents _ hdir
  have hunreadable : dirSlots s'.fs (newNode .mkdir 11 nameA) = .error .indeterminate :=
    dirSlots_unreadable (hmakes.inodeEntry_node (by decide))
  cases hunreadable.symm.trans hslots

end Ext2Fs
