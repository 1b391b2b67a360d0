import Ext2Fs.Spec.FirstSector

/-!
# A client of the mounted file system

A client calls `ext2_mkdir`, `ext2_create`, `ext2_lookup` and `ext2_fill_inode` on the nodes that it
has obtained.  What it gets back depends on what the format and the calls before wrote, as long as
no call goes past the first sector of the root directory or of the inode table.
-/

open Reasoning

namespace Ext2Fs

/-! ## A client -/

/-- A C string, without its terminator. -/
abbrev CString := { s : List UInt8 // 0 ∉ s }

/-- The calls of a client.  A node is given by its place among those obtained so far: 0 is the root,
and the nodes of the successful calls follow. -/
inductive ClientCall where
  | make (op : DirOp) (dir : Nat) (entryName : CString)
  | lookup (dir : Nat) (entryName : CString) (location : Option EntryLocation)
  | fillInode (inode : InodeVar) (node : Nat)

/-- What the client gets back. -/
inductive Observation where
  | mounted (root : Ext2Node)
  | made (status : Int) (retEntry : Option Ext2Node)
  | looked (status : Int) (location : Option EntryLocation)
  | filled (inode : InodeVar)
  deriving DecidableEq

structure Client where
  fs : Ext2Filesystem
  nodes : List Ext2Node
  seen : List Observation

namespace Client

def node (s : Client) (i : Nat) : Exec Ext2Node :=
  match s.nodes[i]? with
  | some node => .ok node
  | none => .error .badPointer

/-- One call.  What the client gets back must be determined by the call. -/
def observe (s : Client) : ClientCall → Exec Client
  | .make op dir entryName => do
    let parent ← s.node dir
    let (status, retEntry, fs) ← ext2Make op s.fs parent entryName
    let made := if status = ext2Success then retEntry.toList else []
    return { fs := fs, nodes := s.nodes ++ made, seen := s.seen ++ [.made status retEntry] }
  | .lookup dir entryName location => do
    let parent ← s.node dir
    let r ← ext2Lookup s.fs parent entryName location
    let status ← determinate r.status
    return { s with fs := r.fs, seen := s.seen ++ [.looked status r.location] }
  | .fillInode inode node => do
    let node ← s.node node
    let inode := ext2FillInode s.fs inode node.entry.inode
    let _ ← determinate inode.iMode
    let _ ← determinate inode.iBlocks
    return { s with seen := s.seen ++ [.filled inode] }

/-- `fs_format` and `fs_mount`. -/
def start (disk : DiskOperations) : Exec (Option Client) := do
  match ← formatAndMount disk with
  | none => return none
  | some (fs, root) => return some { fs := fs, nodes := [root], seen := [.mounted root] }

end Client

section Observe

variable {s : Client} {op : DirOp} {dir : Nat} {entryName : CString} {parent : Ext2Node}

theorem Client.node_zero {nodes : List Ext2Node} (h : s.nodes = parent :: nodes) :
    s.node 0 = .ok parent := by
  rw [Client.node, h]
  rfl

theorem Client.node_eq_ok (h : s.node dir = .ok parent) : s.nodes[dir]? = some parent := by
  unfold Client.node at h
  cases hnode : s.nodes[dir]? with
  | none =>
    rw [hnode] at h
    cases h
  | some node =>
    rw [hnode, Except.ok.injEq] at h
    rw [h]

theorem Client.exists_node (h : dir < s.nodes.length) : s.node dir = .ok s.nodes[dir] := by
  rw [Client.node, List.getElem?_eq_getElem h]

theorem observe_error (hnode : s.node dir = .ok parent)
    (hmake : ext2Make op s.fs parent entryName = .ok (ext2Error, none, s.fs)) :
    s.observe (.make op dir entryName) =
      .ok { s with seen := s.seen ++ [.made ext2Error none] } := by
  unfold Client.observe
  simp only [hnode, ok_bind, hmake]
  simp

theorem observe_success {node : Ext2Node} {fs' : Ext2Filesystem} (hnode : s.node dir = .ok parent)
    (hmake : ext2Make op s.fs parent entryName = .ok (ext2Success, some node, fs')) :
    s.observe (.make op dir entryName) =
      .ok ⟨fs', s.nodes ++ [node], s.seen ++ [.made ext2Success (some node)]⟩ := by
  unfold Client.observe
  simp only [hnode, ok_bind, hmake]
  rfl

theorem observe_looked {status : Int} {location : Option EntryLocation} {r : LookupResult}
    (hnode : s.node dir = .ok parent)
    (hlookup : ext2Lookup s.fs parent entryName location = .ok r) (hfs : r.fs = s.fs)
    (hstatus : r.status = some status) :
    s.observe (.lookup dir entryName location) =
      .ok { s with seen := s.seen ++ [.looked status r.location] } := by
  unfold Client.observe
  simp only [hnode, ok_bind, hlookup, hfs, hstatus, determinate_some]
  rfl

-- The inode that the code can read gives the same fields on every disk.
theorem observe_filled (entry : Ext2Inode) (inode : InodeVar) : ∃ filled, ∀ (s : Client)
    (i : Nat) (node : Ext2Node), s.node i = .ok node →
      inodeEntry s.fs node.entry.inode = some entry →
      s.observe (.fillInode inode i) = .ok { s with seen := s.seen ++ [.filled filled] } := by
  obtain ⟨filled, hfilled⟩ : ∃ filled : InodeVar, filled = { inode with
      iMode := some entry.iMode
      iBlocks := some entry.iBlocks
      iBlock := Vector.ofFn fun k ↦
        if k.val < pointersFilled entry.iBlocks then some entry.iBlock[k.val]
        else inode.iBlock[k.val] } := ⟨_, rfl⟩
  refine ⟨filled, fun s i node hnode hentry ↦ ?_⟩
  have hfill : ext2FillInode s.fs inode node.entry.inode = filled := by
    rw [ext2FillInode, hentry, hfilled]
  have hmode : filled.iMode = some entry.iMode := by rw [hfilled]
  have hblocks : filled.iBlocks = some entry.iBlocks := by rw [hfilled]
  unfold Client.observe
  simp only [hnode, ok_bind, hfill, hmode, hblocks, determinate_some]
  rfl

end Observe

/-! ## Calls that stay in the first sectors -/

/-- The calls that see only what the format or a call wrote.  An accepted name is one that fits an
entry, and a call that goes through the root meets the name or a free slot in its first sector. -/
def Shielded (s : Client) : ClientCall → Prop
  | .make op dir entryName => dir < s.nodes.length ∧ (formattedName op entryName = .ok none ∨
      ∃ name, formattedName op entryName = .ok (some name) ∧ s.fs.disk.groups ≤ 16 ∧ dir = 0 ∧
        name.length < 24 ∧ Decides (firstSlots s.fs.disk) name)
  | .lookup dir entryName _ => s.fs.disk.groups ≤ 16 ∧ dir = 0 ∧
      Decides (firstSlots s.fs.disk) entryName
  | .fillInode _ node => node = 0

/-! ## At most sixteen groups -/

/-- What the format and the calls determine of the state: the entries of the first sector of the
root, the nodes made, and what the client got back. -/
structure View where
  slots : List Ext2DirEntry
  made : List Ext2Node
  seen : List Observation
  -- the inodes of the nodes made are outside the first sector of the table
  unreadable : ∀ node ∈ made, 11 ≤ node.entry.inode.toNat ∧ node.entry.inode.toNat < 412
  -- the format leaves thirteen free slots
  room : slots.countP (·.isNoMore) + made.length = 13
  terminated : ∀ entry ∈ slots, cString entry.name ≠ none
  blank : ∀ entry ∈ slots, entry.isNoMore → entry = Ext2DirEntry.zero

/-- A state that looks like the view. -/
structure Matches (v : View) (s : Client) : Prop where
  nodes : s.nodes = rootNode :: v.made
  seen : s.seen = v.seen
  slots : firstSlots s.fs.disk = v.slots
  few : s.fs.disk.groups ≤ 16
  live : ∃ b d, Live s.fs v.made.length b d

/-- The view with one more answer. -/
def View.answer (v : View) (o : Observation) : View := { v with seen := v.seen ++ [o] }

theorem Matches.answer {v : View} {s : Client} (h : Matches v s) (o : Observation) :
    Matches (v.answer o) { s with seen := s.seen ++ [o] } where
  nodes := h.nodes
  seen := by
    change s.seen ++ [o] = v.seen ++ [o]
    rw [h.seen]
  slots := h.slots
  few := h.few
  live := h.live

theorem View.made_lt (v : View) : v.made.length < 200 := by
  have hroom := v.room
  omega

/-- The view after `name` was entered. -/
def View.enter (v : View) (op : DirOp) {name : List UInt8} (h11 : 11 ≤ name.length)
    (hlen : name.length < 24) (h0 : 0 ∉ name) (hnoMore : ∃ entry ∈ v.slots, entry.isNoMore) :
    View where
  slots := v.slots.set (visited v.slots).length
    (dirEntry (UInt32.ofNat (nextInode v.made.length)) name)
  made := v.made ++ [newNode op (nextInode v.made.length) name]
  seen := v.seen ++ [.made ext2Success (some (newNode op (nextInode v.made.length) name))]
  unreadable := by
    have hbound := nextInode_bounds v.made_lt
    intro node hnode
    rcases List.mem_append.mp hnode with hnode | hnode
    · exact v.unreadable node hnode
    · rw [List.mem_singleton] at hnode
      have hinode : node.entry.inode.toNat = nextInode v.made.length := by
        rw [hnode]
        exact toNat_nextInode v.made_lt
      rw [hinode]
      exact hbound
  room := by
    have hlt := exists_noMore_iff_visited.mp hnoMore
    have hold := isNoMore_terminator hlt
    have hnew : ¬ (dirEntry (UInt32.ofNat (nextInode v.made.length)) name).isNoMore :=
      @filledEntry_not_noMore Ext2DirEntry.zero name _ h0 h11
    have hpos : 0 < v.slots.countP (·.isNoMore) :=
      List.countP_pos_iff.mpr ⟨_, List.getElem_mem hlt, decide_eq_true hold⟩
    have hroom := v.room
    rw [List.countP_set hlt, decide_eq_true hold, decide_eq_false hnew, List.length_append,
      List.length_singleton]
    simp only [if_true, Bool.false_eq_true, if_false]
    omega
  terminated := by
    intro entry hmem
    rcases List.mem_or_eq_of_mem_set hmem with hmem | rfl
    · exact v.terminated entry hmem
    · rw [cString_dirEntry h0 hlen]
      simp
  blank := by
    intro entry hmem hentry
    rcases List.mem_or_eq_of_mem_set hmem with hmem | rfl
    · exact v.blank entry hmem hentry
    · exact absurd hentry (@filledEntry_not_noMore Ext2DirEntry.zero name _ h0 h11)

section Step

variable {v : View} {s : Client}

theorem Matches.rootAt (h : Matches v s) : RootAt s.fs := by
  rcases h.live with ⟨b, d, hlive⟩
  exact hlive.rootAt

-- A call whose name is in the first sector already.
theorem Matches.make_taken (h : Matches v s) {op : DirOp} {entryName name : List UInt8}
    (hname : formattedName op entryName = .ok (some name)) (hlen : name.length < 24)
    (hdecides : Decides v.slots name) (htaken : ∃ entry ∈ visited v.slots, entry.holds name) :
    ext2Make op s.fs rootNode entryName = .ok (ext2Error, none, s.fs) := by
  rw [← h.slots] at hdecides htaken
  rw [ext2Make_accepted hname]
  exact makeNamed_of_addEntry_none (h.rootAt.addEntry_taken (show rootNode.entry.inode = 2 from rfl)
    op (formattedName_length hname) (formattedName_zeroFree hname) (fun _ _ ↦ Or.inl hlen)
    ((taken_iff_of_decides hdecides).mpr htaken))

-- A call whose name goes into the first sector.
theorem Matches.make_new (h : Matches v s) {op : DirOp} {entryName name : List UInt8}
    (hname : formattedName op entryName = .ok (some name)) (hlen : name.length < 24)
    (hdecides : Decides v.slots name) (htaken : ¬ ∃ entry ∈ visited v.slots, entry.holds name)
    (hnoMore : ∃ entry ∈ v.slots, entry.isNoMore) :
    ∃ fs', ext2Make op s.fs rootNode entryName =
        .ok (ext2Success, some (newNode op (nextInode v.made.length) name), fs') ∧
      Matches (v.enter op (formattedName_length hname) hlen (formattedName_zeroFree hname) hnoMore)
        ⟨fs', s.nodes ++ [newNode op (nextInode v.made.length) name],
          s.seen ++ [.made ext2Success (some (newNode op (nextInode v.made.length) name))]⟩ ∧
      laterSlots fs'.disk = laterSlots s.fs.disk := by
  rcases h.live with ⟨b, d, hlive⟩
  have hslots := h.slots
  have hslot : HasSlot s.fs.disk := by
    rw [← hslots] at hnoMore
    have hlt := (terminator_of_noMore hnoMore).2
    exact Nat.lt_trans hlt (by decide)
  have hfree : ¬ Taken s.fs.disk name := by
    rw [← hslots] at hdecides htaken
    exact mt (taken_iff_of_decides hdecides).mp htaken
  rcases hlive.makeNamed v.made_lt (show rootNode.entry.inode = 2 from rfl) rfl op
    (formattedName_length hname) hlen (formattedName_zeroFree hname) hfree hslot with
    ⟨fs', hmake, hmakes⟩
  rcases hmakes.slots_first (by rw [hslots]; exact v.blank) (by rw [hslots]; exact hnoMore) with
    ⟨hfirst, hlater⟩
  refine ⟨fs', ?_, ?_, hlater⟩
  · rw [ext2Make_accepted hname]
    exact hmake
  · constructor
    case nodes =>
      change s.nodes ++ _ = rootNode :: (v.made ++ _)
      rw [h.nodes]
      rfl
    case seen =>
      change s.seen ++ _ = v.seen ++ _
      rw [h.seen]
    case slots =>
      rw [hfirst, hslots]
      rfl
    case few =>
      rw [groups_congr hmakes.sectors_eq]
      exact h.few
    case live =>
      have hlength : (v.made ++ [newNode op (nextInode v.made.length) name]).length =
          v.made.length + 1 := List.length_append
      have hlive' := hmakes.live
      rw [← hlength] at hlive'
      exact ⟨_, _, hlive'⟩

-- A shielded call does the same in every state that looks like the view.
theorem Matches.step {s₀ : Client} (h₀ : Matches v s₀) {c : ClientCall}
    (hshielded : Shielded s₀ c) :
    ∃ v', ∀ s, Matches v s → ∃ s', s.observe c = .ok s' ∧ Matches v' s' ∧
      laterSlots s'.fs.disk = laterSlots s.fs.disk := by
  have hroot : ∀ s, Matches v s → s.node 0 = .ok rootNode := fun s h ↦ Client.node_zero h.nodes
  cases c with
  | make op dir entryName =>
    rcases hshielded with ⟨hdir, hname | ⟨name, hname, -, rfl, hlen, hdecides⟩⟩
    · refine ⟨v.answer (.made ext2Error none), fun s h ↦ ?_⟩
      rw [h₀.nodes, ← h.nodes] at hdir
      exact ⟨_, observe_error (Client.exists_node hdir) (ext2Make_rejected hname), h.answer _, rfl⟩
    · rw [h₀.slots] at hdecides
      by_cases htaken : ∃ entry ∈ visited v.slots, entry.holds name
      · refine ⟨v.answer (.made ext2Error none), fun s h ↦ ?_⟩
        have hmake := h.make_taken hname hlen hdecides htaken
        exact ⟨_, observe_error (hroot s h) hmake, h.answer _, rfl⟩
      · have hnoMore : ∃ entry ∈ v.slots, entry.isNoMore := by
          rw [← h₀.slots] at hdecides htaken ⊢
          exact exists_noMore_of_decides hdecides htaken
        refine ⟨v.enter op (formattedName_length hname) hlen (formattedName_zeroFree hname) hnoMore,
          fun s h ↦ ?_⟩
        rcases h.make_new hname hlen hdecides htaken hnoMore with ⟨fs', hmake, hmatches, hlater⟩
        exact ⟨_, observe_success (hroot s h) hmake, hmatches, hlater⟩
  | lookup dir entryName location =>
    rcases hshielded with ⟨-, rfl, hdecides⟩
    rw [h₀.slots] at hdecides
    rcases scanEntries_decided entryName.2 v.terminated hdecides 0 with ⟨r, hscan, hr⟩
    have hlookup : ∀ s, Matches v s → ext2Lookup s.fs rootNode entryName location =
        .ok (r.result s.fs 36 location) := by
      intro s h
      rcases h.rootAt.ext2Lookup_first (show rootNode.entry.inode = 2 from rfl) entryName.2
        (by rw [h.slots]; exact v.terminated) (by rw [h.slots]; exact hdecides) location with
        ⟨r', hscan', -, hlookup⟩
      rw [h.slots, hscan, Except.ok.injEq] at hscan'
      rw [hscan']
      exact hlookup
    cases r with
    | found k =>
      refine ⟨v.answer (.looked ext2Success (some ⟨36, UInt32.ofNat k⟩)), fun s h ↦ ?_⟩
      exact ⟨_, observe_looked (hroot s h) (hlookup s h) rfl rfl, h.answer _, rfl⟩
    | noMore =>
      refine ⟨v.answer (.looked ext2Error location), fun s h ↦ ?_⟩
      exact ⟨_, observe_looked (hroot s h) (hlookup s h) rfl rfl, h.answer _, rfl⟩
    | next => exact absurd rfl hr
  | fillInode inode node =>
    have hnode : node = 0 := hshielded
    subst hnode
    rcases observe_filled (fillRootInode 36 Ext2Inode.zero) inode with ⟨filled, hfilled⟩
    refine ⟨v.answer (.filled filled), fun s h ↦ ?_⟩
    exact ⟨_, hfilled s 0 rootNode (hroot s h) h.rootAt.inodeEntry_eq, h.answer _, rfl⟩

/-- Entries that end no search. -/
def Silent (later : List Ext2DirEntry) : Prop :=
  ∀ entry ∈ later, ¬ entry.isNoMore ∧ cString entry.name = none

theorem Silent.decides {disk : DiskOperations} (h : Silent (laterSlots disk)) {name : List UInt8}
    (hdecides : Decides (rootSlots disk) name) : Decides (firstSlots disk) name := by
  rcases hdecides with ⟨entry, hmem, hentry⟩
  rw [rootSlots_append] at hmem
  rcases List.mem_append.mp hmem with hmem | hmem
  · exact ⟨entry, hmem, hentry⟩
  · rcases h entry hmem with ⟨hnoMore, hstring⟩
    rcases hentry with hentry | hholds
    · exact absurd hentry hnoMore
    · rw [Ext2DirEntry.holds, hstring] at hholds
      cases hholds

-- The inode of a node that was made cannot be read.
theorem Matches.node_cases (h : Matches v s) {i : Nat} {node : Ext2Node}
    (hnode : s.node i = .ok node) :
    (i = 0 ∧ node = rootNode) ∨ inodeEntry s.fs node.entry.inode = none := by
  have hget := Client.node_eq_ok hnode
  rw [h.nodes] at hget
  cases i with
  | zero =>
    rw [List.getElem?_cons_zero, Option.some.injEq] at hget
    exact Or.inl ⟨rfl, hget.symm⟩
  | succ i =>
    rw [List.getElem?_cons_succ] at hget
    rcases v.unreadable node (List.mem_of_getElem? hget) with ⟨hlo, hhi⟩
    rcases h.live with ⟨b, d, hlive⟩
    exact Or.inr (hlive.inodeEntry_made hlo hhi)

-- When the sectors behind the first one are silent, no other call gives an answer.
theorem Matches.blocked (h : Matches v s) (hsilent : Silent (laterSlots s.fs.disk)) {c : ClientCall}
    (hdefined : Defined (s.observe c)) : Shielded s c := by
  rcases hdefined with ⟨s', hrun⟩
  cases c with
  | make op dir entryName =>
    unfold Client.observe at hrun
    rcases bind_eq_ok.mp hrun with ⟨parent, hnode, hrun⟩
    rcases bind_eq_ok.mp hrun with ⟨r, hmake, -⟩
    rcases List.getElem?_eq_some_iff.mp (Client.node_eq_ok hnode) with ⟨hdir, -⟩
    refine ⟨hdir, ?_⟩
    rcases ext2Make_formatted hmake with ⟨name, hname⟩
    cases name with
    | none => exact Or.inl hname
    | some name =>
      rcases h.node_cases hnode with ⟨rfl, rfl⟩ | hunreadable
      · rcases h.live with ⟨b, d, hlive⟩
        rcases hlive.make_cases v.made_lt (show rootNode.entry.inode = 2 from rfl) rfl hname hmake
          with ⟨hlen, hcases⟩
        refine Or.inr ⟨name, hname, h.few, rfl, hlen, hsilent.decides ?_⟩
        rcases hcases with ⟨⟨entry, hmem, hholds⟩, -⟩ | ⟨-, hslot, -⟩
        · exact ⟨entry, visited_subset _ hmem, Or.inr hholds⟩
        · rcases (exists_noMore_iff _).mpr hslot with ⟨entry, hmem, hentry⟩
          exact ⟨entry, hmem, Or.inl hentry⟩
      · rw [ext2Make_accepted hname, makeNamed_unreadable hunreadable] at hmake
        cases hmake
  | lookup dir entryName location =>
    unfold Client.observe at hrun
    rcases bind_eq_ok.mp hrun with ⟨parent, hnode, hrun⟩
    rcases bind_eq_ok.mp hrun with ⟨r, hlookup, hrun⟩
    rcases h.node_cases hnode with ⟨rfl, rfl⟩ | hunreadable
    · refine ⟨h.few, rfl, hsilent.decides ?_⟩
      rw [h.rootAt.ext2Lookup_eq (show rootNode.entry.inode = 2 from rfl)] at hlookup
      rcases bind_eq_ok.mp hlookup with ⟨scan, hscan, hr⟩
      refine decides_of_scanEntries entryName.2 hscan ?_
      rintro rfl
      rw [Except.ok.injEq] at hr
      subst hr
      cases hrun
    · rw [ext2Lookup_unreadable hunreadable] at hlookup
      cases hlookup
  | fillInode inode node =>
    unfold Client.observe at hrun
    rcases bind_eq_ok.mp hrun with ⟨parent, hnode, hrun⟩
    rcases h.node_cases hnode with ⟨rfl, -⟩ | hunreadable
    · rfl
    · rw [ext2FillInode_none hunreadable] at hrun
      cases hrun

end Step

/-! ## More than sixteen groups -/

/-- The root has no blocks, and no node is ever made. -/
structure Rootless (seen : List Observation) (s : Client) : Prop where
  nodes : s.nodes = [rootNode]
  seen : s.seen = seen
  many : 16 < s.fs.disk.groups
  noBlocks : inodeEntry s.fs rootNode.entry.inode = some Ext2Inode.zero

section Rootless

variable {seen : List Observation} {s : Client}

theorem Rootless.answer (h : Rootless seen s) (o : Observation) :
    Rootless (seen ++ [o]) { s with seen := s.seen ++ [o] } where
  nodes := h.nodes
  seen := by
    change s.seen ++ [o] = seen ++ [o]
    rw [h.seen]
  many := h.many
  noBlocks := h.noBlocks

theorem Rootless.step {s₀ : Client} (h₀ : Rootless seen s₀) {c : ClientCall}
    (hshielded : Shielded s₀ c) :
    ∃ seen', ∀ s, Rootless seen s → ∃ s', s.observe c = .ok s' ∧ Rootless seen' s' := by
  have hmany := h₀.many
  cases c with
  | make op dir entryName =>
    rcases hshielded with ⟨hdir, hname | ⟨name, -, hfew, -⟩⟩
    · refine ⟨seen ++ [.made ext2Error none], fun s h ↦ ?_⟩
      rw [h₀.nodes, ← h.nodes] at hdir
      exact ⟨_, observe_error (Client.exists_node hdir) (ext2Make_rejected hname), h.answer _⟩
    · omega
  | lookup dir entryName location =>
    have hfew := hshielded.1
    omega
  | fillInode inode node =>
    have hnode : node = 0 := hshielded
    subst hnode
    rcases observe_filled Ext2Inode.zero inode with ⟨filled, hfilled⟩
    refine ⟨seen ++ [.filled filled], fun s h ↦ ?_⟩
    exact ⟨_, hfilled s 0 rootNode (Client.node_zero h.nodes) h.noBlocks, h.answer _⟩

theorem Rootless.blocked (h : Rootless seen s) {c : ClientCall}
    (hdefined : Defined (s.observe c)) : Shielded s c := by
  have hroot : ∀ i node, s.node i = .ok node → i = 0 ∧ node = rootNode := by
    intro i node hnode
    have hget := Client.node_eq_ok hnode
    rw [h.nodes] at hget
    cases i with
    | zero =>
      rw [List.getElem?_cons_zero, Option.some.injEq] at hget
      exact ⟨rfl, hget.symm⟩
    | succ i => cases hget
  rcases hdefined with ⟨s', hrun⟩
  cases c with
  | make op dir entryName =>
    unfold Client.observe at hrun
    rcases bind_eq_ok.mp hrun with ⟨parent, hnode, hrun⟩
    rcases bind_eq_ok.mp hrun with ⟨r, hmake, -⟩
    rcases List.getElem?_eq_some_iff.mp (Client.node_eq_ok hnode) with ⟨hdir, -⟩
    rcases hroot dir parent hnode with ⟨-, rfl⟩
    rcases ext2Make_formatted hmake with ⟨name, hname⟩
    cases name with
    | none => exact ⟨hdir, Or.inl hname⟩
    | some name =>
      rw [ext2Make_accepted hname, makeNamed_noBlocks h.noBlocks rfl] at hmake
      cases hmake
  | lookup dir entryName location =>
    unfold Client.observe at hrun
    rcases bind_eq_ok.mp hrun with ⟨parent, hnode, hrun⟩
    rcases hroot dir parent hnode with ⟨-, rfl⟩
    rw [ext2Lookup_noBlocks h.noBlocks rfl] at hrun
    cases hrun
  | fillInode inode node =>
    unfold Client.observe at hrun
    rcases bind_eq_ok.mp hrun with ⟨parent, hnode, -⟩
    exact (hroot node parent hnode).1

end Rootless

end Ext2Fs
