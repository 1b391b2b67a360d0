import Ext2Fs.Reasoning.Runs
import Ext2Fs.Spec.NewEntry

/-!
# The file system in use

A session mounts a freshly formatted disk and calls `ext2_mkdir` and `ext2_create` on directories
that it knows: the root, and the nodes that successful calls of `ext2_mkdir` returned.
-/

open Reasoning

namespace Ext2Fs

/-- A call of `ext2_mkdir` or `ext2_create`. -/
structure Call where
  op : DirOp
  parent : Ext2Node
  entryName : List UInt8

/-- A successful call: the formatted name, and the node that the call returned. -/
structure Made where
  op : DirOp
  parent : Ext2Node
  name : List UInt8
  node : Ext2Node

structure Session where
  fs : Ext2Filesystem
  root : Ext2Node
  made : List Made

namespace Session

/-- The directories that the client knows. -/
def dirs (s : Session) : List Ext2Node :=
  s.root :: (s.made.filter (·.op = .mkdir)).map (·.node)

def call (s : Session) (c : Call) : Exec Session := do
  let name ← formattedName c.op c.entryName
  let (status, node, fs) ← ext2Make c.op s.fs c.parent c.entryName
  match name, node with
  | some name, some node =>
    if status = ext2Success then
      return { s with fs := fs, made := s.made ++ [⟨c.op, c.parent, name, node⟩] }
    else
      return { s with fs := fs }
  | _, _ => return { s with fs := fs }

/-- The session after formatting and mounting the disk. -/
def Fresh (disk : DiskOperations) (s : Session) : Prop :=
  Mounted disk s.fs s.root ∧ s.made = []

/-- The client calls with directories that it knows. -/
def Knows (s : Session) (c : Call) : Prop := c.parent ∈ s.dirs

end Session

/-- The states of every session on the disk. -/
abbrev InUse (disk : DiskOperations) : Session → Prop :=
  Reachable Session.call Session.Knows (Session.Fresh disk)

-- A successful call is recorded.
theorem Session.call_of_make {s : Session} {c : Call} {name : List UInt8} {node : Ext2Node}
    {fs' : Ext2Filesystem} (hname : formattedName c.op c.entryName = .ok (some name))
    (hmake : ext2Make c.op s.fs c.parent c.entryName = .ok (ext2Success, some node, fs')) :
    s.call c = .ok { s with fs := fs', made := s.made ++ [⟨c.op, c.parent, name, node⟩] } := by
  rw [Session.call, hname, ok_bind, hmake, ok_bind]
  rfl

-- A call that returns an error and leaves the file system alone.
theorem Session.call_of_error {s : Session} {c : Call} {name : Option (List UInt8)}
    (hname : formattedName c.op c.entryName = .ok name)
    (hmake : ext2Make c.op s.fs c.parent c.entryName = .ok (ext2Error, none, s.fs)) :
    s.call c = .ok s := by
  rw [Session.call, hname, ok_bind, hmake, ok_bind]
  cases name <;> rfl

/-! ## Outcomes of a call -/

section Outcome

variable {op : DirOp} {fs : Ext2Filesystem} {parent : Ext2Node} {entryName : List UInt8}

theorem ext2Make_rejected (hname : formattedName op entryName = .ok none) :
    ext2Make op fs parent entryName = .ok (ext2Error, none, fs) := by
  rw [ext2Make_eq, hname, ok_bind]

theorem ext2Make_accepted {s : List UInt8} (hname : formattedName op entryName = .ok (some s)) :
    ext2Make op fs parent entryName = makeNamed op fs parent s := by
  rw [ext2Make_eq, hname, ok_bind]

-- The name is formatted before anything else is done.
theorem ext2Make_formatted {r : Int × Option Ext2Node × Ext2Filesystem}
    (h : ext2Make op fs parent entryName = .ok r) :
    ∃ name, formattedName op entryName = .ok name := by
  rw [ext2Make_eq] at h
  rcases bind_eq_ok.mp h with ⟨name, hname, -⟩
  exact ⟨name, hname⟩

theorem makeNamed_of_addEntry_error {u : Undefined} {s : List UInt8}
    (hadd : addEntry op fs parent s = .error u) : makeNamed op fs parent s = .error u := by
  cases op <;> simp [makeNamed, hadd]

theorem makeNamed_of_addEntry_none {s : List UInt8} {n : Int} {fs' : Ext2Filesystem}
    (hadd : addEntry op fs parent s = .ok (none, n, fs')) :
    makeNamed op fs parent s = .ok (ext2Error, none, fs') := by
  cases op <;> simp [makeNamed, hadd]

-- A directory whose inode is outside the sector that is read.
theorem makeNamed_unreadable (h : inodeEntry fs parent.entry.inode = none) (s : List UInt8) :
    makeNamed op fs parent s = .error .indeterminate := by
  apply makeNamed_of_addEntry_error
  rw [addEntry, ext2Lookup_unreadable h, error_bind]

-- A directory without blocks.
theorem makeNamed_noBlocks {entry : Ext2Inode} (h : inodeEntry fs parent.entry.inode = some entry)
    (hblocks : entry.iBlocks = 0) (s : List UInt8) :
    makeNamed op fs parent s = .error .indeterminate := by
  apply makeNamed_of_addEntry_error
  rw [addEntry, ext2Lookup_noBlocks h hblocks, ok_bind, determinate_none, error_bind]

end Outcome

section LiveOutcome

variable {op : DirOp} {fs : Ext2Filesystem} {k b d : Nat} {parent : Ext2Node}
  {entryName s : List UInt8}

-- A call that finishes on the root: the name was rejected, or is there already, or is entered.
theorem Live.make_cases (h : Live fs k b d) (hk : k < 200) (hroot : parent.entry.inode = 2)
    (hparent : parent.inodeNum = 2) (hname : formattedName op entryName = .ok (some s))
    {r : Int × Option Ext2Node × Ext2Filesystem}
    (hrun : ext2Make op fs parent entryName = .ok r) :
    s.length < 24 ∧ ((Taken fs.disk s ∧ r = (ext2Error, none, fs)) ∨
      (¬ Taken fs.disk s ∧ HasSlot fs.disk ∧ ∃ fs',
        r = (ext2Success, some (newNode op (nextInode k) s), fs') ∧ Makes op fs fs' s k b d)) := by
  have h11 := formattedName_length hname
  have h0 := formattedName_zeroFree hname
  have hbound := nextInode_bounds hk
  rw [ext2Make_accepted hname] at hrun
  by_cases hlen : s.length < 24
  · refine ⟨hlen, ?_⟩
    by_cases htaken : Taken fs.disk s
    · have hadd := h.rootAt.addEntry_taken hroot op h11 h0 (fun _ _ ↦ Or.inl hlen) htaken
      rw [makeNamed_of_addEntry_none hadd, Except.ok.injEq] at hrun
      exact Or.inl ⟨htaken, hrun.symm⟩
    · by_cases hslot : HasSlot fs.disk
      · obtain ⟨fs', hmake, hmakes⟩ := h.makeNamed hk hroot hparent op h11 hlen h0 htaken hslot
        rw [hmake, Except.ok.injEq] at hrun
        exact Or.inr ⟨htaken, hslot, fs', hrun.symm, hmakes⟩
      · have hadd := h.rootAt.addEntry_noSlot hroot op h11 h0 (fun _ _ ↦ Or.inl hlen) htaken
          hslot
        rw [makeNamed_of_addEntry_error hadd] at hrun
        cases hrun
  · obtain ⟨fs₁, halloc, -⟩ := h.allocFreeInode hk hparent
    have hadd := h.rootAt.addEntry_long hroot op (by omega) h0
      (show nextInode k < 2 ^ 31 by omega) halloc
    cases haddEntry : addEntry op fs parent s with
    | ok r' => exact absurd ⟨r', haddEntry⟩ hadd
    | error u =>
      rw [makeNamed_of_addEntry_error haddEntry] at hrun
      cases hrun

end LiveOutcome

/-! ## At most sixteen groups -/

/-- The number of directories made. -/
def Session.mkdirs (s : Session) : Nat := s.made.countP (·.op = .mkdir)

theorem Session.mkdirs_append (s : Session) (fs : Ext2Filesystem) (m : Made) :
    Session.mkdirs { s with fs := fs, made := s.made ++ [m] } =
      if m.op = .mkdir then s.mkdirs + 1 else s.mkdirs := by
  unfold Session.mkdirs
  rw [List.countP_append, List.countP_singleton]
  grind

/-- What holds between the calls of a session. -/
structure Serving (disk : DiskOperations) (s : Session) : Prop where
  root : s.root = rootNode
  sectors_eq : s.fs.disk.numberOfSectors = disk.numberOfSectors
  live : Live s.fs s.made.length s.mkdirs s.mkdirs
  -- every entry made has taken one of the slots that the format left
  room : (rootSlots s.fs.disk).countP (·.isNoMore) + s.made.length ≤ 125
  -- the inodes were taken in the order in which the bitmap gives them out
  nodes : ∀ m ∈ s.made, ∃ i, i < s.made.length ∧ m.node.entry.inode = UInt32.ofNat (nextInode i)

-- The inode of an entry that was made is outside the first sector of the table.
theorem Live.inodeEntry_made {fs : Ext2Filesystem} {k b d : Nat} (h : Live fs k b d) {n : UInt32}
    (hlo : 11 ≤ n.toNat) (hhi : n.toNat < 412) : inodeEntry fs n = none := by
  have htable : fs.descs[0].bgInodeTable.toNat = 4 := by
    rw [h.desc]
    rfl
  rw [inodeEntry_eq h.firstDataBlock (show n.toNat / 1024 = 0 by omega) h.groups_pos (by decide)
    (by rw [htable]; decide)]
  exact loadAt_of_ge _ (by omega)

-- The inode of the new node is outside the sector that `ext2_fill_inode` loads.
theorem Makes.inodeEntry_node {op : DirOp} {fs fs' : Ext2Filesystem} {s : List UInt8} {k b d : Nat}
    (h : Makes op fs fs' s k b d) (hk : k < 200) :
    inodeEntry fs' (newNode op (nextInode k) s).entry.inode = none := by
  have hbound := nextInode_bounds hk
  have hinode : (newNode op (nextInode k) s).entry.inode.toNat = nextInode k := toNat_nextInode hk
  exact h.live.inodeEntry_made (by rw [hinode]; exact hbound.1) (by rw [hinode]; exact hbound.2)

theorem HasSlot.countP_pos {disk : DiskOperations} (h : HasSlot disk) :
    0 < (rootSlots disk).countP (·.isNoMore) := by
  have hlt : (visited (rootSlots disk)).length < (rootSlots disk).length := by
    rw [length_rootSlots]
    exact h
  rw [List.countP_pos_iff]
  exact ⟨_, List.getElem_mem hlt, decide_eq_true (isNoMore_terminator hlt)⟩

-- The slot taken was a terminator, and the entry in it is none.
theorem Makes.countP_noMore {op : DirOp} {fs fs' : Ext2Filesystem} {name : List UInt8} {k b d : Nat}
    (h : Makes op fs fs' name k b d) (hslot : HasSlot fs.disk) (h0 : 0 ∉ name)
    (h11 : 11 ≤ name.length) :
    (rootSlots fs'.disk).countP (·.isNoMore) + 1 = (rootSlots fs.disk).countP (·.isNoMore) := by
  have hlt : terminator fs.disk < (rootSlots fs.disk).length := by
    rw [length_rootSlots]
    exact hslot
  have hold : (rootSlots fs.disk)[terminator fs.disk].isNoMore := isNoMore_terminator hlt
  have hnew : ¬ (filledEntry (blockSlot fs.disk 36 (terminator fs.disk)) name
      (UInt32.ofNat (nextInode k))).isNoMore := filledEntry_not_noMore _ h0 h11
  have hpos := hslot.countP_pos
  rw [h.slots, List.countP_set hlt, decide_eq_true hold, decide_eq_false hnew]
  simp only [if_true, Bool.false_eq_true, if_false]
  omega

namespace Serving

variable {disk : DiskOperations} {s s' : Session} {c : Call}

theorem made_lt (h : Serving disk s) : s.made.length < 200 := by
  have hroom := h.room
  omega

theorem node_toNat (h : Serving disk s) {m : Made} (hm : m ∈ s.made) :
    ∃ i, i < s.made.length ∧ m.node.entry.inode.toNat = nextInode i := by
  obtain ⟨i, hi, hinode⟩ := h.nodes m hm
  refine ⟨i, hi, ?_⟩
  rw [hinode]
  exact toNat_nextInode (Nat.lt_trans hi h.made_lt)

theorem node_bounds (h : Serving disk s) {m : Made} (hm : m ∈ s.made) :
    11 ≤ m.node.entry.inode.toNat ∧ m.node.entry.inode.toNat < 412 := by
  obtain ⟨i, hi, hinode⟩ := h.node_toNat hm
  rw [hinode]
  exact nextInode_bounds (Nat.lt_trans hi h.made_lt)

theorem dir_cases (h : Serving disk s) {dir : Ext2Node} (hdir : dir ∈ s.dirs) :
    dir = rootNode ∨ inodeEntry s.fs dir.entry.inode = none := by
  rw [Session.dirs, List.mem_cons] at hdir
  rcases hdir with hdir | hdir
  · exact Or.inl (hdir.trans h.root)
  · obtain ⟨m, hm, rfl⟩ := List.mem_map.mp hdir
    have hn := h.node_bounds (List.mem_filter.mp hm).1
    exact Or.inr (h.live.inodeEntry_made hn.1 hn.2)

theorem root_inode (h : Serving disk s) : s.root.entry.inode = 2 := by
  rw [h.root]
  rfl

theorem root_inodeNum (h : Serving disk s) : s.root.inodeNum = 2 := by
  rw [h.root]
  rfl

theorem dirSlots_root (h : Serving disk s) : dirSlots s.fs s.root = .ok (rootSlots s.fs.disk) :=
  h.live.rootAt.dirSlots_eq h.root_inode

-- A call with an accepted name that finishes is a call on the root.
theorem make_cases (h : Serving disk s) {op : DirOp} {parent : Ext2Node} (hdir : parent ∈ s.dirs)
    {entryName name : List UInt8} (hname : formattedName op entryName = .ok (some name))
    {r : Int × Option Ext2Node × Ext2Filesystem}
    (hrun : ext2Make op s.fs parent entryName = .ok r) :
    parent = s.root ∧ name.length < 24 ∧ ((Taken s.fs.disk name ∧ r = (ext2Error, none, s.fs)) ∨
      (¬ Taken s.fs.disk name ∧ HasSlot s.fs.disk ∧ ∃ fs',
        r = (ext2Success, some (newNode op (nextInode s.made.length) name), fs') ∧
        Makes op s.fs fs' name s.made.length s.mkdirs s.mkdirs)) := by
  rcases h.dir_cases hdir with hroot | hunreadable
  · exact ⟨hroot.trans h.root.symm,
      h.live.make_cases h.made_lt (by rw [hroot]; rfl) (by rw [hroot]; rfl) hname hrun⟩
  · rw [ext2Make_accepted hname, makeNamed_unreadable hunreadable] at hrun
    cases hrun

-- What a defined call does: nothing, or one entry more in the root.
theorem call_cases (h : Serving disk s) (hknows : s.Knows c) (hcall : s.call c = .ok s') :
    s' = s ∨ ∃ name fs', c.parent = s.root ∧ formattedName c.op c.entryName = .ok (some name) ∧
      name.length < 24 ∧ ¬ Taken s.fs.disk name ∧ HasSlot s.fs.disk ∧
      Makes c.op s.fs fs' name s.made.length s.mkdirs s.mkdirs ∧
      s' = { s with
        fs := fs'
        made := s.made ++ [⟨c.op, c.parent, name, newNode c.op (nextInode s.made.length) name⟩] } := by
  unfold Session.call at hcall
  obtain ⟨name, hname, hcall⟩ := bind_eq_ok.mp hcall
  obtain ⟨⟨status, node, fs'⟩, hmake, hcall⟩ := bind_eq_ok.mp hcall
  cases name with
  | none =>
    rw [ext2Make_rejected hname] at hmake
    cases hmake
    cases hcall
    exact Or.inl rfl
  | some name =>
    obtain ⟨hparent, hlen, ⟨-, hr⟩ | ⟨htaken, hslot, fs₂, hr, hmakes⟩⟩ :=
      h.make_cases hknows hname hmake
    · cases hr
      cases hcall
      exact Or.inl rfl
    · cases hr
      simp only [if_true, pure_eq_ok, Except.ok.injEq] at hcall
      exact Or.inr ⟨name, _, hparent, hname, hlen, htaken, hslot, hmakes, hcall.symm⟩

theorem call (h : Serving disk s) (hknows : s.Knows c) (hcall : s.call c = .ok s') :
    Serving disk s' := by
  obtain rfl | ⟨name, fs', -, hname, -, -, hslot, hmakes, rfl⟩ := h.call_cases hknows hcall
  · exact h
  have hroom := h.room
  constructor
  case root => exact h.root
  case sectors_eq => exact hmakes.sectors_eq.trans h.sectors_eq
  case live =>
    rw [Session.mkdirs_append, List.length_append, List.length_singleton]
    exact hmakes.live
  case room =>
    have hcount := hmakes.countP_noMore hslot (formattedName_zeroFree hname)
      (formattedName_length hname)
    simp only [List.length_append, List.length_singleton]
    omega
  case nodes =>
    intro m hm
    rw [List.mem_append, List.mem_singleton] at hm
    rw [List.length_append, List.length_singleton]
    rcases hm with hm | rfl
    · obtain ⟨i, hi, hinode⟩ := h.nodes m hm
      exact ⟨i, by omega, hinode⟩
    · exact ⟨s.made.length, by omega, rfl⟩

end Serving

/-! ## The start of a session -/

theorem inodeRun_zero : leadingRuns 512 (inodeRun 0) = onesPrefix 512 11 := by
  apply leadingRuns_congr
  intro j _
  unfold inodeRun prefixRun
  grind

theorem Formatted.live {old disk : DiskOperations} (h : Formatted old disk) (hpos : 1 ≤ old.groups) :
    Live (newFs old disk) 0 0 0 where
  firstDataBlock := rfl
  groups_pos := by
    rw [newFs_groups h]
    exact hpos
  desc := by
    rw [newFs_desc h hpos (by decide), if_pos rfl]
    decide
  rootInode := h.rootInode
  blockBitmap := h.blockBitmap
  inodeBitmap := h.inodeBitmap.trans inodeRun_zero.symm
  blocks_le := Nat.le_refl 0
  inodes_le := Nat.zero_le _

-- The first sector of the root after the format.
theorem Formatted.blockSlot_eq {old disk : DiskOperations} (h : Formatted old disk) {t : Nat}
    (ht : t < 16) : blockSlot disk 36 t =
      [dirEntry 2 slashName, dirEntry 2 dotName, dirEntry 2 dotdotName].getD t Ext2DirEntry.zero := by
  have hcontent : disk.content (8 * 36 + t / 16) = asEntries.symm rootEntries := by
    rw [show 8 * 36 + t / 16 = 288 by omega]
    exact h.rootDir
  rw [Ext2Fs.blockSlot_eq hcontent, Equiv.apply_symm_apply, rootEntries,
    getElem_entriesOf _ (Nat.mod_lt t (by decide)), Nat.mod_eq_of_lt ht]

-- The format leaves three entries in the root, and blank ones behind them.
theorem Formatted.rootSlots_eq {old disk : DiskOperations} (h : Formatted old disk) :
    ∃ rest, rootSlots disk = dirEntry 2 slashName :: dirEntry 2 dotName :: dirEntry 2 dotdotName ::
      Ext2DirEntry.zero :: Ext2DirEntry.zero :: rest ∧ rest.length = 123 := by
  refine ⟨(List.range' 5 123).map (blockSlot disk 36), ?_, by simp⟩
  rw [rootSlots, show List.range 128 = 0 :: 1 :: 2 :: 3 :: 4 :: List.range' 5 123 from rfl]
  simp only [List.map_cons]
  rw [h.blockSlot_eq (show 0 < 16 by decide), h.blockSlot_eq (show 1 < 16 by decide),
    h.blockSlot_eq (show 2 < 16 by decide), h.blockSlot_eq (show 3 < 16 by decide),
    h.blockSlot_eq (show 4 < 16 by decide)]
  rfl

theorem Formatted.visited_eq {old disk : DiskOperations} (h : Formatted old disk) :
    visited (rootSlots disk) =
      [dirEntry 2 slashName, dirEntry 2 dotName, dirEntry 2 dotdotName] := by
  obtain ⟨rest, hslots, -⟩ := h.rootSlots_eq
  rw [hslots, visited_cons, if_neg (by decide), visited_cons, if_neg (by decide), visited_cons,
    if_neg (by decide), visited_cons, if_pos (by decide)]

theorem Session.Fresh.serving {disk : DiskOperations} {s : Session} (h : s.Fresh disk)
    (hpos : 1 ≤ disk.groups) (hfew : disk.groups ≤ 16) :
    Serving disk s ∧ ∃ disk', Formatted disk disk' ∧ s.fs.disk = disk' := by
  obtain ⟨hmount, hmade⟩ := h
  obtain ⟨disk', hformatted, hmount'⟩ := exists_mounted hpos hfew
  obtain ⟨hfs, hroot⟩ := mounted_unique hmount hmount'
  obtain ⟨fs, root, made⟩ := s
  simp only at hmade hfs hroot
  subst hmade hfs hroot
  refine ⟨?_, disk', hformatted, rfl⟩
  constructor
  case root => rfl
  case sectors_eq => exact hformatted.sectors_eq
  case live => exact hformatted.live hpos
  case room =>
    obtain ⟨rest, hslots, hlen⟩ := hformatted.rootSlots_eq
    have hle : rest.countP (·.isNoMore) ≤ 123 := hlen ▸ List.countP_le_length
    change (rootSlots disk').countP (·.isNoMore) + 0 ≤ 125
    rw [hslots, List.countP_cons_of_neg (by decide), List.countP_cons_of_neg (by decide),
      List.countP_cons_of_neg (by decide), List.countP_cons_of_pos (by decide),
      List.countP_cons_of_pos (by decide)]
    omega
  case nodes => exact fun m hm ↦ absurd hm (List.not_mem_nil)

-- Every state of a session on at most sixteen groups.
theorem InUse.serving {disk : DiskOperations} {s : Session} (h : InUse disk s)
    (hpos : 1 ≤ disk.groups) (hfew : disk.groups ≤ 16) : Serving disk s :=
  Reachable.invariant (Serving disk) (fun _ hs ↦ (Session.Fresh.serving hs hpos hfew).1)
    (fun _ _ _ hs hknows hcall ↦ hs.call hknows hcall) h

/-! ## More than sixteen groups -/

-- The root has no blocks: its inode is read from the superblock's sector.
theorem exists_mounted_noRoot {disk : DiskOperations} (hmany : 16 < disk.groups)
    {fs : Ext2Filesystem} {root : Ext2Node} (hmount : Mounted disk fs root) :
    root = rootNode ∧ inodeEntry fs root.entry.inode = some Ext2Inode.zero := by
  obtain ⟨disk', count, h, hsb, hmount'⟩ := exists_mounted_large hmany
  obtain ⟨rfl, rfl⟩ := mounted_unique hmount hmount'
  refine ⟨rfl, ?_⟩
  have hgroups : (largeFs disk disk' count).disk.groups = disk.groups := groups_congr h.sectors_eq
  have hdescs : (largeFs disk disk' count).descs =
      (Vector.replicate 16 Ext2GroupDesc.zero).set 0 (countRoot Ext2GroupDesc.zero) := by
    have hd := h.descs 0 (by omega)
    rw [show 262144 * 0 + 8 = 8 from rfl] at hd
    change asDescs (disk'.content 8) = _
    rw [hd, Equiv.apply_symm_apply]
  have htable : (largeFs disk disk' count).descs[0].bgInodeTable.toNat = 0 := by
    simp only [hdescs, Vector.getElem_set_self]
    rfl
  rw [inodeEntry_eq (g := 0) rfl rfl (by omega) (by decide) (by rw [htable]; decide), htable]
  change loadAt asInodes (disk'.content 0) 2 = _
  rw [hsb, loadAt_of_lt _ (by decide), asInodes_superBlock]
  rfl

-- No call with an accepted name finishes.
theorem Session.Fresh.make_undefined {disk : DiskOperations} {s : Session} (h : s.Fresh disk)
    (hmany : 16 < disk.groups) {op : DirOp} {parent : Ext2Node} (hdir : parent ∈ s.dirs)
    {entryName name : List UInt8} (hname : formattedName op entryName = .ok (some name)) :
    ext2Make op s.fs parent entryName = .error .indeterminate := by
  have hparent : parent = s.root := by
    rw [Session.dirs, h.2] at hdir
    simpa using hdir
  obtain ⟨-, hentry⟩ := exists_mounted_noRoot hmany h.1
  rw [ext2Make_accepted hname, makeNamed_noBlocks (by rw [hparent]; exact hentry) rfl]

-- Nothing is ever entered.
theorem InUse.fresh {disk : DiskOperations} {s : Session} (h : InUse disk s)
    (hmany : 16 < disk.groups) : s.Fresh disk := by
  refine Reachable.invariant (Session.Fresh disk) (fun _ hs ↦ hs) ?_ h
  intro s c s' hs hknows hcall
  unfold Session.call at hcall
  obtain ⟨name, hname, hcall⟩ := bind_eq_ok.mp hcall
  obtain ⟨r, hmake, hcall⟩ := bind_eq_ok.mp hcall
  cases name with
  | none =>
    rw [ext2Make_rejected hname] at hmake
    cases hmake
    cases hcall
    exact hs
  | some name =>
    rw [hs.make_undefined hmany hknows hname] at hmake
    cases hmake

/-! ## Successful calls -/

-- A successful call enters a new name in the root of a disk of at most sixteen groups.
theorem InUse.make_success {disk : DiskOperations} {s : Session} (h : InUse disk s)
    (hpos : 1 ≤ disk.groups) (op : DirOp) {parent : Ext2Node} (hdir : parent ∈ s.dirs)
    {entryName : List UInt8} {child : Option Ext2Node} {fs' : Ext2Filesystem}
    (hrun : ext2Make op s.fs parent entryName = .ok (ext2Success, child, fs')) :
    Serving disk s ∧ ∃ name, child = some (newNode op (nextInode s.made.length) name) ∧
      Makes op s.fs fs' name s.made.length s.mkdirs s.mkdirs := by
  have hsuccess : ext2Success ≠ ext2Error := by decide
  obtain ⟨name, hname⟩ := ext2Make_formatted hrun
  cases name with
  | none =>
    rw [ext2Make_rejected hname, Except.ok.injEq, Prod.mk.injEq] at hrun
    exact absurd hrun.1.symm hsuccess
  | some name =>
    by_cases hfew : disk.groups ≤ 16
    · have hserving := h.serving hpos hfew
      obtain ⟨-, -, ⟨-, hr⟩ | ⟨-, -, fs₂, hr, hmakes⟩⟩ := hserving.make_cases hdir hname hrun
      · rw [Prod.mk.injEq] at hr
        exact absurd hr.1 hsuccess
      · cases hr
        exact ⟨hserving, name, rfl, hmakes⟩
    · rw [(h.fresh (by omega)).make_undefined (by omega) hdir hname] at hrun
      cases hrun

theorem Session.Fresh.live {disk : DiskOperations} {s : Session} (h : s.Fresh disk)
    (hpos : 1 ≤ disk.groups) (hfew : disk.groups ≤ 16) : Live s.fs 0 0 0 := by
  have hl := (h.serving hpos hfew).1.live
  have hmade := h.2
  simp only [hmade, Session.mkdirs, List.length_nil, List.countP_nil] at hl
  exact hl

-- The first call of a session succeeds when its name is accepted and fits an entry: no name that
-- the format leaves in the root has eleven characters.
theorem Session.Fresh.make {disk : DiskOperations} {s : Session} (h : s.Fresh disk)
    (hpos : 1 ≤ disk.groups) (hfew : disk.groups ≤ 16) {op : DirOp} {entryName name : List UInt8}
    (hname : formattedName op entryName = .ok (some name)) (hlen : name.length < 24) :
    ∃ fs', ext2Make op s.fs s.root entryName = .ok (ext2Success, some (newNode op 11 name), fs') ∧
      Makes op s.fs fs' name 0 0 0 := by
  obtain ⟨hserving, disk', hformatted, hdisk⟩ := h.serving hpos hfew
  have h11 := formattedName_length hname
  have hvisited := hformatted.visited_eq
  rw [← hdisk] at hvisited
  have hslot : HasSlot s.fs.disk := by
    rw [HasSlot, terminator, hvisited]
    decide
  have htaken : ¬ Taken s.fs.disk name := by
    rintro ⟨e, he, hholds⟩
    rw [hvisited] at he
    have hshort : ∀ e ∈ [dirEntry 2 slashName, dirEntry 2 dotName, dirEntry 2 dotdotName],
        (cString e.name).all (·.length < 11) := by decide
    have hall := hshort e he
    rw [hholds] at hall
    have hlt : name.length < 11 := by simpa using hall
    omega
  obtain ⟨fs', hmake, hmakes⟩ := (h.live hpos hfew).makeNamed (by decide)
    hserving.root_inode hserving.root_inodeNum op h11 hlen
    (formattedName_zeroFree hname) htaken hslot
  exact ⟨fs', by rw [ext2Make_accepted hname]; exact hmake, hmakes⟩

/-- `"A"`, padded with blanks. -/
def nameA : List UInt8 := 0x41 :: List.replicate 10 0x20

theorem formattedName_A (op : DirOp) : formattedName op [0x41] = .ok (some nameA) :=
  formattedName_letter (by decide) op

-- The first call on a zeroed disk of one group.
theorem zeroedDisk_make (op : DirOp) :
    ∃ (s : Session) (fs' : Ext2Filesystem), s.Fresh (zeroedDisk 262144) ∧
    ext2Make op s.fs s.root [0x41] = .ok (ext2Success, some (newNode op 11 nameA), fs') ∧
    Makes op s.fs fs' nameA 0 0 0 := by
  obtain ⟨disk', -, hmount⟩ := exists_mounted (show 1 ≤ (zeroedDisk 262144).groups by decide)
    (by decide)
  have hfresh : Session.Fresh (zeroedDisk 262144) ⟨_, rootNode, []⟩ := ⟨hmount, rfl⟩
  obtain ⟨fs', hmake, hmakes⟩ := hfresh.make (by decide) (by decide) (formattedName_A op) (by decide)
  exact ⟨_, fs', hfresh, hmake, hmakes⟩

-- The session after that call.
theorem zeroedDisk_call (op : DirOp) : ∃ s s' : Session, s.Fresh (zeroedDisk 262144) ∧
    s.call ⟨op, s.root, [0x41]⟩ = .ok s' ∧ InUse (zeroedDisk 262144) s' ∧ s'.root = s.root ∧
    s'.made = [⟨op, s.root, nameA, newNode op 11 nameA⟩] ∧ Makes op s.fs s'.fs nameA 0 0 0 := by
  obtain ⟨s, fs', hfresh, hmake, hmakes⟩ := zeroedDisk_make op
  have hcall := Session.call_of_make (c := ⟨op, s.root, [0x41]⟩) (formattedName_A op) hmake
  refine ⟨s, _, hfresh, hcall, .call (.start hfresh) List.mem_cons_self hcall, rfl, ?_, hmakes⟩
  simp only [hfresh.2]
  rfl

end Ext2Fs
