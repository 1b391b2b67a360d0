import Ext2Fs.Properties.MkdirCounters

/-!
# What a session writes

Beside the metadata of group 0, the root's block and the copies of the superblock and of the
descriptors, a session writes nothing but the block of each directory that it makes.
-/

open Reasoning

namespace Ext2Fs

/-! ## Behind the root's block -/

/-- A sector behind the root's block, or one behind the first of a bitmap of group 0. -/
def Outside (x : Nat) : Prop := 296 ≤ x ∨ (16 < x ∧ x < 24) ∨ (24 < x ∧ x < 32)

namespace Live

variable {fs fs' : Ext2Filesystem} {k b d : Nat}

-- `makeDirectory` writes the new directory's block, and no other one behind the root's.
theorem makeDirectory_data (h : Live fs k b d) (hb : b < k) {parent : Ext2Node}
    (hparent : parent.entry.inode = 2) {entry : Ext2DirEntry} {n : Nat}
    (hentry : entry.inode.toNat = n) (hlo : 11 ≤ n) (hhi : n < 412)
    {r : Int × Option Ext2Node × Ext2Filesystem}
    (hrun : Ext2Fs.makeDirectory fs parent entry = .ok r) {x : Nat} (hx : Outside x)
    (h0 : x % 262144 ≠ 0) (h8 : x % 262144 ≠ 8) :
    r.2.2.disk.content x =
      if x = 8 * (37 + b) then asEntries.symm (newDirEntries entry.inode 2)
      else fs.disk.content x := by
  have hle := h.inodes_le
  have hfit := fs.disk.groups_fit
  have hpos := h.groups_pos
  have hbound := insertSector_bounds hlo hhi
  have htable : fs.descs[0].bgInodeTable.toNat = 4 := by
    rw [h.desc]
    rfl
  unfold Ext2Fs.makeDirectory at hrun
  rcases bind_eq_ok.mp hrun with ⟨⟨datablock, fs₂⟩, hinsert, hrun⟩
  rcases bind_eq_ok.mp hrun with ⟨sector, hsector, hrun⟩
  rcases bind_eq_ok.mp hrun with ⟨fs₃, hcount, hrun⟩
  rw [pure_eq_ok, Except.ok.injEq] at hrun
  subst hrun
  rcases insertInode_directory_ok hinsert with ⟨desc, fs₁, hdesc, halloc, hspb, hwritten⟩
  rcases h.allocFreeBlock hb (show ({ entry := entry, inodeNum := 0 } : Ext2Node).entry.inode.toNat
    < 1024 by change entry.inode.toNat < 1024; omega) with ⟨fs₁', halloc', h₁, hn₁, hc₁⟩
  rw [halloc, Except.ok.injEq, Prod.mk.injEq] at halloc'
  rcases halloc' with ⟨rfl, rfl⟩
  have hdesc' := readDesc_of_lt fs h.firstDataBlock hpos
    (groupNum_toNat (show entry.inode.toNat / 1024 = 0 by omega)) (show 0 < 16 by decide)
  rw [hdesc, Option.some.injEq] at hdesc'
  have hinode : (insertInodeSector desc entry.inode).toNat = insertSector 4 n := by
    rw [insertInodeSector_toNat (by rw [hdesc', copyDesc_bgInodeTable, htable]) (by decide)
      (by omega), hentry]
  -- the inode goes into the table
  have htable₂ : fs₂.disk.numberOfSectors = fs₁.disk.numberOfSectors ∧
      ∀ x, x ≠ insertSector 4 n → fs₂.disk.content x = fs₁.disk.content x := by
    rcases hwritten with ⟨herror, -⟩ | ⟨bits, rfl⟩
    · exact absurd herror (natCast_ne_error _)
    · exact ⟨DiskOperations.numberOfSectors_writeSector _,
        fun x hx ↦ Store.cell_write_of_ne bits (by omega)⟩
  rcases htable₂ with ⟨hn₂, hc₂⟩
  have h₂ : Live fs₂ k (b + 1) d := by
    refine h₁.congr hspb hn₂ fun x hx ↦ ?_
    exact hc₂ x (by omega)
  -- and the entries into the new block
  have haddr : (newDirAddress entry.inode ((37 + b : Nat) : Int)).toNat = 8 * (37 + b) := by
    rw [newDirAddress_toNat (by omega) (by omega)]
    omega
  rw [newDirSector_eq (by omega) (by rw [hparent]; decide), Except.ok.injEq, hparent] at hsector
  have hc₃ : ∀ x, (fs₂.disk.writeSector (newDirAddress entry.inode ((37 + b : Nat) : Int))
      sector).content x = if x = 8 * (37 + b) then sector else fs₂.disk.content x := by
    intro x
    rw [DiskOperations.content_writeSector _ (by rw [haddr, hn₂, hn₁]; omega), haddr]
  have h₃ : Live ⟨fs₂.spb, fs₂.disk.writeSector
      (newDirAddress entry.inode ((37 + b : Nat) : Int)) sector⟩ k (b + 1) d := by
    refine h₂.congr rfl (DiskOperations.numberOfSectors_writeSector _) fun x hx ↦ ?_
    rw [hc₃, if_neg (by omega)]
  rcases h₃.countDirectory (n := entry.inode) (by omega) sector with ⟨fs₄, hcount', -, -, hc₄⟩
  unfold newDirAddress at hcount' hc₃ hc₄
  rw [hcount, Except.ok.injEq] at hcount'
  subst hcount'
  change fs₃.disk.content x = _
  unfold Outside at hx
  rw [hc₄ x h8, hc₃, ← hsector, hc₂ x (by omega), hc₁ x (by omega) h0 h8]

-- What `op` writes behind the root's block when it makes an entry.
theorem makeNamed_data (h : Live fs k b d) (hk : k < 200) {parent : Ext2Node}
    (hroot : parent.entry.inode = 2) (hparent : parent.inodeNum = 2) {op : DirOp}
    {s : List UInt8} (hlen : 11 ≤ s.length) (hshort : s.length < 24) (hname : 0 ∉ s)
    (htaken : ¬ Taken fs.disk s) (hslot : HasSlot fs.disk)
    {r : Int × Option Ext2Node × Ext2Filesystem}
    (hrun : Ext2Fs.makeNamed op fs parent s = .ok r) {x : Nat} (hx : Outside x)
    (h0 : x % 262144 ≠ 0) (h8 : x % 262144 ≠ 8) :
    r.2.2.disk.content x =
      if op = .mkdir ∧ x = 8 * (37 + b) then
        asEntries.symm (newDirEntries (UInt32.ofNat (nextInode k)) 2)
      else fs.disk.content x := by
  have hbound := nextInode_bounds hk
  have ht : terminator fs.disk < 128 := hslot
  have hb := h.blocks_le
  rcases h.allocFreeInode hk hparent with ⟨fs₁, halloc, h₁, hn₁, hc₁⟩
  have hslots₁ : rootSlots fs₁.disk = rootSlots fs.disk :=
    rootSlots_congr fun x hlo hhi ↦ hc₁ x (by omega) (by omega) (by omega)
  rcases h.rootAt.addEntry_ok hroot op hlen hshort hname htaken hslot
    (show nextInode k < 2 ^ 31 by omega) halloc h₁.rootAt hslots₁ with ⟨fs₂, hadd, hspb₂, hn₂, hc₂⟩
  have hentry : ∀ x, x < 288 ∨ 296 ≤ x → fs₂.disk.content x = fs₁.disk.content x := by
    intro x hx
    rw [hc₂, if_neg (by omega)]
  have hold : fs₂.disk.content x = fs.disk.content x := by
    unfold Outside at hx
    rw [hentry x (by omega), hc₁ x (by omega) h0 h8]
  unfold Ext2Fs.makeNamed at hrun
  cases op with
  | create =>
    simp only [hadd, ok_bind, pure_eq_ok, Except.ok.injEq] at hrun
    subst hrun
    rw [if_neg (fun hop ↦ DirOp.noConfusion hop.1)]
    exact hold
  | mkdir =>
    simp only [hadd, ok_bind] at hrun
    have h₂ : Live fs₂ (k + 1) b d := h₁.congr hspb₂ hn₂ fun x hx ↦ hentry x (by omega)
    have hinode : (dirEntry (UInt32.ofNat (nextInode k)) s).inode.toNat = nextInode k :=
      toNat_nextInode hk
    rw [h₂.makeDirectory_data (Nat.lt_succ_of_le hb) hroot hinode hbound.1 hbound.2 hrun hx h0 h8,
      hold]
    simp only [true_and]
    rfl

end Live

/-! ## Sessions -/

/-- The directories that the session has made, the first one first. -/
def Session.newDirs (s : Session) : List Ext2Node :=
  (s.made.filter (·.op = .mkdir)).map (·.node)

/-- Of the sectors behind the root's block, the copies of the superblock and of the descriptors
aside, each is that of a new directory, and holds its two entries, or is as it was before the
format. -/
structure Confined (disk : DiskOperations) (s : Session) : Prop where
  newDirs : ∀ i node, s.newDirs[i]? = some node →
    s.fs.disk.content (8 * (37 + i)) = asEntries.symm (newDirEntries node.entry.inode 2)
  others : ∀ x, 296 ≤ x → x % 262144 ≠ 0 → x % 262144 ≠ 8 → x % 262144 ≠ 9 →
    (∀ i, i < s.newDirs.length → x ≠ 8 * (37 + i)) → s.fs.disk.content x = disk.content x

theorem Session.length_newDirs (s : Session) : s.newDirs.length = s.mkdirs := by
  rw [Session.newDirs, List.length_map, Session.mkdirs, List.countP_eq_length_filter]

theorem Session.newDirs_append (s : Session) (fs : Ext2Filesystem) (m : Made) :
    Session.newDirs { s with fs := fs, made := s.made ++ [m] } =
      if m.op = .mkdir then s.newDirs ++ [m.node] else s.newDirs := by
  unfold Session.newDirs
  rw [List.filter_append, List.map_append]
  by_cases hop : m.op = .mkdir
  · simp [hop]
  · simp [hop]

section Sessions

variable {disk : DiskOperations} {s s' : Session} {c : Call}

-- What a call writes behind the root's block.
theorem Serving.call_data (h : Serving disk s) (hknows : s.Knows c) (hcall : s.call c = .ok s') :
    s' = s ∨ ∃ fs' name,
      s' = { s with
        fs := fs'
        made := s.made ++ [⟨c.op, c.parent, name, newNode c.op (nextInode s.made.length) name⟩] } ∧
      ∀ x, Outside x → x % 262144 ≠ 0 → x % 262144 ≠ 8 → fs'.disk.content x =
        if c.op = .mkdir ∧ x = 8 * (37 + s.mkdirs) then
          asEntries.symm (newDirEntries (UInt32.ofNat (nextInode s.made.length)) 2)
        else s.fs.disk.content x := by
  rcases h.call_cases hknows hcall with
    rfl | ⟨name, fs', hparent, hname, hshort, htaken, hslot, -, rfl⟩
  · exact Or.inl rfl
  · refine Or.inr ⟨fs', name, rfl, fun x hx h0 h8 ↦ ?_⟩
    unfold Session.call at hcall
    rw [hname, ok_bind] at hcall
    rcases bind_eq_ok.mp hcall with ⟨⟨status, node, fs₁⟩, hmake, hcall⟩
    have hfs : fs₁ = fs' := by
      dsimp only at hcall
      split at hcall
      · split at hcall
        · rw [pure_eq_ok, Except.ok.injEq] at hcall
          exact congrArg Session.fs hcall
        · rw [pure_eq_ok, Except.ok.injEq] at hcall
          exact congrArg Session.fs hcall
      · rw [pure_eq_ok, Except.ok.injEq] at hcall
        exact congrArg Session.fs hcall
    rw [ext2Make_accepted hname] at hmake
    rw [← hfs]
    exact h.live.makeNamed_data h.made_lt (by rw [hparent, h.root_inode])
      (by rw [hparent, h.root_inodeNum]) (formattedName_length hname) hshort
      (formattedName_zeroFree hname) htaken hslot hmake hx h0 h8

theorem Confined.call (h : Confined disk s) (hserving : Serving disk s) (hknows : s.Knows c)
    (hcall : s.call c = .ok s') : Confined disk s' := by
  have hmade := hserving.made_lt
  have hmkdirs := hserving.live.blocks_le
  have hlength := s.length_newDirs
  rcases hserving.call_data hknows hcall with rfl | ⟨fs', name, rfl, hdata⟩
  · exact h
  · -- every sector in question is behind the root's block, and in group 0
    have hbounds : ∀ i, i ≤ s.newDirs.length → 8 * (37 + i) % 262144 ≠ 0 ∧
        8 * (37 + i) % 262144 ≠ 8 := by
      intro i hi
      omega
    constructor
    case newDirs =>
      intro i node hnode
      rw [Session.newDirs_append] at hnode
      by_cases hop : c.op = .mkdir
      · rw [if_pos hop] at hnode
        by_cases hi : i < s.newDirs.length
        · rw [List.getElem?_append_left hi] at hnode
          rw [hdata _ (Or.inl (by omega)) (hbounds i (by omega)).1 (hbounds i (by omega)).2,
            if_neg (by omega)]
          exact h.newDirs i node hnode
        · have hlast : i = s.newDirs.length := by
            have hlt := (List.getElem?_eq_some_iff.mp hnode).1
            rw [List.length_append, List.length_singleton] at hlt
            omega
          rw [hlast, List.getElem?_append_right (Nat.le_refl _), Nat.sub_self] at hnode
          rw [hdata _ (Or.inl (by omega)) (hbounds i (by omega)).1 (hbounds i (by omega)).2,
            if_pos ⟨hop, by omega⟩, ← Option.some.inj hnode]
          rfl
      · rw [if_neg hop] at hnode
        have hi := (List.getElem?_eq_some_iff.mp hnode).1
        rw [hdata _ (Or.inl (by omega)) (hbounds i (by omega)).1 (hbounds i (by omega)).2,
          if_neg (fun hmkdir ↦ hop hmkdir.1)]
        exact h.newDirs i node hnode
    case others =>
      intro x hx h0 h8 h9 hne
      rw [Session.newDirs_append] at hne
      rw [hdata x (Or.inl hx) h0 h8]
      by_cases hop : c.op = .mkdir
      · rw [if_pos hop, List.length_append, List.length_singleton] at hne
        rw [if_neg (fun hmkdir ↦ hne s.newDirs.length (by omega) (by omega))]
        exact h.others x hx h0 h8 h9 fun i hi ↦ hne i (by omega)
      · rw [if_neg hop] at hne
        rw [if_neg (fun hmkdir ↦ hop hmkdir.1)]
        exact h.others x hx h0 h8 h9 hne

theorem Session.Fresh.confined (h : s.Fresh disk) (hpos : 1 ≤ disk.groups) : Confined disk s := by
  rcases h with ⟨hmount, hmade⟩
  unfold Mounted formatAndMount at hmount
  rcases bind_eq_ok.mp hmount with ⟨⟨result, disk'⟩, hformat, hread⟩
  constructor
  case newDirs =>
    intro i node hnode
    rw [Session.newDirs, hmade] at hnode
    cases hnode
  case others =>
    intro x hx h0 h8 h9 _
    rw [(ext2ReadSuperblock_ok hread).1]
    exact ext2Format_frame hpos hformat hx h0 h8 h9

theorem InUse.confined (h : InUse disk s) (hpos : 1 ≤ disk.groups) (hfew : disk.groups ≤ 16) :
    Confined disk s := by
  have hboth : Serving disk s ∧ Confined disk s := by
    apply Reachable.invariant (fun s ↦ Serving disk s ∧ Confined disk s) _ _ h
    · intro s hs
      exact ⟨(hs.serving hpos hfew).1, hs.confined hpos⟩
    · intro s c s' hs hknows hcall
      exact ⟨hs.1.call hknows hcall, hs.2.call hs.1 hknows hcall⟩
  exact hboth.2

/-- Formatting the disk, mounting it and any calls of `ext2_mkdir` and `ext2_create` leave the data
sectors alone, but for the blocks of the directories made; no later call touches such a block. -/
theorem session_confined (hpos : 1 ≤ disk.groups) (h : InUse disk s) : Confined disk s := by
  by_cases hfew : disk.groups ≤ 16
  · exact h.confined hpos hfew
  · exact (h.fresh (Nat.lt_of_not_le hfew)).confined hpos

/-- The first directory made on a zeroed disk. -/
theorem session_confined_zeroedDisk : ∃ s, InUse (zeroedDisk 262144) s ∧
    s.fs.disk.content 296 = asEntries.symm (newDirEntries 11 2) ∧
    s.fs.disk.content 304 = zeroSector := by
  rcases zeroedDisk_call .mkdir with ⟨s₀, s, -, -, hinuse, -, hmade, -⟩
  have hconfined := session_confined (by decide) hinuse
  have hdirs : s.newDirs = [newNode .mkdir 11 nameA] := by
    rw [Session.newDirs, hmade]
    rfl
  refine ⟨s, hinuse, hconfined.newDirs 0 (newNode .mkdir 11 nameA) (by rw [hdirs]; rfl), ?_⟩
  rw [hconfined.others 304 (by decide) (by decide) (by decide) (by decide) fun i hi ↦ ?_]
  · rfl
  · rw [hdirs, List.length_singleton] at hi
    omega

end Sessions

end Ext2Fs
