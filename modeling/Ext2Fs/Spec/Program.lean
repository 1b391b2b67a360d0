import Ext2Fs.Model.Program
import Ext2Fs.Properties.ShellNames

/-!
# What a line typed at the shell does

Every command either leaves the file system and the current directory alone, or mounts, unmounts or
formats the disk, or makes an entry in the current directory.
-/

open Reasoning

namespace Ext2Fs

/-! ## The functions below the commands -/

section Calls

variable {fs fs' : Ext2Filesystem} {stack : StackInode} {parent : ShellEntry} {name : List UInt8}
  {result : Int}

theorem pdata_ext2EntryToShellEntry (fs : Ext2Filesystem) (stack : StackInode)
    (entry : EntryData) : (ext2EntryToShellEntry fs stack entry).pdata = entry := rfl

-- `rm` reports success and removes nothing.
theorem fsRemove_ok (h : fsRemove fs parent name = .ok (result, fs')) : result = 0 ∧ fs' = fs := by
  unfold fsRemove at h
  rcases bind_eq_ok.mp h with ⟨r, hlookup, h⟩
  simp only [(ext2Lookup_ok hlookup).1, pure_eq_ok, Except.ok.injEq, Prod.mk.injEq] at h
  exact ⟨h.1.symm, h.2.symm⟩

theorem fsRmdir_ok (h : fsRmdir fs parent name = .ok (result, fs')) : result = 0 ∧ fs' = fs := by
  unfold fsRmdir at h
  rcases bind_eq_ok.mp h with ⟨r, hlookup, h⟩
  simp only [(ext2Lookup_ok hlookup).1, pure_eq_ok, Except.ok.injEq, Prod.mk.injEq] at h
  exact ⟨h.1.symm, h.2.symm⟩

-- The list that `is_exist` searches is empty: the two functions differ in their callee only.
theorem fsMake_eq (op : DirOp) : fsMake op fs stack parent name =
    ext2Make op fs parent.pdata.node name >>= fun r ↦
      if r.1 ≠ 0 then .ok (r.1, none, r.2.2)
      else determinate r.2.1 >>= fun node ↦
        .ok (r.1, some (ext2EntryToShellEntry r.2.2 stack ⟨parent.pdata.fs, node⟩), r.2.2) := by
  cases op with
  | mkdir =>
    change fsMkdir fs stack parent name = _
    unfold fsMkdir
    rw [isExist_eq, if_neg (by decide)]
    rfl
  | create => rfl

-- What `fs_create` and `fs_mkdir` return is what `ext2_create` and `ext2_mkdir` return.
theorem fsMake_ok {op : DirOp} {entry : Option ShellEntry}
    (h : fsMake op fs stack parent name = .ok (result, entry, fs')) :
    ∃ node, ext2Make op fs parent.pdata.node name = .ok (result, node, fs') := by
  rw [fsMake_eq] at h
  rcases bind_eq_ok.mp h with ⟨⟨result', node, fs₁⟩, hmake, h⟩
  refine ⟨node, ?_⟩
  rw [hmake]
  dsimp only at h
  split at h
  · cases h
    rfl
  · rcases bind_eq_ok.mp h with ⟨node', -, h⟩
    cases h
    rfl

end Calls

namespace Program

variable {p p' : Program} {stack : StackInode} {args : List (List UInt8)} {r : Int}

/-! ## The file system of a program -/

theorem filesystem_ok {fs : Ext2Filesystem} {pdata : Option Nat}
    (h : p.filesystem pdata = .ok fs) :
    p.spb = some fs.spb ∧ fs.disk = p.disk ∧ pdata = p.shell.pdata := by
  unfold filesystem at h
  split at h
  · rename_i spb hspb
    split at h
    · rename_i hpdata
      rw [Except.ok.injEq] at h
      subst h
      exact ⟨hspb, rfl, hpdata⟩
    · cases h
  · cases h

theorem keep_filesystem {fs : Ext2Filesystem} {pdata : Option Nat}
    (h : p.filesystem pdata = .ok fs) : p.keep fs = p := by
  obtain ⟨hspb, hdisk, -⟩ := filesystem_ok h
  unfold keep
  rw [hdisk, ← hspb]

/-! ## Commands that change nothing -/

theorem shellCmdRm_ok (h : p.shellCmdRm args = .ok (r, p')) : r = 0 ∧ p' = p := by
  unfold shellCmdRm at h
  rcases bind_eq_ok.mp h with ⟨q, hloop, h⟩
  simp only [pure_eq_ok, Except.ok.injEq, Prod.mk.injEq] at h
  rw [← h.2]
  refine ⟨h.1.symm, forEach_invariant (· = p) ?_ rfl hloop⟩
  intro name _ q q' hq hstep
  rcases bind_eq_ok.mp hstep with ⟨fs, hfs, hstep⟩
  rcases bind_eq_ok.mp hstep with ⟨⟨result, fs'⟩, hremove, hstep⟩
  simp only [(fsRemove_ok hremove).2, keep_filesystem hfs, pure_eq_ok, Except.ok.injEq] at hstep
  rw [← hstep, hq]

theorem shellCmdRmdir_ok (h : p.shellCmdRmdir args = .ok (r, p')) : r = 0 ∧ p' = p := by
  unfold shellCmdRmdir at h
  split at h
  · rcases bind_eq_ok.mp h with ⟨fs, hfs, h⟩
    rcases bind_eq_ok.mp h with ⟨⟨result, fs'⟩, hrmdir, h⟩
    obtain ⟨hresult, hsame⟩ := fsRmdir_ok hrmdir
    simp only [hresult, hsame, keep_filesystem hfs] at h
    cases h
    exact ⟨rfl, rfl⟩
  · cases h
    exact ⟨rfl, rfl⟩

theorem shellCmdLs_eq : p.shellCmdLs args = (0, p) := by
  unfold shellCmdLs
  split <;> rfl

theorem shellCmdDf_ok (h : p.shellCmdDf = .ok (r, p')) : p' = p := by
  unfold shellCmdDf at h
  rcases bind_eq_ok.mp h with ⟨fs, -, h⟩
  cases h
  rfl

theorem shellCmdMkdirst_ok (h : p.shellCmdMkdirst args = .ok (r, p')) : p' = p := by
  unfold shellCmdMkdirst at h
  split at h <;> cases h
  rfl

theorem shellCmdDumpfile_ok (h : p.shellCmdDumpfile args = .ok (r, p')) : p' = p := by
  unfold shellCmdDumpfile at h
  split at h <;> cases h
  rfl

theorem dump_ok {group target : Int32} {type : Nat} (h : p.dump group type target = .ok (r, p')) :
    p' = p := by
  unfold dump at h
  rcases bind_eq_ok.mp h with ⟨printed, -, h⟩
  cases h
  rfl

theorem dumpGroup_ok {type : Nat} (h : p.dumpGroup type args = .ok (r, p')) : p' = p := by
  unfold dumpGroup at h
  split at h
  · rcases bind_eq_ok.mp h with ⟨group, -, h⟩
    exact dump_ok h
  · cases h
    rfl

theorem shellCmdDumpdata_ok (h : p.shellCmdDumpdata args = .ok (r, p')) : p' = p := by
  unfold shellCmdDumpdata at h
  split at h
  · rcases bind_eq_ok.mp h with ⟨group, -, h⟩
    rcases bind_eq_ok.mp h with ⟨block, -, h⟩
    exact dump_ok h
  · cases h
    rfl

/-! ## Commands that mount and format -/

theorem shellCmdMount_ok (h : p.shellCmdMount stack = .ok (r, p')) :
    ∃ fs root, ext2ReadSuperblock p.disk = .ok (some (fs, root)) ∧ p' = { p with
      spb := some fs.spb
      shell := (Ext2Fs.shellCmdMount p.shell true
        (ext2EntryToShellEntry fs stack ⟨none, root⟩)).2 } := by
  unfold shellCmdMount at h
  rcases bind_eq_ok.mp h with ⟨found, hread, h⟩
  rcases bind_eq_ok.mp h with ⟨⟨fs, root⟩, hfound, h⟩
  rw [determinate_eq_ok.mp hfound] at hread
  cases h
  exact ⟨fs, root, hread, rfl⟩

theorem shellCmdFormat_ok (h : p.shellCmdFormat = .ok (r, p')) :
    ∃ result disk, ext2Format p.disk = .ok (result, disk) ∧ p' = { p with disk := disk } := by
  unfold shellCmdFormat at h
  rcases bind_eq_ok.mp h with ⟨⟨result, disk⟩, hformat, h⟩
  cases h
  exact ⟨result, disk, hformat, rfl⟩

/-! ## Commands that look a name up -/

-- `cd` changes nothing but the state of the shell.
theorem shellCmdCd_ok (h : p.shellCmdCd stack args = .ok (r, p')) :
    ∃ shell, p' = { p with shell := shell } := by
  unfold shellCmdCd at h
  rcases bind_eq_ok.mp h with ⟨⟨result, shell⟩, -, h⟩
  cases h
  exact ⟨shell, rfl⟩

-- `cat` only converts the entry of the current directory once more.
theorem shellCmdCat_ok (h : p.shellCmdCat stack args = .ok (r, p')) :
    p' = p ∨ ∃ entry : ShellEntry, entry.pdata = p.shell.currentDir.pdata ∧
      p' = { p with shell := { p.shell with currentDir := entry } } := by
  unfold shellCmdCat at h
  split at h
  · rcases bind_eq_ok.mp h with ⟨fs, hfs, h⟩
    rcases bind_eq_ok.mp h with ⟨⟨answer, fs'⟩, hlookup, h⟩
    rcases bind_eq_ok.mp h with ⟨result, -, h⟩
    obtain ⟨hsame, -, hparent, -⟩ := fsLookup_ok hlookup
    simp only [hsame, keep_filesystem hfs, hparent] at h
    split at h
    · simp only [pure_eq_ok, Except.ok.injEq, Prod.mk.injEq] at h
      exact Or.inr ⟨_, pdata_ext2EntryToShellEntry _ _ _, h.2.symm⟩
    · cases h
  · cases h
    exact Or.inl rfl

/-! ## Commands that make an entry -/

-- A command that calls `fs_create` or `fs_mkdir`.
theorem fsMake_currentFs {op : DirOp} {fs fs' : Ext2Filesystem} {entry : Option ShellEntry}
    {name : List UInt8} (hfs : p.currentFs = .ok fs)
    (h : fsMake op fs stack p.shell.currentDir name = .ok (r, entry, fs')) :
    ∃ spb node, p.spb = some spb ∧
      ext2Make op ⟨spb, p.disk⟩ p.shell.currentDir.pdata.node name = .ok (r, node, fs') := by
  obtain ⟨hspb, hdisk, -⟩ := filesystem_ok hfs
  obtain ⟨node, hmake⟩ := fsMake_ok h
  refine ⟨fs.spb, node, hspb, ?_⟩
  rw [← hdisk]
  exact hmake

/-- An entry is made in the current directory, or the attempt to make one fails. -/
def MakesEntry (p p' : Program) : Prop :=
  ∃ (op : DirOp) (name : List UInt8) (spb : Ext2SuperBlock) (result : Int)
    (node : Option Ext2Node) (fs' : Ext2Filesystem), p.spb = some spb ∧
    ext2Make op ⟨spb, p.disk⟩ p.shell.currentDir.pdata.node name = .ok (result, node, fs') ∧
    p' = p.keep fs'

theorem shellCmdTouch_ok (h : p.shellCmdTouch stack args = .ok (r, p')) :
    p' = p ∨ MakesEntry p p' := by
  unfold shellCmdTouch at h
  split at h
  · cases h
    exact Or.inl rfl
  · rename_i name _
    rcases bind_eq_ok.mp h with ⟨fs, hfs, h⟩
    rcases bind_eq_ok.mp h with ⟨⟨result, entry, fs'⟩, hcreate, h⟩
    obtain ⟨spb, node, hspb, hmake⟩ := @fsMake_currentFs p stack _ .create _ _ _ _ hfs hcreate
    simp only [pure_eq_ok, Except.ok.injEq, Prod.mk.injEq] at h
    exact Or.inr ⟨.create, name, spb, result, node, fs', hspb, hmake, h.2.symm⟩

theorem shellCmdMkdir_ok (h : p.shellCmdMkdir stack args = .ok (r, p')) :
    p' = p ∨ MakesEntry p p' := by
  unfold shellCmdMkdir at h
  split at h
  · rename_i name
    rcases bind_eq_ok.mp h with ⟨fs, hfs, h⟩
    rcases bind_eq_ok.mp h with ⟨⟨result, entry, fs'⟩, hmkdir, h⟩
    obtain ⟨spb, node, hspb, hmake⟩ := @fsMake_currentFs p stack _ .mkdir _ _ _ _ hfs hmkdir
    simp only [pure_eq_ok, Except.ok.injEq, Prod.mk.injEq] at h
    exact Or.inr ⟨.mkdir, name, spb, result, node, fs', hspb, hmake, h.2.symm⟩
  · cases h
    exact Or.inl rfl

theorem shellCmdFill_eq (hlen : args.length ≠ 2) : p.shellCmdFill stack args = .ok (0, p) := by
  unfold shellCmdFill
  split
  · exact absurd rfl hlen
  · rfl

theorem shellCmdFill_ok (h : p.shellCmdFill stack args = .ok (r, p')) :
    p' = p ∨ MakesEntry p p' := by
  unfold shellCmdFill at h
  split at h
  · rename_i name format
    split at h
    · cases h
    rcases bind_eq_ok.mp h with ⟨-, -, h⟩
    rcases bind_eq_ok.mp h with ⟨fs, hfs, h⟩
    rcases bind_eq_ok.mp h with ⟨⟨result, entry, fs'⟩, hcreate, h⟩
    obtain ⟨spb, node, hspb, hmake⟩ := @fsMake_currentFs p stack _ .create _ _ _ _ hfs hcreate
    dsimp only at h
    split at h
    · simp only [pure_eq_ok, Except.ok.injEq, Prod.mk.injEq] at h
      exact Or.inr ⟨.create, name, spb, result, node, fs', hspb, hmake, h.2.symm⟩
    · cases h
  · cases h
    exact Or.inl rfl

end Program

/-! ## The conditions of the commands -/

/-- The conditions under which `g_commands` lets a function be called. -/
def Handler.conditions : Handler → UInt8
  | .exit => 0
  | .mount => condUmount
  | .format => condUmount
  | _ => condMount

theorem conditions_gCommands : ∀ c ∈ gCommands, c.conditions = c.handler.conditions := by decide

theorem doShellLine_handled {isMounted : Bool} {argv argv' : List (Option Nat)}
    {buf buf' : List UInt8} {handler : Handler} {argc : Nat}
    (h : doShellLine isMounted argv buf = .ok (.handled handler argc argv' buf')) :
    checkConditions isMounted handler.conditions = 0 := by
  unfold doShellLine at h
  rcases bind_eq_ok.mp h with ⟨s, -, h⟩
  split at h
  · cases h
  rcases bind_eq_ok.mp h with ⟨command, -, h⟩
  split at h
  · cases h
  · rename_i c hfind
    split at h
    · rename_i hcheck
      cases h
      rw [← conditions_gCommands c (List.mem_of_find?_eq_some hfind)]
      exact hcheck
    · cases h

theorem checkConditions_mount {isMounted : Bool}
    (h : checkConditions isMounted condMount = 0) : isMounted = true := by
  cases isMounted
  · exact absurd h (by decide)
  · rfl

theorem checkConditions_umount {isMounted : Bool}
    (h : checkConditions isMounted condUmount = 0) : isMounted = false := by
  cases isMounted
  · rfl
  · exact absurd h (by decide)

/-! ## The current directory -/

namespace Program

/-- The shell stands in the root of the file system that it has mounted, if it has. -/
structure AtRoot (p : Program) : Prop where
  pathTop : p.shell.pathTop = 0
  mounted : p.spb.isSome = p.shell.isMounted
  rootDir : p.shell.isMounted = true → p.shell.rootDir.pdata.fs = p.shell.pdata
  currentDir : p.shell.isMounted = true → p.shell.currentDir.pdata = p.shell.rootDir.pdata

/-- The file system stays, and the shell where it stands. -/
structure Idle (p p' : Program) : Prop where
  disk : p'.disk = p.disk
  spb : p'.spb = p.spb
  isMounted : p'.shell.isMounted = p.shell.isMounted
  pdata : p'.shell.pdata = p.shell.pdata
  rootDir : p'.shell.rootDir = p.shell.rootDir
  currentDir : p'.shell.currentDir.pdata = p.shell.currentDir.pdata
  pathTop : p'.shell.pathTop = p.shell.pathTop

theorem Idle.refl (p : Program) : Idle p p := ⟨rfl, rfl, rfl, rfl, rfl, rfl, rfl⟩

theorem start_atRoot (disk : DiskOperations) : (start disk).AtRoot := by
  constructor
  case pathTop => rfl
  case mounted => rfl
  case rootDir => exact fun h ↦ absurd h Bool.false_ne_true
  case currentDir => exact fun h ↦ absurd h Bool.false_ne_true

variable {p p' : Program} {stack : StackInode} {args : List (List UInt8)} {r : Int}

theorem AtRoot.idle (h : p.AtRoot) (hidle : Idle p p') : p'.AtRoot := by
  constructor
  case pathTop => rw [hidle.pathTop, h.pathTop]
  case mounted => rw [hidle.spb, hidle.isMounted, h.mounted]
  case rootDir =>
    intro hmount
    rw [hidle.isMounted] at hmount
    rw [hidle.rootDir, hidle.pdata, h.rootDir hmount]
  case currentDir =>
    intro hmount
    rw [hidle.isMounted] at hmount
    rw [hidle.currentDir, hidle.rootDir, h.currentDir hmount]

theorem shellCmdCat_idle (h : p.shellCmdCat stack args = .ok (r, p')) : Idle p p' := by
  rcases shellCmdCat_ok h with rfl | ⟨entry, hentry, rfl⟩
  · exact Idle.refl p'
  · exact ⟨rfl, rfl, rfl, rfl, rfl, hentry, rfl⟩

-- `cd` looks up at most one name, in the current directory.
theorem shellCmdCd_congr {lookup lookup' : ShellEntry → List UInt8 → Exec LookupAnswer}
    {st : ShellState} (h : ∀ name, lookup st.currentDir name = lookup' st.currentDir name) :
    Ext2Fs.shellCmdCd lookup st args = Ext2Fs.shellCmdCd lookup' st args := by
  have hbottom : ∀ name, lookup st.setBottom.currentDir name =
      lookup' st.setBottom.currentDir name := h
  unfold Ext2Fs.shellCmdCd
  simp only [hbottom]

/-- The shell stays in its directory. -/
structure Stays (st st' : ShellState) : Prop where
  isMounted : st'.isMounted = st.isMounted
  pdata : st'.pdata = st.pdata
  rootDir : st'.rootDir = st.rootDir
  currentDir : st'.currentDir.pdata = st.currentDir.pdata
  pathTop : st'.pathTop = st.pathTop

-- With nothing on the path, `cd` ends in the root or where it stood: a name that is found is taken
-- for a missing one, and a missing one leads to a variable that nothing has filled.
theorem shellCmdCd_stays {fs : Ext2Filesystem} {st st' : ShellState} (htop : st.pathTop = 0)
    (hroot : st.currentDir.pdata = st.rootDir.pdata)
    (h : Ext2Fs.shellCmdCd (cdLookup fs stack none) st args = .ok (r, st')) : Stays st st' := by
  by_cases hargs : LooksUp st args
  · rcases hargs with ⟨arg, rfl, hlooks⟩
    obtain ⟨-, -, rfl⟩ := shellCmdCd_cdLookup ⟨arg, rfl, hlooks⟩ h
    exact ⟨rfl, rfl, rfl, pdata_ext2EntryToShellEntry _ _ _, rfl⟩
  · have henter := @enter_setBottom st 0 st.rootDir rfl
    unfold Ext2Fs.shellCmdCd at h
    match args with
    | [] =>
      simp only [henter, ok_bind, pure_eq_ok, Except.ok.injEq, Prod.mk.injEq] at h
      rw [← h.2]
      exact ⟨rfl, rfl, rfl, hroot.symm, htop.symm⟩
    | [arg] =>
      have hup : ¬ (arg = dotdotName ∧ 0 < st.setBottom.pathTop) := by
        rintro ⟨-, hpos⟩
        exact absurd hpos (by rw [show st.setBottom.pathTop = st.pathTop from rfl]; omega)
      by_cases hdot : arg = dotName
      · simp only [if_pos hdot, pure_eq_ok, Except.ok.injEq, Prod.mk.injEq] at h
        rw [← h.2]
        exact ⟨rfl, rfl, rfl, rfl, rfl⟩
      · exact absurd ⟨arg, rfl, hdot, hup⟩ hargs
    | _ :: _ :: _ =>
      cases h
      exact ⟨rfl, rfl, rfl, rfl, rfl⟩

theorem AtRoot.currentFs_eq (h : p.AtRoot) (hmount : p.shell.isMounted = true) :
    ∃ spb, p.spb = some spb ∧ p.currentFs = .ok ⟨spb, p.disk⟩ := by
  have hsome := h.mounted.trans hmount
  rcases Option.isSome_iff_exists.mp hsome with ⟨spb, hspb⟩
  refine ⟨spb, hspb, ?_⟩
  unfold currentFs filesystem
  rw [h.currentDir hmount, h.rootDir hmount]
  simp only [hspb, if_true]

theorem AtRoot.shellCmdCd_idle (h : p.AtRoot) (hmount : p.shell.isMounted = true)
    (hrun : p.shellCmdCd stack args = .ok (r, p')) : Idle p p' := by
  rcases h.currentFs_eq hmount with ⟨spb, -, hfs⟩
  unfold shellCmdCd at hrun
  rcases bind_eq_ok.mp hrun with ⟨⟨result, st'⟩, hcd, hrun⟩
  simp only [pure_eq_ok, Except.ok.injEq, Prod.mk.injEq] at hrun
  rw [← hrun.2]
  rw [@shellCmdCd_congr args _ (cdLookup ⟨spb, p.disk⟩ stack none) p.shell] at hcd
  · have hstays := shellCmdCd_stays h.pathTop (h.currentDir hmount) hcd
    exact ⟨rfl, rfl, hstays.isMounted, hstays.pdata, hstays.rootDir, hstays.currentDir,
      hstays.pathTop⟩
  · intro name
    change p.currentFs >>= _ = _
    rw [hfs, ok_bind]

/-! ## One line -/

/-- What a line can do, where `formats` and `makes` tell whether it may format the disk or make an
entry. -/
inductive LineEffect (formats makes : Prop) (p : Program) : Program → Prop
  | idle {p' : Program} : Idle p p' → LineEffect formats makes p p'
  | make {p' : Program} : makes → p.shell.isMounted = true → MakesEntry p p' →
      LineEffect formats makes p p'
  | mount {fs : Ext2Filesystem} {root : Ext2Node} (stack : StackInode) :
      p.shell.isMounted = false → ext2ReadSuperblock p.disk = .ok (some (fs, root)) →
      LineEffect formats makes p { p with
        spb := some fs.spb
        shell := (Ext2Fs.shellCmdMount p.shell true
          (ext2EntryToShellEntry fs stack ⟨none, root⟩)).2 }
  | umount : p.shell.isMounted = true → LineEffect formats makes p p.shellCmdUmount.2
  | format {result : Int} {disk : DiskOperations} : formats → p.shell.isMounted = false →
      ext2Format p.disk = .ok (result, disk) → LineEffect formats makes p { p with disk := disk }

variable {formats makes : Prop}

theorem LineEffect.mono {formats' makes' : Prop} (h : LineEffect formats makes p p')
    (hformats : formats → formats') (hmakes : makes → makes') :
    LineEffect formats' makes' p p' := by
  cases h with
  | idle hidle => exact .idle hidle
  | make hmade hmount hmake => exact .make (hmakes hmade) hmount hmake
  | mount stack hfree hread => exact .mount stack hfree hread
  | umount hmount => exact .umount hmount
  | format hformatted hfree hformat => exact .format (hformats hformatted) hfree hformat

theorem LineEffect.of_make (hmakes : makes) (hmount : p.shell.isMounted = true)
    (h : p' = p ∨ MakesEntry p p') : LineEffect formats makes p p' := by
  rcases h with rfl | hmake
  · exact .idle (Idle.refl p')
  · exact .make hmakes hmount hmake

/-- The functions that read at most. -/
def readers : List Handler :=
  [.rm, .rmdir, .ls, .df, .mkdirst, .dumpfile, .dumpdata, .dumpsb, .dumpgdt, .dumpbmap, .dumpimap,
    .dumpit]

theorem handle_same {handler : Handler} (hrun : p.handle stack args handler = .ok (r, p'))
    (hreads : handler ∈ readers) : p' = p := by
  cases handler with
  | rm => exact (shellCmdRm_ok hrun).2
  | rmdir => exact (shellCmdRmdir_ok hrun).2
  | ls =>
    rw [handle, shellCmdLs_eq] at hrun
    cases hrun
    rfl
  | df => exact shellCmdDf_ok hrun
  | mkdirst => exact shellCmdMkdirst_ok hrun
  | dumpfile => exact shellCmdDumpfile_ok hrun
  | dumpdata => exact shellCmdDumpdata_ok hrun
  | dumpsb => exact dump_ok hrun
  | dumpgdt => exact dump_ok hrun
  | dumpbmap => exact dumpGroup_ok hrun
  | dumpimap => exact dumpGroup_ok hrun
  | dumpit => exact dumpGroup_ok hrun
  | _ => exact absurd hreads (by decide)

/-- The functions that may make an entry, with the arguments that they ask for. -/
def MayMake (handler : Handler) (args : List (List UInt8)) : Prop :=
  handler = .touch ∨ handler = .mkdir ∨ (handler = .fill ∧ args.length = 2)

theorem AtRoot.handle_cases (h : p.AtRoot) {handler : Handler}
    (hcheck : checkConditions p.shell.isMounted handler.conditions = 0)
    (hrun : p.handle stack args handler = .ok (r, p')) :
    LineEffect (handler = .format) (MayMake handler args) p p' := by
  have hsame (hp : p' = p) : LineEffect (handler = .format) (MayMake handler args) p p' := by
    rw [hp]
    exact .idle (Idle.refl p)
  cases handler with
  | cd => exact .idle (h.shellCmdCd_idle (checkConditions_mount hcheck) hrun)
  | exit =>
    cases hrun
    exact .idle ⟨rfl, rfl, rfl, rfl, rfl, rfl, rfl⟩
  | mount =>
    rcases shellCmdMount_ok hrun with ⟨fs, root, hread, rfl⟩
    exact .mount stack (checkConditions_umount hcheck) hread
  | umount =>
    cases hrun
    exact .umount (checkConditions_mount hcheck)
  | format =>
    rcases shellCmdFormat_ok hrun with ⟨result, disk, hformat, rfl⟩
    exact .format rfl (checkConditions_umount hcheck) hformat
  | touch => exact .of_make (Or.inl rfl) (checkConditions_mount hcheck) (shellCmdTouch_ok hrun)
  | fill =>
    by_cases hlen : args.length = 2
    · exact .of_make (Or.inr (Or.inr ⟨rfl, hlen⟩)) (checkConditions_mount hcheck)
        (shellCmdFill_ok hrun)
    · rw [handle, shellCmdFill_eq hlen] at hrun
      cases hrun
      exact .idle (Idle.refl p)
  | mkdir =>
    exact .of_make (Or.inr (Or.inl rfl)) (checkConditions_mount hcheck) (shellCmdMkdir_ok hrun)
  | cat => exact .idle (shellCmdCat_idle hrun)
  | _ => exact hsame (handle_same hrun (by decide))

/-- The line makes `do_shell` call the function. -/
def Calls (p : Program) (typed : TypedLine) (handler : Handler) : Prop :=
  p.running = true ∧ ∃ argc argv buf,
    doShellLine p.shell.isMounted typed.argv typed.buf = .ok (.handled handler argc argv buf)

-- A line does nothing, or calls one function.
theorem runLine_cases {typed : TypedLine} (h : p.runLine typed = .ok p') :
    p' = p ∨ ∃ handler args result, p.Calls typed handler ∧
      p.handle typed.stack args handler = .ok (result, p') := by
  unfold runLine at h
  split at h
  · rename_i hrunning
    rcases bind_eq_ok.mp h with ⟨outcome, houtcome, h⟩
    cases outcome with
    | blank =>
      cases h
      exact Or.inl rfl
    | unknown =>
      cases h
      exact Or.inl rfl
    | refused =>
      cases h
      exact Or.inl rfl
    | handled handler argc argv buf =>
      rcases bind_eq_ok.mp h with ⟨args, -, h⟩
      rcases bind_eq_ok.mp h with ⟨⟨result, q⟩, hhandle, h⟩
      simp only [pure_eq_ok, Except.ok.injEq] at h
      rw [h] at hhandle
      exact Or.inr ⟨handler, args, result, ⟨hrunning, argc, argv, buf, houtcome⟩, hhandle⟩
  · cases h
    exact Or.inl rfl

theorem Calls.check {typed : TypedLine} {handler : Handler} (h : p.Calls typed handler) :
    checkConditions p.shell.isMounted handler.conditions = 0 := by
  rcases h with ⟨-, argc, argv, buf, houtcome⟩
  exact doShellLine_handled houtcome

theorem AtRoot.lineEffect (h : p.AtRoot) {typed : TypedLine} (hrun : p.runLine typed = .ok p') :
    LineEffect (p.Calls typed .format) True p p' := by
  rcases runLine_cases hrun with rfl | ⟨handler, args, result, hcalls, hhandle⟩
  · exact .idle (Idle.refl p')
  · apply (h.handle_cases hcalls.check hhandle).mono
    · intro hhandler
      rw [hhandler] at hcalls
      exact hcalls
    · exact fun _ ↦ trivial

/-! ### umount -/

@[simp] theorem isMounted_umount : p.shellCmdUmount.2.shell.isMounted = false := by
  unfold shellCmdUmount Ext2Fs.shellCmdUmount fsUmount
  dsimp only
  split <;> rfl

@[simp] theorem pathTop_umount : p.shellCmdUmount.2.shell.pathTop = p.shell.pathTop := by
  unfold shellCmdUmount Ext2Fs.shellCmdUmount fsUmount
  dsimp only
  split <;> rfl

theorem not_mounted_umount {P : Prop} (h : p.shellCmdUmount.2.shell.isMounted = true) : P := by
  rw [isMounted_umount] at h
  exact absurd h Bool.false_ne_true

-- The shell never leaves the root.
theorem AtRoot.effect (h : p.AtRoot) (heffect : LineEffect formats makes p p') : p'.AtRoot := by
  cases heffect with
  | idle hidle => exact h.idle hidle
  | make _ hmount hmake =>
    rcases hmake with ⟨op, name, spb, result, node, fs', hspb, -, rfl⟩
    exact ⟨h.pathTop, hmount.symm, h.rootDir, h.currentDir⟩
  | mount stack hfree hread => exact ⟨h.pathTop, rfl, fun _ ↦ rfl, fun _ ↦ rfl⟩
  | umount hmount =>
    exact ⟨pathTop_umount.trans h.pathTop, isMounted_umount.symm, not_mounted_umount,
      not_mounted_umount⟩
  | format _ hfree _ => exact ⟨h.pathTop, h.mounted, h.rootDir, h.currentDir⟩

/-! ### Commands that do not write -/

/-- The functions that may write to the disk. -/
def writers : List Handler := [.format, .touch, .mkdir, .mkdirst, .fill]

-- Whatever the state, the other functions write no sector.
theorem handle_disk {handler : Handler} (hrun : p.handle stack args handler = .ok (r, p'))
    (hreads : handler ∉ writers) : p'.disk = p.disk := by
  have hsame (hp : p' = p) : p'.disk = p.disk := by rw [hp]
  cases handler with
  | format => exact absurd (by decide) hreads
  | touch => exact absurd (by decide) hreads
  | mkdir => exact absurd (by decide) hreads
  | mkdirst => exact absurd (by decide) hreads
  | fill => exact absurd (by decide) hreads
  | cd =>
    rcases shellCmdCd_ok hrun with ⟨shell, rfl⟩
    rfl
  | exit =>
    cases hrun
    rfl
  | mount =>
    rcases shellCmdMount_ok hrun with ⟨fs, root, -, rfl⟩
    rfl
  | umount =>
    cases hrun
    rfl
  | cat => exact (shellCmdCat_idle hrun).disk
  | _ => exact hsame (handle_same hrun (by decide))

end Program

end Ext2Fs
