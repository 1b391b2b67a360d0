import Ext2Fs.Properties.Remount
import Ext2Fs.Spec.Program

/-!
# Runs of the program

The shell and the file system together, from `main` on, whatever lines are typed.
-/

open Reasoning

namespace Ext2Fs

namespace Program

/-- The states of the program on a disk with any content. -/
abbrev Runs (disk : DiskOperations) : Program → Prop :=
  Reachable runLine (fun _ _ ↦ True) (· = start disk)

/-- The states that lines lead to from a state of the program. -/
abbrev From (p₀ : Program) : Program → Prop :=
  Reachable runLine (fun _ _ ↦ True) (· = p₀)

theorem AtRoot.from {p₀ p : Program} (h : p₀.AtRoot) (hrun : From p₀ p) : p.AtRoot := by
  apply Reachable.invariant AtRoot _ _ hrun
  · intro q hq
    rw [hq]
    exact h
  · intro q typed q' hq _ hline
    exact hq.effect (hq.lineEffect hline)

theorem Runs.atRoot {disk : DiskOperations} {p : Program} (h : Runs disk p) : p.AtRoot :=
  (start_atRoot disk).from h

/-! ## A disk that was just formatted -/

-- A disk that was just formatted is that of a session that has not begun.
theorem exists_fresh {disk disk' : DiskOperations} {result : Int} (hpos : 1 ≤ disk.groups)
    (hfew : disk.groups ≤ 16) (hformat : ext2Format disk = .ok (result, disk')) :
    ∃ s : Session, s.Fresh disk ∧ s.fs.disk = disk' := by
  rcases exists_mounted hpos hfew with ⟨disk'', -, hmount⟩
  have hread := hmount
  unfold Mounted formatAndMount at hread
  rw [hformat, ok_bind] at hread
  exact ⟨⟨_, _, []⟩, ⟨hmount, rfl⟩, (ext2ReadSuperblock_ok hread).1⟩

theorem ext2Format_of_fresh {disk : DiskOperations} {s : Session} (h : s.Fresh disk)
    (hpos : 1 ≤ disk.groups) (hfew : disk.groups ≤ 16) :
    ext2Format disk = .ok (ext2Success, s.fs.disk) := by
  rcases ext2Format_formatted hpos hfew with ⟨disk', hformat, -⟩
  have hmount := h.1
  unfold Mounted formatAndMount at hmount
  rw [hformat, ok_bind] at hmount
  rw [hformat, (ext2ReadSuperblock_ok hmount).1]

/-- `ext2_lookup` finds the name in the current directory. -/
def Finds (p : Program) (name : List UInt8) : Prop :=
  ∃ fs r, p.currentFs = .ok fs ∧
    ext2Lookup fs p.shell.currentDir.pdata.node name none = .ok r ∧ r.status = some ext2Success

/-! ## A run -/

/-- A line of one or two words, and what `seperate_string` fills in. -/
def typedLine (s : List UInt8) : TypedLine := ⟨List.replicate 2 none, s ++ [0x0a, 0x00], ⟨0, 0⟩⟩

/-- The line calls the function of a command and no other, and leads from one state to another. -/
def Handled (p : Program) (line : String) (handler : Handler) (p' : Program) : Prop :=
  p.runLine (typedLine (chars line)) = .ok p' ∧
    ∀ handler', handler' ≠ handler → ¬ p.Calls (typedLine (chars line)) handler'

theorem handled_of {p p' : Program} {line : String} {handler : Handler} {argc : Nat}
    {argv : List (Option Nat)} {buf : List UInt8} {args : List (List UInt8)} {r : Int}
    (hrunning : p.running = true)
    (hline : doShellLine p.shell.isMounted (typedLine (chars line)).argv
      (typedLine (chars line)).buf = .ok (.handled handler argc argv buf))
    (hargs : arguments argc argv buf = .ok args)
    (hrun : p.handle ⟨0, 0⟩ args handler = .ok (r, p')) : p.Handled line handler p' := by
  constructor
  · unfold runLine
    rw [if_pos hrunning, hline, ok_bind]
    simp only [hargs, ok_bind]
    change p.handle ⟨0, 0⟩ args handler >>= _ = _
    rw [hrun]
    rfl
  · rintro handler' hne ⟨-, argc', argv', buf', hline'⟩
    rw [hline] at hline'
    cases hline'
    exact hne rfl

theorem Handled.reads {p p' : Program} {line : String} {handler : Handler}
    (h : p.Handled line handler p') (hreads : handler ∉ writers) :
    ∀ writer ∈ writers, ¬ p.Calls (typedLine (chars line)) writer := by
  intro writer hwriter
  exact h.2 writer (by rintro rfl; exact hreads hwriter)

-- The format has left `.` and `..` in the root, and nothing removes them.
theorem taken_dots {base : DiskOperations} {s : Session} {name : List UInt8} (h : InUse base s)
    (hpos : 1 ≤ base.groups) (hfew : base.groups ≤ 16) (hname : name = dotName ∨ name = dotdotName) :
    Taken s.fs.disk name := by
  have hkept : Serving base s ∧ Taken s.fs.disk name := by
    apply Reachable.invariant (fun s ↦ Serving base s ∧ Taken s.fs.disk name) _ _ h
    · intro s hs
      rcases hs.serving hpos hfew with ⟨hserving, disk', hformatted, hdisk⟩
      refine ⟨hserving, ?_⟩
      unfold Taken
      rw [hdisk, hformatted.visited_eq]
      rcases hname with rfl | rfl
      · exact ⟨dirEntry 2 dotName, by simp, by decide⟩
      · exact ⟨dirEntry 2 dotdotName, by simp, by decide⟩
    · intro s c s' hs hknows hcall
      exact ⟨hs.1.call hknows hcall, hs.2.mono (hs.1.call_visited hknows hcall)⟩
  exact hkept.2

-- What a lookup answers to `cd`.
theorem cd_lookup {p : Program} {fs : Ext2Filesystem} {name : List UInt8} {r : LookupResult}
    (hfs : p.currentFs = .ok fs)
    (hlookup : ext2Lookup fs p.shell.currentDir.pdata.node name none = .ok r) (stack : StackInode) :
    p.filesystem p.shell.setBottom.currentDir.pdata.fs >>= (fun fs ↦
        cdLookup fs stack none p.shell.setBottom.currentDir name) =
      .ok ⟨r.status, ext2EntryToShellEntry r.fs stack p.shell.currentDir.pdata, none⟩ := by
  change p.currentFs >>= _ = _
  rw [hfs, ok_bind]
  unfold cdLookup fsLookup
  change (ext2Lookup fs p.shell.currentDir.pdata.node name none >>= _) >>= _ = _
  rw [hlookup]
  rfl

theorem shellCmdFormat_formatted {p : Program} {disk : DiskOperations}
    (hformat : ext2Format p.disk = .ok (ext2Success, disk)) :
    p.shellCmdFormat = .ok (0, { p with disk := disk }) := by
  unfold shellCmdFormat
  rw [hformat]
  rfl

theorem shellCmdMount_read {p : Program} {fs : Ext2Filesystem} {root : Ext2Node}
    (hread : ext2ReadSuperblock p.disk = .ok (some (fs, root))) (stack : StackInode) :
    p.shellCmdMount stack = .ok (0, { p with
      spb := some fs.spb
      shell := (Ext2Fs.shellCmdMount p.shell true
        (ext2EntryToShellEntry fs stack ⟨none, root⟩)).2 }) := by
  unfold shellCmdMount
  rw [hread]
  rfl

-- In the root a name that is found is refused.
theorem shellCmdCd_found {p : Program} {fs : Ext2Filesystem} {name : List UInt8} {r : LookupResult}
    (htop : p.shell.pathTop = 0) (hdot : name ≠ dotName) (hfs : p.currentFs = .ok fs)
    (hlookup : ext2Lookup fs p.shell.currentDir.pdata.node name none = .ok r)
    (hstatus : r.status = some ext2Success) (stack : StackInode) :
    p.shellCmdCd stack [name] = .ok (-1, { p with
      shell := { p.shell.setBottom with
        currentDir := ext2EntryToShellEntry r.fs stack p.shell.currentDir.pdata } }) := by
  have hup : ¬ (name = dotdotName ∧ 0 < p.shell.setBottom.pathTop) := by
    rw [show p.shell.setBottom.pathTop = 0 from htop]
    exact fun hpos ↦ absurd hpos.2 (Nat.lt_irrefl 0)
  unfold shellCmdCd Ext2Fs.shellCmdCd
  simp only [if_neg hdot, if_neg hup, cd_lookup hfs hlookup, ok_bind, hstatus, determinate_some,
    if_true]
  rfl

-- What the lookup has found is not removed.
theorem shellCmdRm_lookup {p : Program} {fs : Ext2Filesystem} {name : List UInt8} {r : LookupResult}
    (hfs : p.currentFs = .ok fs)
    (hlookup : ext2Lookup fs p.shell.currentDir.pdata.node name none = .ok r) :
    p.shellCmdRm [name] = .ok (0, p.keep r.fs) := by
  have hremove : fsRemove fs p.shell.currentDir name = .ok (0, r.fs) := by
    unfold fsRemove
    change ext2Lookup fs p.shell.currentDir.pdata.node name none >>= _ = _
    rw [hlookup, ok_bind]
    rfl
  unfold shellCmdRm
  simp only [forEach_cons, forEach_nil, hfs, hremove, ok_bind]
  rfl

theorem shellCmdMkdir_made {p : Program} {fs fs' : Ext2Filesystem} {name : List UInt8}
    {node : Ext2Node} (hfs : p.currentFs = .ok fs)
    (hmake : ext2Make .mkdir fs p.shell.currentDir.pdata.node name =
      .ok (ext2Success, some node, fs')) (stack : StackInode) :
    p.shellCmdMkdir stack [name] = .ok (0, p.keep fs') := by
  unfold shellCmdMkdir
  dsimp only
  rw [hfs, ok_bind]
  change fsMake .mkdir fs stack p.shell.currentDir name >>= _ = _
  rw [fsMake_of_make hmake, ok_bind]
  rfl

/-- Lines on a zeroed disk of one group, and the states behind them. -/
structure SampleRun (p₁ p₂ p₃ p₄ p₅ p₆ : Program) : Prop where
  formatted : ext2Format (zeroedDisk 262144) = .ok (ext2Success, p₁.disk)
  eq_start : p₁ = { start (zeroedDisk 262144) with disk := p₁.disk }
  format : (start (zeroedDisk 262144)).Handled "format" .format p₁
  mount : p₁.Handled "mount" .mount p₂
  mkdir : p₂.Handled "mkdir A" .mkdir p₃
  cd : p₃.Handled "cd .." .cd p₄
  rm : p₄.Handled "rm .." .rm p₄
  umount : p₄.Handled "umount" .umount p₅
  mountAgain : p₅.Handled "mount" .mount p₆
  mounted : p₄.shell.isMounted = true ∧ p₆.shell.isMounted = true
  finds : p₄.Finds dotdotName

theorem exists_sampleRun : ∃ p₁ p₂ p₃ p₄ p₅ p₆, SampleRun p₁ p₂ p₃ p₄ p₅ p₆ := by
  have hpos : 1 ≤ (zeroedDisk 262144).groups := by decide
  have hfew : (zeroedDisk 262144).groups ≤ 16 := by decide
  rcases zeroedDisk_make .mkdir with ⟨s, fs, hfresh, hmake, -⟩
  have hinuse : InUse (zeroedDisk 262144) s := .start hfresh
  have hinuse' : InUse (zeroedDisk 262144) _ := hinuse.call List.mem_cons_self
    (Session.call_of_make (c := ⟨.mkdir, s.root, [0x41]⟩) (formattedName_A .mkdir) hmake)
  have hserving := hinuse'.serving hpos hfew
  have hread := hinuse.ext2ReadSuperblock_eq hpos hfew
  have hread' := hinuse'.ext2ReadSuperblock_eq hpos hfew
  rcases hserving.live.rootAt.lookup_name hserving.root_inode (show dotdotName ≠ [] by decide)
    (by decide) (fun _ _ ↦ Or.inl (by decide)) none with ⟨r, hlookup, hsame, hstatus⟩
  rw [if_pos (taken_dots hinuse' hpos hfew (Or.inr rfl))] at hstatus
  dsimp only at hlookup hsame hread'
  let p₁ : Program := { start (zeroedDisk 262144) with disk := s.fs.disk }
  let p₂ : Program := { p₁ with
    spb := some s.fs.spb
    shell := (Ext2Fs.shellCmdMount p₁.shell true
      (ext2EntryToShellEntry s.fs ⟨0, 0⟩ ⟨none, s.root⟩)).2 }
  let p₃ : Program := p₂.keep fs
  let p₄ : Program := { p₃ with
    shell := { p₃.shell.setBottom with
      currentDir := ext2EntryToShellEntry r.fs ⟨0, 0⟩ p₃.shell.currentDir.pdata } }
  let p₅ : Program := p₄.shellCmdUmount.2
  let p₆ : Program := { p₅ with
    spb := some fs.spb
    shell := (Ext2Fs.shellCmdMount p₅.shell true
      (ext2EntryToShellEntry fs ⟨0, 0⟩ ⟨none, s.root⟩)).2 }
  have hformat := ext2Format_of_fresh hfresh hpos hfew
  have hformatted : (start (zeroedDisk 262144)).shellCmdFormat = .ok (0, p₁) :=
    shellCmdFormat_formatted hformat
  have hmounted : p₁.shellCmdMount ⟨0, 0⟩ = .ok (0, p₂) := @shellCmdMount_read p₁ _ _ hread ⟨0, 0⟩
  have hmade : p₂.shellCmdMkdir ⟨0, 0⟩ [[0x41]] = .ok (0, p₃) :=
    @shellCmdMkdir_made p₂ s.fs fs [0x41] _ rfl hmake ⟨0, 0⟩
  have hstayed : p₃.shellCmdCd ⟨0, 0⟩ [dotdotName] = .ok (-1, p₄) :=
    @shellCmdCd_found p₃ fs dotdotName r rfl (by decide) rfl hlookup hstatus ⟨0, 0⟩
  have hremoved : p₄.shellCmdRm [dotdotName] = .ok (0, p₄) := by
    rw [@shellCmdRm_lookup p₄ fs dotdotName r rfl hlookup, hsame]
    rfl
  have hagain : p₅.shellCmdMount ⟨0, 0⟩ = .ok (0, p₆) := @shellCmdMount_read p₅ _ _ hread' ⟨0, 0⟩
  refine ⟨p₁, p₂, p₃, p₄, p₅, p₆, ?_⟩
  constructor
  case formatted => exact hformat
  case eq_start => rfl
  case format =>
    exact @handled_of _ p₁ "format" .format 1 [some 0, none] (chars "format" ++ [0, 0]) [] 0 rfl
      rfl rfl hformatted
  case mount =>
    exact @handled_of _ p₂ "mount" .mount 1 [some 0, none] (chars "mount" ++ [0, 0]) [] 0 rfl rfl
      rfl hmounted
  case mkdir =>
    exact @handled_of _ p₃ "mkdir A" .mkdir 2 [some 0, some 6] (chars "mkdir" ++ [0, 0x41, 0, 0])
      [[0x41]] 0 rfl rfl rfl hmade
  case cd =>
    exact @handled_of _ p₄ "cd .." .cd 2 [some 0, some 3] (chars "cd" ++ [0] ++ dotdotName ++ [0, 0])
      [dotdotName] (-1) rfl rfl rfl hstayed
  case rm =>
    exact @handled_of _ p₄ "rm .." .rm 2 [some 0, some 3] (chars "rm" ++ [0] ++ dotdotName ++ [0, 0])
      [dotdotName] 0 rfl rfl rfl hremoved
  case umount =>
    exact @handled_of _ p₅ "umount" .umount 1 [some 0, none] (chars "umount" ++ [0, 0]) [] 0 rfl rfl
      rfl rfl
  case mountAgain =>
    exact @handled_of _ p₆ "mount" .mount 1 [some 0, none] (chars "mount" ++ [0, 0]) [] 0 rfl rfl
      rfl hagain
  case mounted => exact ⟨rfl, rfl⟩
  case finds => exact ⟨fs, r, rfl, hlookup, hstatus⟩

/-! ## The current directory -/

/-- The node of the root directory is the one that `ext2_read_superblock` makes. -/
def RootNumbered (p : Program) : Prop :=
  p.shell.isMounted = true → p.shell.rootDir.pdata.node.inodeNum = 2

theorem RootNumbered.effect {formats makes : Prop} {p p' : Program} (h : p.RootNumbered)
    (heffect : LineEffect formats makes p p') :
    p'.RootNumbered := by
  cases heffect with
  | idle hidle =>
    intro hmount
    rw [hidle.isMounted] at hmount
    rw [hidle.rootDir]
    exact h hmount
  | make _ hmount hmake =>
    rcases hmake with ⟨op, name, spb, result, node, fs', -, -, rfl⟩
    exact h
  | mount stack hfree hread => exact fun _ ↦ (ext2ReadSuperblock_ok hread).2
  | umount hmount => exact not_mounted_umount
  | format _ hfree _ => exact h

/-- Whatever the disk holds and whatever is typed, as long as every line has a defined outcome, `cd`
never leaves the root: nothing is ever put on the path, and while a file system is mounted the
current directory is its root, whose `fs` pointer is the one that the last mount has allocated. -/
theorem cd_stays_in_root (disk : DiskOperations) (p : Program) (h : Runs disk p) :
    p.shell.pathTop = 0 ∧ (p.shell.isMounted = true →
      p.shell.currentDir.pdata = p.shell.rootDir.pdata ∧
      p.shell.currentDir.pdata.node.inodeNum = 2 ∧
      ∃ spb, p.spb = some spb ∧ p.currentFs = .ok ⟨spb, p.disk⟩) := by
  have hroot := h.atRoot
  have hnumbered : p.AtRoot ∧ p.RootNumbered := by
    apply Reachable.invariant (fun p ↦ p.AtRoot ∧ p.RootNumbered) _ _ h
    · intro q hq
      rw [hq]
      exact ⟨start_atRoot disk, fun hmount ↦ absurd hmount Bool.false_ne_true⟩
    · intro q typed q' hq _ hline
      have heffect := hq.1.lineEffect hline
      exact ⟨hq.1.effect heffect, hq.2.effect heffect⟩
  refine ⟨hroot.pathTop, fun hmount ↦ ⟨hroot.currentDir hmount, ?_, hroot.currentFs_eq hmount⟩⟩
  rw [hroot.currentDir hmount]
  exact hnumbered.2 hmount

/-- After `cd ..` in the root. -/
theorem cd_stays_in_root_zeroedDisk : ∃ p p', Runs (zeroedDisk 262144) p ∧
    p.runLine (typedLine (chars "cd ..")) = .ok p' ∧ p'.shell.isMounted = true ∧
    p'.shell.currentDir.pdata = p'.shell.rootDir.pdata := by
  rcases exists_sampleRun with ⟨p₁, p₂, p₃, p₄, p₅, p₆, h⟩
  have hruns : Runs (zeroedDisk 262144) p₃ :=
    .call (.call (.call (.start rfl) trivial h.format.1) trivial h.mount.1) trivial h.mkdir.1
  exact ⟨p₃, p₄, hruns, h.cd.1, h.mounted.1,
    ((cd_stays_in_root (zeroedDisk 262144) p₄ (.call hruns trivial h.cd.1)).2 h.mounted.1).1⟩

/-! ## Commands that do not write -/

/-- On any disk, in any state: only `format`, `touch`, `mkdir`, `mkdirst` and `fill` write a sector.
What `rm`, `rmdir` and all other lines leave of the disk is the disk. -/
theorem only_writers_write (q p : Program)
    (h : Reachable runLine (fun p typed ↦ ∀ handler ∈ writers, ¬ p.Calls typed handler) (· = q) p) :
    p.disk = q.disk := by
  apply Reachable.invariant (fun p ↦ p.disk = q.disk) _ _ h
  · intro p hp
    rw [hp]
  · intro p typed p' hp hreads hline
    rw [← hp]
    rcases runLine_cases hline with rfl | ⟨handler, args, result, hcalls, hhandle⟩
    · rfl
    · exact handle_disk hhandle fun hwriter ↦ hreads handler hwriter hcalls

/-- `cd ..`, `rm ..` and `umount` in a root with a new directory. -/
theorem only_writers_write_rm : ∃ p₁ p₂ p₃ p₄ p₅ p₆, SampleRun p₁ p₂ p₃ p₄ p₅ p₆ ∧
    p₅.disk = p₃.disk := by
  rcases exists_sampleRun with ⟨p₁, p₂, p₃, p₄, p₅, p₆, h⟩
  exact ⟨p₁, p₂, p₃, p₄, p₅, p₆, h, only_writers_write p₃ p₅
    (.call (.call (.call (.start rfl) (h.cd.reads (by decide)) h.cd.1) (h.rm.reads (by decide))
      h.rm.1) (h.umount.reads (by decide)) h.umount.1)⟩

/-! ## The program and the session -/

/-- The program is where a session of the file system is. -/
structure Serves (p : Program) (s : Session) : Prop where
  disk : p.disk = s.fs.disk
  spb : p.shell.isMounted = true → p.spb = some s.fs.spb
  node : p.shell.isMounted = true → p.shell.currentDir.pdata.node = s.root

-- What `ext2_mkdir` and `ext2_create` do in the root is a call of the session.
theorem call_of_ext2Make {s : Session} {op : DirOp} {name : List UInt8} {result : Int}
    {node : Option Ext2Node} {fs' : Ext2Filesystem}
    (h : ext2Make op s.fs s.root name = .ok (result, node, fs')) :
    ∃ s', s.call ⟨op, s.root, name⟩ = .ok s' ∧ s'.fs = fs' ∧ s'.root = s.root := by
  rcases ext2Make_formatted h with ⟨formatted, hname⟩
  unfold Session.call
  simp only [hname, h, ok_bind]
  cases formatted with
  | none => exact ⟨_, rfl, rfl, rfl⟩
  | some formatted =>
    cases node with
    | none => exact ⟨_, rfl, rfl, rfl⟩
    | some node =>
      dsimp only
      split
      · exact ⟨_, rfl, rfl, rfl⟩
      · exact ⟨_, rfl, rfl, rfl⟩

/-- A program on a formatted disk, with the session that it follows and the disk as it was before
the last format. -/
structure Follows (p : Program) (base : DiskOperations) (s : Session) : Prop where
  groups_pos : 1 ≤ base.groups
  groups_few : base.groups ≤ 16
  inUse : InUse base s
  serves : p.Serves s

section Follows

variable {base : DiskOperations} {s : Session} {p p' : Program}

theorem Follows.sectors_eq (h : p.Follows base s) :
    p.disk.numberOfSectors = base.numberOfSectors := by
  rw [h.serves.disk]
  exact (h.inUse.serving h.groups_pos h.groups_few).sectors_eq

theorem Follows.disk_pos (h : p.Follows base s) : 1 ≤ p.disk.groups := by
  rw [groups_congr h.sectors_eq]
  exact h.groups_pos

theorem Follows.disk_few (h : p.Follows base s) : p.disk.groups ≤ 16 := by
  rw [groups_congr h.sectors_eq]
  exact h.groups_few

-- A line is no call, a call, or a format, behind which a session begins.
theorem Follows.effect {formats makes : Prop} (h : p.Follows base s)
    (heffect : LineEffect formats makes p p') :
    (∃ s', p'.Follows base s' ∧ (s' = s ∨ (makes ∧ ∃ c, s.Knows c ∧ s.call c = .ok s'))) ∨
      (formats ∧ ∃ s', p'.Follows p.disk s' ∧ s'.made = [] ∧
        p.disk.numberOfSectors = base.numberOfSectors) := by
  have hdisk := h.serves.disk
  cases heffect with
  | idle hidle =>
    refine Or.inl ⟨s, ⟨h.groups_pos, h.groups_few, h.inUse, ?_⟩, Or.inl rfl⟩
    constructor
    case disk => rw [hidle.disk, hdisk]
    case spb =>
      intro hmount
      rw [hidle.isMounted] at hmount
      rw [hidle.spb, h.serves.spb hmount]
    case node =>
      intro hmount
      rw [hidle.isMounted] at hmount
      rw [hidle.currentDir, h.serves.node hmount]
  | make hmakes hmount hmake =>
    rcases hmake with ⟨op, name, spb, result, node, fs', hspb, hmake, rfl⟩
    rw [h.serves.spb hmount, Option.some.injEq] at hspb
    rw [h.serves.node hmount, hdisk, ← hspb] at hmake
    rcases call_of_ext2Make hmake with ⟨s', hcall, hfs, hroot⟩
    have hknows : s.Knows ⟨op, s.root, name⟩ := List.mem_cons_self
    refine Or.inl ⟨s', ⟨h.groups_pos, h.groups_few, h.inUse.call hknows hcall, ?_⟩,
      Or.inr ⟨hmakes, _, hknows, hcall⟩⟩
    constructor
    case disk => rw [hfs, keep]
    case spb =>
      intro _
      rw [hfs, keep]
    case node =>
      intro _
      rw [hroot]
      exact h.serves.node hmount
  | mount stack hfree hread =>
    rw [hdisk, h.inUse.ext2ReadSuperblock_eq h.groups_pos h.groups_few] at hread
    cases hread
    exact Or.inl ⟨s, ⟨h.groups_pos, h.groups_few, h.inUse, hdisk, fun _ ↦ rfl, fun _ ↦ rfl⟩,
      Or.inl rfl⟩
  | umount hmount =>
    exact Or.inl ⟨s, ⟨h.groups_pos, h.groups_few, h.inUse, hdisk, not_mounted_umount,
      not_mounted_umount⟩, Or.inl rfl⟩
  | format hformats hfree hformat =>
    rcases exists_fresh h.disk_pos h.disk_few hformat with ⟨s', hfresh, hsame⟩
    refine Or.inr ⟨hformats, s', ⟨h.disk_pos, h.disk_few, .start hfresh, hsame.symm, ?_, ?_⟩,
      hfresh.2, h.sectors_eq⟩
    · intro hmount
      exact absurd (hfree.symm.trans hmount) Bool.false_ne_true
    · intro hmount
      exact absurd (hfree.symm.trans hmount) Bool.false_ne_true

-- Whatever is typed, the program goes on following sessions.
theorem Follows.next (h : p.Follows base s) (hroot : p.AtRoot) {typed : TypedLine}
    (hrun : p.runLine typed = .ok p') : p'.AtRoot ∧ ∃ base' s', p'.Follows base' s' ∧
      base'.numberOfSectors = base.numberOfSectors := by
  have heffect := hroot.lineEffect hrun
  refine ⟨hroot.effect heffect, ?_⟩
  rcases h.effect heffect with ⟨s', hfollows, -⟩ | ⟨-, s', hfollows, -, hsectors⟩
  · exact ⟨base, s', hfollows, rfl⟩
  · exact ⟨p.disk, s', hfollows, hsectors⟩

end Follows

section Simulation

variable {disk disk' : DiskOperations} {q p : Program} {result : Int} (hq : Runs disk q)
  (hfree : q.shell.isMounted = false) (hpos : 1 ≤ q.disk.groups) (hfew : q.disk.groups ≤ 16)
  (hformat : ext2Format q.disk = .ok (result, disk'))

include hq hfree hpos hfew hformat

theorem exists_follows_fresh : AtRoot { q with disk := disk' } ∧
    ∃ s, Follows { q with disk := disk' } q.disk s ∧ s.made = [] := by
  rcases exists_fresh hpos hfew hformat with ⟨s, hfresh, hsame⟩
  have hroot := hq.atRoot
  refine ⟨⟨hroot.pathTop, hroot.mounted, hroot.rootDir, hroot.currentDir⟩, s,
    ⟨hpos, hfew, .start hfresh, hsame.symm, ?_, ?_⟩, hfresh.2⟩
  · exact fun hmount ↦ absurd (hfree.symm.trans hmount) Bool.false_ne_true
  · exact fun hmount ↦ absurd (hfree.symm.trans hmount) Bool.false_ne_true

variable (hrun : From { q with disk := disk' } p)

include hrun

theorem exists_follows : p.AtRoot ∧
    ∃ base s, p.Follows base s ∧ base.numberOfSectors = q.disk.numberOfSectors := by
  apply Reachable.invariant _ _ _ hrun
  · intro p₀ hp₀
    rw [hp₀]
    rcases exists_follows_fresh hq hfree hpos hfew hformat with ⟨hroot, s, hfollows, -⟩
    exact ⟨hroot, q.disk, s, hfollows, rfl⟩
  · rintro p typed p' ⟨hroot, base, s, hfollows, hsectors⟩ - hline
    rcases hfollows.next hroot hline with ⟨hroot', base', s', hfollows', hsame⟩
    exact ⟨hroot', base', s', hfollows', hsame.trans hsectors⟩

end Simulation

-- A scan that finds a name has looked at visited entries only.
theorem scanEntries_found_mono {name : List UInt8} (hne : name ≠ [])
    {slots slots' : List Ext2DirEntry} (hmore : visited slots <+: visited slots') {k j : Nat}
    (h : scanEntries name slots k = .ok (.found j)) :
    scanEntries name slots' k = .ok (.found j) := by
  induction slots generalizing slots' k with
  | nil => cases h
  | cons entry slots ih =>
    by_cases hentry : entry.isNoMore
    · rw [scanEntries_cons_noMore hentry, if_neg hne] at h
      cases h
    rw [visited_cons, if_neg hentry] at hmore
    cases slots' with
    | nil => exact absurd (List.prefix_nil.mp hmore) (List.cons_ne_nil _ _)
    | cons entry' slots' =>
      rw [visited_cons] at hmore
      split at hmore
      · exact absurd (List.prefix_nil.mp hmore) (List.cons_ne_nil _ _)
      · rcases List.cons_prefix_cons.mp hmore with ⟨rfl, hrest⟩
        rw [scanEntries_cons hentry hne] at h ⊢
        rcases bind_eq_ok.mp h with ⟨b, hequals, h⟩
        rw [hequals, ok_bind]
        cases b with
        | true => exact h
        | false => exact ih hrest h

theorem Follows.currentFs_eq {base : DiskOperations} {s : Session} {p : Program}
    (h : p.Follows base s) (hroot : p.AtRoot) (hmount : p.shell.isMounted = true) :
    p.currentFs = .ok s.fs := by
  rcases hroot.currentFs_eq hmount with ⟨spb, hspb, hfs⟩
  rw [h.serves.spb hmount, Option.some.injEq] at hspb
  rw [hfs, ← hspb, h.serves.disk]

theorem Follows.finds_iff {base : DiskOperations} {s : Session} {p : Program}
    (h : p.Follows base s) (hroot : p.AtRoot) (hmount : p.shell.isMounted = true)
    (name : List UInt8) :
    p.Finds name ↔ ∃ j, scanEntries name (rootSlots s.fs.disk) 0 = .ok (.found j) := by
  have hserving := h.inUse.serving h.groups_pos h.groups_few
  have hlookup := hserving.live.rootAt.ext2Lookup_eq hserving.root_inode name none
  unfold Finds
  rw [h.serves.node hmount]
  constructor
  · rintro ⟨fs, r, hfs, hrun, hstatus⟩
    rw [h.currentFs_eq hroot hmount, Except.ok.injEq] at hfs
    rw [← hfs, hlookup] at hrun
    rcases bind_eq_ok.mp hrun with ⟨scan, hscan, hrun⟩
    cases hrun
    cases scan with
    | found j => exact ⟨j, hscan⟩
    | noMore =>
      change some ext2Error = some ext2Success at hstatus
      exact absurd hstatus (by decide)
    | next => cases hstatus
  · rintro ⟨j, hscan⟩
    rw [hscan, ok_bind] at hlookup
    exact ⟨s.fs, _, h.currentFs_eq hroot hmount, hlookup, rfl⟩

section Persistence

variable {disk disk' : DiskOperations} {q p p' : Program} {result : Int} (hq : Runs disk q)
  (hfree : q.shell.isMounted = false) (hpos : 1 ≤ q.disk.groups) (hfew : q.disk.groups ≤ 16)
  (hformat : ext2Format q.disk = .ok (result, disk')) (hrun : From { q with disk := disk' } p)

include hq hfree hpos hfew hformat hrun

/-- A name that a lookup finds is found until the next `format`: in particular no `rm` and no
`rmdir` removes it, and no `umount` and `mount` loses it. -/
theorem names_persist {name : List UInt8} (hne : name ≠ []) (hfinds : p.Finds name)
    (hlater : Reachable runLine (fun p typed ↦ ¬ p.Calls typed .format) (· = p) p')
    (hmount : p'.shell.isMounted = true) : p'.Finds name := by
  have hmounted : p.shell.isMounted = true := by
    rcases hfinds with ⟨fs, -, hfs, -⟩
    have hspb := (filesystem_ok hfs).1
    have hroot := (exists_follows hq hfree hpos hfew hformat hrun).1
    rw [← hroot.mounted, hspb]
    rfl
  have hkept : p'.AtRoot ∧ ∃ base s, p'.Follows base s ∧
      ∃ j, scanEntries name (rootSlots s.fs.disk) 0 = .ok (.found j) := by
    apply Reachable.invariant _ _ _ hlater
    · intro p₁ hp₁
      rcases exists_follows hq hfree hpos hfew hformat hrun with ⟨hroot, base, s, hfollows, -⟩
      rw [hp₁]
      exact ⟨hroot, base, s, hfollows, (hfollows.finds_iff hroot hmounted name).mp hfinds⟩
    · rintro p₁ typed p₂ ⟨hroot, base, s, hfollows, j, hscan⟩ hkeeps hline
      have heffect := hroot.lineEffect hline
      refine ⟨hroot.effect heffect, ?_⟩
      rcases hfollows.effect heffect with ⟨s', hfollows', hs'⟩ | ⟨hformats, -⟩
      · refine ⟨base, s', hfollows', j, ?_⟩
        rcases hs' with rfl | ⟨-, c, hknows, hcall⟩
        · exact hscan
        · have hserving := hfollows.inUse.serving hfollows.groups_pos hfollows.groups_few
          exact scanEntries_found_mono hne (hserving.call_visited hknows hcall) hscan
      · exact absurd hformats hkeeps
  rcases hkept with ⟨hroot, base, s, hfollows, hfound⟩
  exact (hfollows.finds_iff hroot hmount name).mpr hfound

end Persistence

/-- `..` is found after `rm ..`, `umount` and `mount`. -/
theorem names_persist_rm : ∃ p₁ p₂ p₃ p₄ p₅ p₆, SampleRun p₁ p₂ p₃ p₄ p₅ p₆ ∧
    p₆.Finds dotdotName := by
  rcases exists_sampleRun with ⟨p₁, p₂, p₃, p₄, p₅, p₆, h⟩
  have hruns : From p₁ p₄ := .call (.call (.call (.start rfl) trivial h.mount.1) trivial h.mkdir.1)
    trivial h.cd.1
  refine ⟨p₁, p₂, p₃, p₄, p₅, p₆, h, @names_persist (zeroedDisk 262144) p₁.disk
    (start (zeroedDisk 262144)) p₄ p₆ ext2Success (.start rfl) rfl (by decide) (by decide)
    h.formatted (h.eq_start ▸ hruns) dotdotName (by decide) h.finds ?_ h.mounted.2⟩
  exact .call (.call (.call (.start rfl) (h.rm.2 .format (by decide)) h.rm.1)
    (h.umount.2 .format (by decide)) h.umount.1) (h.mountAgain.2 .format (by decide)) h.mountAgain.1

end Program

end Ext2Fs
