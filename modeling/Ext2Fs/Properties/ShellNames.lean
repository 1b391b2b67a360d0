import Ext2Fs.Spec.DirWrites
import Ext2Fs.Spec.Session
import Ext2Fs.Model.Ext2Shell
import Ext2Fs.Properties.ShellPath

/-!
# Names typed at the shell

A name given to `mkdir` or `touch`, and the same name given to the lookup and to `cd`.
-/

open Reasoning

namespace Ext2Fs

/-! ## The property -/

/-- `fs_mkdir` or `fs_create`. -/
def fsMake : DirOp → Ext2Filesystem → StackInode → ShellEntry → List UInt8 →
    Exec (Int × Option ShellEntry × Ext2Filesystem)
  | .mkdir => fsMkdir
  | .create => fsCreate

/-- The name leads nowhere in the directory. -/
def Absent (fs : Ext2Filesystem) (parent : ShellEntry) (name : List UInt8) : Prop :=
  ∀ r, ext2Lookup fs parent.pdata.node name none = .ok r → r.status ≠ some ext2Success

/-- What a user expects of the name of a new child, with the inode number `inodeNum`. -/
structure FoundAgain (op : DirOp) (fs : Ext2Filesystem) (parent : ShellEntry) (name : List UInt8)
    (inodeNum : UInt32) : Prop where
  lookup : ∀ stack entry, ∃ answer fs', fsLookup fs stack parent entry name = .ok (answer, fs') ∧
    answer.result = some ext2Success ∧ answer.parent = parent ∧
    ∃ found, answer.entry = some found ∧ found.pdata.node.entry.inode = inodeNum ∧
      (found.isDirectory ≠ 0 ↔ op = .mkdir)
  enters : op = .mkdir → ∀ stack newEntry st, st.currentDir = parent → st.pathTop < 255 →
    ∃ r st', shellCmdCd (cdLookup fs stack newEntry) st [name] = .ok (r, st') ∧
      st'.currentDir.pdata.node.entry.inode = inodeNum
  stays : ∀ stack newEntry st other, st.currentDir = parent → LooksUp st [other] →
    Absent fs parent other →
    ∃ r st', shellCmdCd (cdLookup fs stack newEntry) st [other] = .ok (r, st') ∧
      st'.currentDir = st.currentDir ∧ st'.pathTop = st.pathTop ∧
      ∀ i, i ≤ st.pathTop → st'.entryAt i = st.entryAt i

/-! ## What the code does -/

variable {fs fs' : Ext2Filesystem} {stack : StackInode} {parent : ShellEntry} {name : List UInt8}

-- `fs_lookup` never writes the entry it is asked for.
theorem fsLookup_ok {entry : Option ShellEntry} {answer : LookupAnswer}
    (h : fsLookup fs stack parent entry name = .ok (answer, fs')) :
    fs' = fs ∧ answer.entry = entry ∧
      answer.parent = ext2EntryToShellEntry fs stack parent.pdata ∧
      ∃ r, ext2Lookup fs parent.pdata.node name none = .ok r ∧ answer.result = r.status := by
  unfold fsLookup shellEntryToExt2Entry at h
  rcases bind_eq_ok.mp h with ⟨r, hlookup, h⟩
  have hfs := (ext2Lookup_ok hlookup).1
  simp only [pure_eq_ok, Except.ok.injEq, Prod.mk.injEq, hfs] at h
  rcases h with ⟨rfl, rfl⟩
  exact ⟨rfl, rfl, rfl, r, hlookup, rfl⟩

theorem cdLookup_ok {newEntry : Option ShellEntry} {answer : LookupAnswer}
    (h : cdLookup fs stack newEntry parent name = .ok answer) :
    answer.entry = newEntry ∧ answer.parent = ext2EntryToShellEntry fs stack parent.pdata ∧
      ∃ r, ext2Lookup fs parent.pdata.node name none = .ok r ∧ answer.result = r.status := by
  unfold cdLookup at h
  rcases bind_eq_ok.mp h with ⟨⟨answer', fs'⟩, hlookup, h⟩
  simp only [pure_eq_ok, Except.ok.injEq] at h
  subst h
  exact (fsLookup_ok hlookup).2

-- `cd` takes a found name for a missing one, and looks at a variable that nothing has filled when
-- the name is missing.
theorem shellCmdCd_cdLookup {st st' : ShellState} {r : Int} (hargs : LooksUp st [name])
    (h : shellCmdCd (cdLookup fs stack none) st [name] = .ok (r, st')) :
    r = -1 ∧ ¬ Absent fs st.currentDir name ∧
      st' = { st.setBottom with
        currentDir := ext2EntryToShellEntry fs stack st.currentDir.pdata } := by
  rcases hargs with ⟨arg, harg, hdot, hup⟩
  rw [List.cons.injEq] at harg
  rcases harg with ⟨rfl, -⟩
  have hcond : ¬ (name = dotdotName ∧ 0 < st.setBottom.pathTop) := hup
  unfold shellCmdCd at h
  simp only [if_neg hdot, if_neg hcond] at h
  rcases bind_eq_ok.mp h with ⟨answer, hanswer, h⟩
  rcases cdLookup_ok hanswer with ⟨hentry, hparent, r', hlookup, hresult⟩
  rcases bind_eq_ok.mp h with ⟨result, hdet, h⟩
  by_cases hsuccess : result = ext2Success
  · rw [if_pos hsuccess] at h
    simp only [pure_eq_ok, Except.ok.injEq, Prod.mk.injEq] at h
    rcases h with ⟨rfl, rfl⟩
    refine ⟨rfl, ?_, ?_⟩
    · intro habsent
      apply habsent r' hlookup
      rw [← hresult, determinate_eq_ok.mp hdet, hsuccess]
    · rw [hparent]
      rfl
  · rw [if_neg hsuccess, hentry] at h
    cases h

-- The list that `is_exist` searches stays empty.
theorem isExist_eq : isExist parent name = ext2Success := rfl

theorem fsMake_of_make {op : DirOp} {node : Ext2Node}
    (h : ext2Make op fs parent.pdata.node name = .ok (ext2Success, some node, fs')) :
    fsMake op fs stack parent name = .ok (ext2Success,
      some (ext2EntryToShellEntry fs' stack ⟨parent.pdata.fs, node⟩), fs') := by
  cases op with
  | mkdir =>
    change ext2Mkdir fs parent.pdata.node name = _ at h
    change fsMkdir fs stack parent name = _
    unfold fsMkdir shellEntryToExt2Entry
    rw [isExist_eq, if_neg (by decide)]
    simp only [h, ok_bind]
    rfl
  | create =>
    change ext2Create fs parent.pdata.node name = _ at h
    change fsCreate fs stack parent name = _
    unfold fsCreate shellEntryToExt2Entry
    simp only [h, ok_bind]
    rfl

/-! ## The condition -/

theorem not_foundAgain (op : DirOp) (fs : Ext2Filesystem) (parent : ShellEntry) (name : List UInt8)
    (inodeNum : UInt32) : ¬ FoundAgain op fs parent name inodeNum := by
  intro h
  rcases h.lookup ⟨0, 0⟩ none with ⟨answer, fs', hlookup, -, -, found, hfound, -⟩
  rw [(fsLookup_ok hlookup).2.1] at hfound
  cases hfound

/-- No name that was given to a new child is found again. -/
theorem foundAgain_iff (op : DirOp) (fs : Ext2Filesystem) (stack : StackInode) (parent : ShellEntry)
    (name : List UInt8) :
    (∀ child fs', fsMake op fs stack parent name = .ok (ext2Success, some child, fs') →
      FoundAgain op fs' parent name child.pdata.node.entry.inode) ↔
    ∀ child fs', fsMake op fs stack parent name ≠ .ok (ext2Success, some child, fs') := by
  constructor
  · intro h child fs' hmake
    exact not_foundAgain _ _ _ _ _ (h child fs' hmake)
  · intro h child fs' hmake
    exact absurd hmake (h child fs')

/-- `mkdir A` in the root of a fresh file system. -/
theorem not_foundAgain_A : ¬ ∀ (s : Session) (child : ShellEntry) (fs' : Ext2Filesystem),
    s.Fresh (zeroedDisk 262144) →
    fsMkdir s.fs ⟨0, 0⟩ (ext2EntryToShellEntry s.fs ⟨0, 0⟩ ⟨some 0, s.root⟩) [0x41] =
      .ok (ext2Success, some child, fs') →
    FoundAgain .mkdir fs' (ext2EntryToShellEntry s.fs ⟨0, 0⟩ ⟨some 0, s.root⟩) [0x41]
      child.pdata.node.entry.inode := by
  intro hall
  rcases zeroedDisk_make .mkdir with ⟨s, fs', hfresh, hmake, -⟩
  let parent := ext2EntryToShellEntry s.fs ⟨0, 0⟩ ⟨some 0, s.root⟩
  have hmkdir := @fsMake_of_make s.fs fs' ⟨0, 0⟩ parent [0x41] .mkdir _ hmake
  exact not_foundAgain _ _ _ _ _ (hall s _ fs' hfresh hmkdir)

end Ext2Fs
