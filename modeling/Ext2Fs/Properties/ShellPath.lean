import Ext2Fs.Reasoning.Runs
import Ext2Fs.Model.Shell

/-!
# The path of the shell

`cd` keeps a stack of the directories on the way from the root, which `mount` and `umount` never
see.
-/

open Reasoning

namespace Ext2Fs

variable {st st' : ShellState}

/-- Entry `i` of the path; every `cd` stores the root at the bottom before it looks there. -/
def ShellState.entryAt (st : ShellState) (i : Nat) : Option ShellEntry :=
  if i = 0 then some st.rootDir else st.path[i]?

/-- The path is within its array, leads to the current directory, and holds only entries of the
file system that the latest `fs_mount` allocated. -/
structure PathOk (st : ShellState) : Prop where
  top : st.pathTop ≤ 255
  current : st.entryAt st.pathTop = some st.currentDir
  alive : st.pdata.isSome
  belongs : ∀ i, i ≤ st.pathTop → ∃ entry, st.entryAt i = some entry ∧ entry.pdata.fs = st.pdata

/-! ## The condition -/

/-- `cd` calls the lookup. -/
def LooksUp (st : ShellState) (args : List (List UInt8)) : Prop :=
  ∃ arg, args = [arg] ∧ arg ≠ dotName ∧ ¬ (arg = dotdotName ∧ 0 < st.pathTop)

/-- `cd` takes the answer for a directory to enter. -/
def Enters (result : Int) (newEntry : ShellEntry) : Prop :=
  result ≠ ext2Success ∧ newEntry.isDirectory ≠ 0

instance (result : Int) (newEntry : ShellEntry) : Decidable (Enters result newEntry) :=
  inferInstanceAs (Decidable (_ ∧ _))

/-- The lookup answers with entries of the mounted file system, and leaves its parent argument as
it was when the directory is not entered. -/
def Answered (st : ShellState) : ShellCommand → Prop
  | .cd args result parent newEntry => st.isMounted → LooksUp st args →
    (Enters result newEntry → newEntry.pdata.fs = st.pdata) ∧
      (¬ Enters result newEntry → parent = st.currentDir)
  | _ => True

/-- The path is empty at a mount, and not full when a directory is entered. -/
def HasRoom (st : ShellState) : ShellCommand → Prop
  | .mount readable _ => ¬ st.isMounted → readable → st.pathTop = 0
  | .umount => True
  | .cd args result _ newEntry => st.isMounted → LooksUp st args → Enters result newEntry →
    st.pathTop < 255

/-- The shell path survives the command. -/
def Orderly (st : ShellState) (command : ShellCommand) : Prop :=
  Answered st command ∧ HasRoom st command

/-- The command is carried out, and the path is as it should be if a file system is mounted then. -/
def KeepsPath (st : ShellState) (command : ShellCommand) : Prop :=
  ∃ st', doCommand st command = .ok st' ∧ (st'.isMounted → PathOk st')

/-! ## cd -/

@[simp] theorem getElem?_setBottom (i : Nat) : st.setBottom.path[i]? = st.entryAt i := by
  unfold ShellState.setBottom ShellState.entryAt
  rw [Vector.getElem?_setIfInBounds]
  by_cases hi : i = 0
  · simp [hi]
  · rw [if_neg (Ne.symm hi), if_neg hi]

@[simp] theorem entryAt_setBottom (i : Nat) : st.setBottom.entryAt i = st.entryAt i := by
  by_cases hi : i = 0
  · rw [ShellState.entryAt, if_pos hi, ShellState.entryAt, if_pos hi]
    rfl
  · rw [ShellState.entryAt, if_neg hi, getElem?_setBottom]

section Cd

variable {lookup : ShellEntry → List UInt8 → Exec LookupAnswer} {args : List (List UInt8)}
  {result : Int} {parent newEntry : ShellEntry}

-- `g_currentDir = path[k]` with the bottom in place.
theorem enter_setBottom {k : Nat} {entry : ShellEntry} (h : st.entryAt k = some entry) :
    { st.setBottom with pathTop := k }.enter =
      .ok { st.setBottom with pathTop := k, currentDir := entry } := by
  have hread : st.setBottom.path[k]? = some entry := by
    rw [getElem?_setBottom]
    exact h
  unfold ShellState.enter
  simp only [hread]

-- Without a lookup, `cd` stays or goes up.
theorem shellCmdCd_up (h : PathOk st) (hargs : ¬ LooksUp st args) :
    ∃ k entry, k ≤ st.pathTop ∧ st.entryAt k = some entry ∧
      shellCmdCd lookup st args =
        .ok (0, { st.setBottom with pathTop := k, currentDir := entry }) := by
  have hstay : st.setBottom =
      { st.setBottom with pathTop := st.pathTop, currentDir := st.currentDir } := rfl
  unfold shellCmdCd
  match args with
  | [] =>
    refine ⟨0, st.rootDir, Nat.zero_le _, rfl, ?_⟩
    simp only [enter_setBottom (show st.entryAt 0 = some st.rootDir from rfl), ok_bind, pure_eq_ok]
  | [arg] =>
    by_cases hdot : arg = dotName
    · refine ⟨st.pathTop, st.currentDir, Nat.le_refl _, h.current, ?_⟩
      simp only [if_pos hdot]
      rfl
    · by_cases hup : arg = dotdotName ∧ 0 < st.pathTop
      · rcases h.belongs (st.pathTop - 1) (Nat.sub_le _ _) with ⟨entry, hentry, -⟩
        refine ⟨st.pathTop - 1, entry, Nat.sub_le _ _, hentry, ?_⟩
        have hcond : arg = dotdotName ∧ 0 < st.setBottom.pathTop := hup
        have henter := enter_setBottom hentry
        simp only [if_neg hdot, if_pos hcond]
        change { st.setBottom with pathTop := st.pathTop - 1 }.enter >>= _ = _
        rw [henter]
        rfl
      · exact absurd ⟨arg, rfl, hdot, hup⟩ hargs
  | _ :: _ :: _ =>
    refine ⟨st.pathTop, st.currentDir, Nat.le_refl _, h.current, ?_⟩
    rfl

section Lookup

variable (hargs : LooksUp st args)

include hargs

-- What `cd` does with the answer of the lookup.
theorem shellCmdCd_answer :
    shellCmdCd (fun _ _ ↦ .ok ⟨some result, parent, some newEntry⟩) st args =
      if Enters result newEntry then
        { st.setBottom with currentDir := parent }.push newEntry >>= fun st ↦
          st.enter >>= fun st ↦ .ok (0, st)
      else .ok (-1, { st.setBottom with currentDir := parent }) := by
  rcases hargs with ⟨arg, rfl, hdot, hup⟩
  have hcond : ¬ (arg = dotdotName ∧ 0 < st.setBottom.pathTop) := hup
  unfold shellCmdCd
  simp only [if_neg hdot, if_neg hcond, ok_bind, determinate_some]
  by_cases hresult : result = ext2Success
  · rw [if_pos hresult, if_neg (fun h ↦ h.1 hresult)]
    rfl
  · rw [if_neg hresult]
    by_cases hdir : newEntry.isDirectory = 0
    · rw [if_pos hdir, if_neg (fun h ↦ h.2 hdir)]
      rfl
    · rw [if_neg hdir, if_pos ⟨hresult, hdir⟩]
      rfl

theorem shellCmdCd_enters (henters : Enters result newEntry) (hlt : st.pathTop + 1 < 256) :
    shellCmdCd (fun _ _ ↦ .ok ⟨some result, parent, some newEntry⟩) st args =
      .ok (0, { st.setBottom with
        path := st.setBottom.path.set (st.pathTop + 1) newEntry
        pathTop := st.pathTop + 1
        currentDir := newEntry }) := by
  have hpush : { st.setBottom with currentDir := parent }.push newEntry =
      .ok { st.setBottom with
        path := st.setBottom.path.set (st.pathTop + 1) newEntry
        pathTop := st.pathTop + 1
        currentDir := parent } := dif_pos hlt
  rw [shellCmdCd_answer hargs, if_pos henters, hpush, ok_bind]
  unfold ShellState.enter
  simp only [Vector.getElem?_set_self]
  rfl

theorem shellCmdCd_overflow (henters : Enters result newEntry) (htop : 255 ≤ st.pathTop) :
    shellCmdCd (fun _ _ ↦ .ok ⟨some result, parent, some newEntry⟩) st args =
      .error .outOfBounds := by
  have hpush : { st.setBottom with currentDir := parent }.push newEntry = .error .outOfBounds :=
    dif_neg (show ¬ st.pathTop + 1 < 256 by omega)
  rw [shellCmdCd_answer hargs, if_pos henters, hpush]
  rfl

end Lookup

end Cd

/-! ## One command -/

/-- What keeps the path as it should be across a remount: stale entries are never taken for those
of a file system that is allocated later. -/
structure PathInv (st : ShellState) : Prop where
  top : st.pathTop ≤ 255
  ok : st.isMounted → PathOk st
  pdata : ∀ k, st.pdata = some k → k < st.allocations
  path : ∀ i entry, 0 < i → i ≤ st.pathTop → st.path[i]? = some entry →
    ∀ k, entry.pdata.fs = some k → k < st.allocations

theorem checkConditions_condMount {b : Bool} : checkConditions b condMount = 0 ↔ b = true := by
  cases b <;> decide

theorem checkConditions_condUmount {b : Bool} : checkConditions b condUmount = 0 ↔ b = false := by
  cases b <;> decide

theorem doCommand_mount (hmount : st.isMounted = false) (readable : Bool) (root : ShellEntry) :
    doCommand st (.mount readable root) = .ok (shellCmdMount st readable root).2 := by
  unfold doCommand
  exact if_pos (checkConditions_condUmount.mpr hmount)

theorem doCommand_umount (hmount : st.isMounted = true) :
    doCommand st .umount = .ok (shellCmdUmount st).2 := by
  unfold doCommand
  exact if_pos (checkConditions_condMount.mpr hmount)

theorem doCommand_cd (hmount : st.isMounted = true) {args : List (List UInt8)} {result : Int}
    {parent newEntry : ShellEntry} :
    doCommand st (.cd args result parent newEntry) =
      shellCmdCd (fun _ _ ↦ .ok ⟨some result, parent, some newEntry⟩) st args >>=
        fun r ↦ .ok r.2 := by
  unfold doCommand
  exact if_pos (checkConditions_condMount.mpr hmount)

-- A command that `check_conditions` rejects changes nothing.
theorem doCommand_rejected {command : ShellCommand}
    (h : checkConditions st.isMounted command.conditions ≠ 0) : doCommand st command = .ok st := by
  unfold doCommand
  rw [if_neg h]

-- Everything that `cd` can do with a file system mounted.
theorem doCommand_cd_cases (h : PathOk st) (hmount : st.isMounted = true)
    (args : List (List UInt8)) (result : Int) (parent newEntry : ShellEntry) :
    (¬ LooksUp st args ∧ ∃ k entry, k ≤ st.pathTop ∧ st.entryAt k = some entry ∧
      doCommand st (.cd args result parent newEntry) =
        .ok { st.setBottom with pathTop := k, currentDir := entry }) ∨
    (LooksUp st args ∧ ¬ Enters result newEntry ∧
      doCommand st (.cd args result parent newEntry) =
        .ok { st.setBottom with currentDir := parent }) ∨
    (LooksUp st args ∧ Enters result newEntry ∧ ∃ hlt : st.pathTop + 1 < 256,
      doCommand st (.cd args result parent newEntry) = .ok { st.setBottom with
        path := st.setBottom.path.set (st.pathTop + 1) newEntry
        pathTop := st.pathTop + 1
        currentDir := newEntry }) ∨
    (LooksUp st args ∧ Enters result newEntry ∧ 255 ≤ st.pathTop ∧
      doCommand st (.cd args result parent newEntry) = .error .outOfBounds) := by
  rw [doCommand_cd hmount]
  by_cases hargs : LooksUp st args
  · by_cases henters : Enters result newEntry
    · by_cases hlt : st.pathTop + 1 < 256
      · refine Or.inr (Or.inr (Or.inl ⟨hargs, henters, hlt, ?_⟩))
        rw [shellCmdCd_enters hargs henters hlt]
        rfl
      · have htop : 255 ≤ st.pathTop := by omega
        refine Or.inr (Or.inr (Or.inr ⟨hargs, henters, htop, ?_⟩))
        rw [shellCmdCd_overflow hargs henters htop]
        rfl
    · refine Or.inr (Or.inl ⟨hargs, henters, ?_⟩)
      rw [shellCmdCd_answer hargs, if_neg henters]
      rfl
  · rcases shellCmdCd_up h hargs with ⟨k, entry, hk, hentry, hcd⟩
    refine Or.inl ⟨hargs, k, entry, hk, hentry, ?_⟩
    rw [hcd]
    rfl

namespace PathOk

variable {k : Nat} {entry newEntry : ShellEntry}

theorem up (h : PathOk st) (hk : k ≤ st.pathTop) (hentry : st.entryAt k = some entry) :
    PathOk { st.setBottom with pathTop := k, currentDir := entry } where
  top := Nat.le_trans hk h.top
  current := (entryAt_setBottom k).trans hentry
  alive := h.alive
  belongs i hi := by
    rcases h.belongs i (Nat.le_trans hi hk) with ⟨e, he, hfs⟩
    exact ⟨e, (entryAt_setBottom i).trans he, hfs⟩

-- Staying where the parent argument was changed.
theorem stay_iff (h : PathOk st) (parent : ShellEntry) :
    PathOk { st.setBottom with currentDir := parent } ↔ parent = st.currentDir := by
  constructor
  · intro h'
    have hcurrent := h'.current
    change st.setBottom.entryAt st.pathTop = some parent at hcurrent
    rw [entryAt_setBottom, h.current, Option.some.injEq] at hcurrent
    exact hcurrent.symm
  · intro hparent
    rw [hparent]
    exact h.up (Nat.le_refl _) h.current

theorem entryAt_push (hlt : st.pathTop + 1 < 256) (i : Nat) :
    ShellState.entryAt { st.setBottom with
      path := st.setBottom.path.set (st.pathTop + 1) newEntry
      pathTop := st.pathTop + 1
      currentDir := newEntry } i =
        if i = st.pathTop + 1 then some newEntry else st.entryAt i := by
  by_cases hi : i = 0
  · rw [ShellState.entryAt, if_pos hi, if_neg (by omega), ShellState.entryAt, if_pos hi]
    rfl
  · rw [ShellState.entryAt, if_neg hi, Vector.getElem?_set, getElem?_setBottom]
    by_cases htop : i = st.pathTop + 1
    · rw [if_pos htop.symm, if_pos htop]
    · rw [if_neg (Ne.symm htop), if_neg htop]

theorem push_iff (h : PathOk st) (hlt : st.pathTop + 1 < 256) :
    PathOk { st.setBottom with
      path := st.setBottom.path.set (st.pathTop + 1) newEntry
      pathTop := st.pathTop + 1
      currentDir := newEntry } ↔ newEntry.pdata.fs = st.pdata := by
  constructor
  · intro h'
    rcases h'.belongs (st.pathTop + 1) (Nat.le_refl _) with ⟨e, he, hfs⟩
    rw [entryAt_push hlt, if_pos rfl, Option.some.injEq] at he
    rw [he]
    exact hfs
  · intro hfs
    constructor
    · exact Nat.le_of_lt_succ hlt
    · exact (entryAt_push hlt _).trans (if_pos rfl)
    · exact h.alive
    · intro i hi
      rw [entryAt_push hlt]
      by_cases htop : i = st.pathTop + 1
      · exact ⟨newEntry, if_pos htop, hfs⟩
      · rw [if_neg htop]
        have hle : i ≤ st.pathTop := Nat.le_of_lt_succ (Nat.lt_of_le_of_ne hi htop)
        exact h.belongs i hle

-- After a mount the path has to be empty: what is left on it is of an earlier mount.
theorem mount_iff (h : PathInv st) (root : ShellEntry) :
    PathOk (shellCmdMount st true root).2 ↔ st.pathTop = 0 := by
  constructor
  · intro h'
    rcases h'.belongs st.pathTop (Nat.le_refl _) with ⟨e, he, hfs⟩
    apply Nat.eq_zero_of_not_pos
    intro hpos
    have hread : st.path[st.pathTop]? = some e := (if_neg (Nat.ne_of_gt hpos)).symm.trans he
    exact Nat.lt_irrefl _ (h.path st.pathTop e hpos (Nat.le_refl _) hread st.allocations hfs)
  · intro htop
    constructor
    · exact h.top
    · exact if_pos htop
    · rfl
    · intro i hi
      have hzero : i = 0 := Nat.eq_zero_of_le_zero (htop ▸ hi)
      exact ⟨_, if_pos hzero, rfl⟩

end PathOk

section Step

variable {command : ShellCommand}

theorem keepsPath_of_eq (h : doCommand st command = .ok st') :
    KeepsPath st command ↔ (st'.isMounted → PathOk st') := by
  unfold KeepsPath
  rw [h]
  constructor
  · intro hkeeps
    rcases hkeeps with ⟨s, hs, hok⟩
    rw [Except.ok.injEq] at hs
    rw [hs]
    exact hok
  · intro hok
    exact ⟨st', rfl, hok⟩

theorem keepsPath_of_mounted (h : doCommand st command = .ok st') (hmount : st'.isMounted = true) :
    KeepsPath st command ↔ PathOk st' := by
  rw [keepsPath_of_eq h]
  exact forall_prop_of_true hmount

theorem keepsPath_of_unmounted (h : doCommand st command = .ok st')
    (hmount : st'.isMounted = false) : KeepsPath st command := by
  rw [keepsPath_of_eq h, hmount]
  intro hfalse
  cases hfalse

-- The condition is exact in every state that has it behind itself.
theorem keepsPath_iff (h : PathInv st) (command : ShellCommand) :
    KeepsPath st command ↔ Orderly st command := by
  unfold Orderly
  cases hmount : st.isMounted with
  | false =>
    have hrejected : ∀ c : ShellCommand, c.conditions = condMount → KeepsPath st c := by
      intro c hc
      apply keepsPath_of_unmounted (doCommand_rejected _) hmount
      rw [hc, ne_eq, checkConditions_condMount, hmount]
      decide
    cases command with
    | mount readable root =>
      have hmounts := doCommand_mount hmount readable root
      cases readable with
      | false => simp [keepsPath_of_unmounted hmounts hmount, Answered, HasRoom]
      | true =>
        rw [keepsPath_of_mounted hmounts rfl, PathOk.mount_iff h]
        simp [hmount, Answered, HasRoom]
    | umount => simp [hrejected .umount rfl, Answered, HasRoom]
    | cd args result parent newEntry =>
      simp [hrejected (.cd args result parent newEntry) rfl, hmount, Answered, HasRoom]
  | true =>
    have hok := h.ok hmount
    cases command with
    | mount readable root =>
      have hrejected : doCommand st (.mount readable root) = .ok st := by
        apply doCommand_rejected
        rw [ShellCommand.conditions, ne_eq, checkConditions_condUmount, hmount]
        decide
      simp [keepsPath_of_mounted hrejected hmount, hok, hmount, Answered, HasRoom]
    | umount =>
      have hleft : (shellCmdUmount st).2.isMounted = false := by
        unfold shellCmdUmount fsUmount
        split <;> rfl
      simp [keepsPath_of_unmounted (doCommand_umount hmount) hleft, Answered, HasRoom]
    | cd args result parent newEntry =>
      rcases doCommand_cd_cases hok hmount args result parent newEntry with
        ⟨hargs, k, entry, hk, hentry, hcd⟩ | ⟨hargs, henters, hcd⟩ | ⟨hargs, henters, hlt, hcd⟩ |
        ⟨hargs, henters, htop, hcd⟩
      · rw [keepsPath_of_mounted hcd hmount]
        simp [hargs, Answered, HasRoom, hok.up hk hentry]
      · rw [keepsPath_of_mounted hcd hmount, hok.stay_iff]
        simp [hargs, henters, hmount, Answered, HasRoom]
      · have hroom : st.pathTop < 255 := by omega
        rw [keepsPath_of_mounted hcd hmount, hok.push_iff]
        simp [hargs, henters, hmount, hroom, Answered, HasRoom]
      · have hroom : ¬ st.pathTop < 255 := Nat.not_lt.mpr htop
        simp [KeepsPath, hcd, hargs, henters, hmount, hroom, HasRoom]

-- An entry of the path after a command was there before, or is one of the mounted file system.
theorem PathInv.of_path (h : PathInv st) (htop : st'.pathTop ≤ 255)
    (hok : st'.isMounted → PathOk st') (halloc : st.allocations ≤ st'.allocations)
    (hpdata : ∀ k, st'.pdata = some k → k < st'.allocations)
    (hpath : ∀ i entry, 0 < i → i ≤ st'.pathTop → st'.path[i]? = some entry →
      (i ≤ st.pathTop ∧ st.path[i]? = some entry) ∨ entry.pdata.fs = st.pdata) : PathInv st' where
  top := htop
  ok := hok
  pdata := hpdata
  path i entry hpos hi hentry k hfs := by
    rcases hpath i entry hpos hi hentry with ⟨hle, hold⟩ | hnew
    · exact Nat.lt_of_lt_of_le (h.path i entry hpos hle hold k hfs) halloc
    · rw [hnew] at hfs
      exact Nat.lt_of_lt_of_le (h.pdata k hfs) halloc

theorem PathInv.mount (h : PathInv st) (readable : Bool) (root : ShellEntry)
    (hok : (shellCmdMount st readable root).2.isMounted → PathOk (shellCmdMount st readable root).2) :
    PathInv (shellCmdMount st readable root).2 := by
  have hfields : (shellCmdMount st readable root).2.pathTop = st.pathTop ∧
      (shellCmdMount st readable root).2.path = st.path ∧
      (shellCmdMount st readable root).2.pdata = some st.allocations ∧
      (shellCmdMount st readable root).2.allocations = st.allocations + 1 := by
    cases readable <;> exact ⟨rfl, rfl, rfl, rfl⟩
  rcases hfields with ⟨htop, hpath, hpdata, halloc⟩
  apply h.of_path _ hok
  · omega
  · intro k hk
    rw [hpdata, Option.some.injEq] at hk
    omega
  · intro i entry hpos hi hentry
    rw [htop] at hi
    rw [hpath] at hentry
    exact Or.inl ⟨hi, hentry⟩
  · rw [htop]
    exact h.top

theorem PathInv.umount (h : PathInv st) : PathInv (shellCmdUmount st).2 := by
  have hfields : (shellCmdUmount st).2.pathTop = st.pathTop ∧
      (shellCmdUmount st).2.path = st.path ∧ (shellCmdUmount st).2.isMounted = false ∧
      (shellCmdUmount st).2.allocations = st.allocations ∧ (shellCmdUmount st).2.pdata = none := by
    unfold shellCmdUmount fsUmount
    split
    · exact ⟨rfl, rfl, rfl, rfl, rfl⟩
    · rename_i hpdata
      exact ⟨rfl, rfl, rfl, rfl, Option.not_isSome_iff_eq_none.mp hpdata⟩
  rcases hfields with ⟨htop, hpath, hmount, halloc, hpdata⟩
  apply h.of_path
  · rw [htop]
    exact h.top
  · rw [hmount]
    intro hfalse
    cases hfalse
  · exact Nat.le_of_eq halloc.symm
  · rw [hpdata]
    intro k hk
    cases hk
  · intro i entry hpos hi hentry
    rw [htop] at hi
    rw [hpath] at hentry
    exact Or.inl ⟨hi, hentry⟩

theorem path_setBottom {i : Nat} (hpos : 0 < i) : st.setBottom.path[i]? = st.path[i]? := by
  rw [getElem?_setBottom, ShellState.entryAt, if_neg (Nat.ne_of_gt hpos)]

theorem PathInv.cd (h : PathInv st) (hmount : st.isMounted = true) {args : List (List UInt8)}
    {result : Int} {parent newEntry : ShellEntry} (hok : st'.isMounted → PathOk st')
    (hstep : doCommand st (.cd args result parent newEntry) = .ok st') : PathInv st' := by
  rcases doCommand_cd_cases (h.ok hmount) hmount args result parent newEntry with
    ⟨hargs, k, entry, hk, hentry, hcd⟩ | ⟨hargs, henters, hcd⟩ | ⟨hargs, henters, hlt, hcd⟩ |
    ⟨hargs, henters, htop, hcd⟩
  · rw [hcd, Except.ok.injEq] at hstep
    subst hstep
    refine h.of_path (Nat.le_trans hk h.top) hok (Nat.le_refl _) h.pdata ?_
    intro i e hpos hi he
    exact Or.inl ⟨Nat.le_trans hi hk, (path_setBottom hpos).symm.trans he⟩
  · rw [hcd, Except.ok.injEq] at hstep
    subst hstep
    refine h.of_path h.top hok (Nat.le_refl _) h.pdata ?_
    intro i e hpos hi he
    exact Or.inl ⟨hi, (path_setBottom hpos).symm.trans he⟩
  · rw [hcd, Except.ok.injEq] at hstep
    subst hstep
    have hfs := ((h.ok hmount).push_iff hlt).mp (hok hmount)
    refine h.of_path (Nat.le_of_lt_succ hlt) hok (Nat.le_refl _) h.pdata ?_
    intro i e hpos hi he
    change (st.setBottom.path.set (st.pathTop + 1) newEntry)[i]? = some e at he
    rw [Vector.getElem?_set] at he
    by_cases htop : st.pathTop + 1 = i
    · rw [if_pos htop, Option.some.injEq] at he
      rw [← he]
      exact Or.inr hfs
    · rw [if_neg htop, path_setBottom hpos] at he
      exact Or.inl ⟨Nat.le_of_lt_succ (Nat.lt_of_le_of_ne hi (Ne.symm htop)), he⟩
  · rw [hcd] at hstep
    cases hstep

theorem PathInv.step (h : PathInv st) (hkeeps : KeepsPath st command)
    (hstep : doCommand st command = .ok st') : PathInv st' := by
  have hok := (keepsPath_of_eq hstep).mp hkeeps
  by_cases hcheck : checkConditions st.isMounted command.conditions = 0
  · cases command with
    | mount readable root =>
      rw [doCommand_mount (checkConditions_condUmount.mp hcheck), Except.ok.injEq] at hstep
      subst hstep
      exact h.mount readable root hok
    | umount =>
      rw [doCommand_umount (checkConditions_condMount.mp hcheck), Except.ok.injEq] at hstep
      subst hstep
      exact h.umount
    | cd args result parent newEntry =>
      exact h.cd (checkConditions_condMount.mp hcheck) hok hstep
  · rw [doCommand_rejected hcheck, Except.ok.injEq] at hstep
    rw [← hstep]
    exact h

end Step

/-! ## Every run -/

theorem pathInv_start : PathInv ShellState.start where
  top := by decide
  ok hmount := by cases hmount
  pdata k hk := by cases hk
  path i entry hpos hi := absurd (Nat.lt_of_lt_of_le hpos hi) (Nat.lt_irrefl 0)

theorem PathInv.of_reachable (h : Reachable doCommand Orderly (· = ShellState.start) st) :
    PathInv st := by
  apply h.invariant PathInv
  · intro s hs
    rw [hs]
    exact pathInv_start
  · intro s c s' hs hc hstep
    exact hs.step ((keepsPath_iff hs c).mpr hc) hstep

/-- The path is as it should be in every run of commands that find room on it and answers of the
mounted file system, and no weaker condition would do for the next command. -/
theorem path_kept (h : Reachable doCommand Orderly (· = ShellState.start) st) :
    (st.isMounted → PathOk st) ∧
      ∀ command, KeepsPath st command ↔ Orderly st command := by
  have hinv := PathInv.of_reachable h
  exact ⟨hinv.ok, keepsPath_iff hinv⟩

/-! ## Mounting again below the root -/

/-- A directory, as an entry of the file system that the first mount allocates. -/
def firstDir : ShellEntry :=
  { ShellEntry.zero with isDirectory := 1, pdata := { ShellEntry.zero.pdata with fs := some 0 } }

-- `mount`, then `cd` into a directory of the root.
theorem exists_below_root : ∃ st,
    Reachable doCommand Orderly (· = ShellState.start) st ∧
      st.isMounted = true ∧ st.pathTop = 1 := by
  let mounted := (shellCmdMount ShellState.start true firstDir).2
  have hempty : Orderly ShellState.start (.mount true firstDir) := ⟨trivial, fun _ _ ↦ rfl⟩
  have hstart : Reachable doCommand Orderly (· = ShellState.start) ShellState.start := .start rfl
  have hmounted : Reachable doCommand Orderly (· = ShellState.start) mounted :=
    hstart.call hempty (doCommand_mount rfl true firstDir)
  have hlookup : LooksUp mounted [[0x41]] := by
    refine ⟨[0x41], rfl, by decide, ?_⟩
    intro hup
    exact absurd hup.1 (by decide)
  have henters : Enters ext2Error firstDir := by decide
  have hroom : mounted.pathTop + 1 < 256 := by decide
  have horderly : Orderly mounted (.cd [[0x41]] ext2Error firstDir firstDir) :=
    ⟨fun _ _ ↦ ⟨fun _ ↦ rfl, fun h ↦ absurd henters h⟩, fun _ _ _ ↦ Nat.lt_of_succ_lt_succ hroom⟩
  have hcd : doCommand mounted (.cd [[0x41]] ext2Error firstDir firstDir) = _ :=
    (doCommand_cd rfl).trans (by rw [shellCmdCd_enters hlookup henters hroom, ok_bind])
  exact ⟨_, hmounted.call horderly hcd, rfl, rfl⟩

theorem path_kept_below_root : ∃ st, st.isMounted = true ∧ st.pathTop = 1 ∧
    (st.isMounted → PathOk st) ∧
      ∀ command, KeepsPath st command ↔ Orderly st command := by
  rcases exists_below_root with ⟨st, hrun, hmount, htop⟩
  exact ⟨st, hmount, htop, path_kept hrun⟩

-- Below the root, `umount` and `mount` leave the shell between two file systems.
theorem not_pathOk_remount (h : PathInv st) (hdeep : st.pathTop ≠ 0) (root : ShellEntry) :
    ¬ PathOk (shellCmdMount (shellCmdUmount st).2 true root).2 := by
  have htop : (shellCmdUmount st).2.pathTop = st.pathTop := by
    unfold shellCmdUmount fsUmount
    split <;> rfl
  rw [PathOk.mount_iff h.umount, htop]
  exact hdeep

/-- `mount`, `cd`, `umount`, `mount`, with a lookup that answers as it should. -/
theorem not_path_kept : ¬ ∀ st, Reachable doCommand Answered (· = ShellState.start) st →
    st.isMounted → PathOk st := by
  intro hall
  rcases exists_below_root with ⟨st, hrun, hmount, htop⟩
  have hleft : (shellCmdUmount st).2.isMounted = false := by
    unfold shellCmdUmount fsUmount
    split <;> rfl
  have hanswered : Reachable doCommand Answered (· = ShellState.start) st :=
    hrun.mono fun _ _ h ↦ h.1
  have humount : Reachable doCommand Answered (· = ShellState.start) (shellCmdUmount st).2 :=
    hanswered.call (i := .umount) trivial (doCommand_umount hmount)
  have hagain := humount.call (i := ShellCommand.mount true firstDir) trivial
    (doCommand_mount hleft true firstDir)
  exact not_pathOk_remount (PathInv.of_reachable hrun) (by omega) firstDir (hall _ hagain rfl)

end Ext2Fs
