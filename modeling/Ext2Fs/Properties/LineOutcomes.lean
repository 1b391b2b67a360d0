import Ext2Fs.Properties.Dumps
import Ext2Fs.Properties.ProgramRuns
import Ext2Fs.Properties.RootCapacity
import Ext2Fs.Spec.CommandWords

/-!
# Which lines leave the language

Many commands use variables that nothing has filled, some of them on purpose of their author and
some by a slip.  On a formatted disk the names in the root, the number of entries that were made and
what was typed decide whether a line gets to such a variable.
-/

open Reasoning

namespace Ext2Fs

/-! ## Entering a name -/

/-- The name is rejected by `format_name`, or there already. -/
def Refused (s : Session) (op : DirOp) (entryName : List UInt8) : Prop :=
  formattedName op entryName = .ok none ∨ ∃ name, formattedName op entryName = .ok (some name) ∧
    name.length < 24 ∧ Taken s.fs.disk name

/-- A new name that fits an entry, for which the root has a slot. -/
def EntersName (disk : DiskOperations) (s : Session) (op : DirOp) (entryName : List UInt8) : Prop :=
  ∃ name, formattedName op entryName = .ok (some name) ∧ name.length < 24 ∧
    ¬ Taken s.fs.disk name ∧ s.made.length < rootCapacity disk

section Entering

variable {disk : DiskOperations} {s : Session} (h : InUse disk s) (hpos : 1 ≤ disk.groups)
  (hfew : disk.groups ≤ 16) {op : DirOp} {entryName : List UInt8}

include h hpos hfew

theorem Refused.make (hrefused : Refused s op entryName) :
    ext2Make op s.fs s.root entryName = .ok (ext2Error, none, s.fs) := by
  have hserving := h.serving hpos hfew
  rcases hrefused with hname | ⟨name, hname, hlen, htaken⟩
  · exact ext2Make_rejected hname
  · have hadd := hserving.live.rootAt.addEntry_taken hserving.root_inode op
      (formattedName_length hname) (formattedName_zeroFree hname) (fun _ _ ↦ Or.inl hlen) htaken
    rw [ext2Make_accepted hname]
    exact makeNamed_of_addEntry_none hadd

theorem EntersName.make (henters : EntersName disk s op entryName) :
    ∃ node fs', ext2Make op s.fs s.root entryName = .ok (ext2Success, some node, fs') := by
  rcases henters with ⟨name, hname, hlen, hnew, hroom⟩
  rcases h.make_of_room hpos hfew hname hlen hnew hroom with ⟨fs', hmake⟩
  exact ⟨_, fs', hmake⟩

end Entering

/-! ## Commands -/

namespace Program

section Handlers

variable {base : DiskOperations} {s : Session} {p : Program} {args : List (List UInt8)}
  {name : List UInt8}

theorem Follows.lookup (h : p.Follows base s) (hmount : p.shell.isMounted = true)
    (hne : name ≠ []) (h0 : 0 ∉ name) (hlen : name.length < 24) :
    ∃ r, ext2Lookup s.fs p.shell.currentDir.pdata.node name none = .ok r ∧ r.fs = s.fs ∧
      r.status = if Taken s.fs.disk name then some ext2Success
        else if s.made.length < rootCapacity base then some ext2Error else none := by
  rcases h.inUse.fills h.groups_pos h.groups_few with ⟨hserving, hfills⟩
  rcases hserving.live.rootAt.lookup_name hserving.root_inode hne h0 (fun _ _ ↦ Or.inl hlen)
    none with ⟨r, hrun, hsame, hstatus⟩
  simp only [hfills.hasSlot_iff] at hstatus
  rw [h.serves.node hmount]
  exact ⟨r, hrun, hsame, hstatus⟩

/-! ### cd and cat -/

end Handlers

/-! ## Lines -/

end Program

end Ext2Fs
