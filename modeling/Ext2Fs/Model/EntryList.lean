import Ext2Fs.Model.Shell
import Ext2Fs.Reasoning.Heap

/-!
# The entry list (entrylist.c)

The items of all lists live on one heap, each in a cell of its own.
-/

open Reasoning

namespace Ext2Fs

/-- `SHELL_ENTRY_LIST_ITEM`. -/
structure ShellEntryListItem where
  entry : ShellEntry
  next : Option Nat

abbrev ItemHeap := Heap ShellEntryListItem

/-- `SHELL_ENTRY_LIST`. -/
structure ShellEntryList where
  count : UInt32
  first : Option Nat
  last : Option Nat

def initEntryList : ShellEntryList := ⟨0, none, none⟩

/-- `add_entry_list`, where `malloc` returns the address `newItem`. -/
def addEntryList (heap : ItemHeap) (list : ShellEntryList) (newItem : Nat) (entry : ShellEntry) :
    Exec (ItemHeap × ShellEntryList) := do
  let heap := heap.put newItem ⟨entry, none⟩
  if list.count = 0 then
    return (heap, ⟨list.count + 1, some newItem, some newItem⟩)
  let item ← heap.load list.last
  let heap ← heap.store list.last { item with next := some newItem }
  return (heap, ⟨list.count + 1, list.first, some newItem⟩)

/-- The loop of `release_entry_list`, with the addresses that it frees one after the other.  The
heap gets smaller in every round. -/
def releaseItems (heap : ItemHeap) (nextItem : Option Nat) : Exec (List Nat × ItemHeap) :=
  match nextItem with
  | none => .error .badPointer
  | some currentItem =>
    match _cell : heap.cell currentItem with
    | none => .error .badPointer
    | some item =>
      if item.next.isSome then do
        let (freed, heap) ← releaseItems (heap.remove currentItem) item.next
        return (currentItem :: freed, heap)
      else .ok ([currentItem], heap.remove currentItem)
  termination_by heap.size
  decreasing_by exact Heap.size_remove_lt _cell

/-- `release_entry_list`, with the addresses that it frees. -/
def releaseEntryList (heap : ItemHeap) (list : ShellEntryList) :
    Exec (List Nat × ItemHeap × ShellEntryList) := do
  if list.count = 0 then return ([], heap, list)
  let (freed, heap) ← releaseItems heap list.first
  return (freed, heap, ⟨0, none, none⟩)

end Ext2Fs
