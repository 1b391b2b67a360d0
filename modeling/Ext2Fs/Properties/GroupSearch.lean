import Ext2Fs.Properties.Accounting
import Ext2Fs.Spec.AllocSteps

/-!
# The search for a group with room

`find_free_group`, for every assignment of the counters in the descriptor table.
-/

open Reasoning

namespace Ext2Fs

/-! ## The answer of a search -/

section Statement

variable (fs : Ext2Filesystem)

/-- Both counters of group `g` are positive. -/
def GroupHasRoom (g : Nat) : Prop :=
  (fs.disk.storedDesc 0 g).bgFreeBlocksCount ≠ 0 ∧ (fs.disk.storedDesc 0 g).bgFreeInodesCount ≠ 0

/-- What a search from group `p` may answer: `p` when it has room, otherwise a group that has, and
`EXT2_ERROR` exactly when there is none. -/
structure RightGroup (p : Nat) (r : Int) : Prop where
  parent : GroupHasRoom fs p → r = p
  other : ¬ GroupHasRoom fs p → (∃ g, g < fs.disk.groups ∧ GroupHasRoom fs g) →
    ∃ g : Nat, r = g ∧ g < fs.disk.groups ∧ GroupHasRoom fs g
  none : r = ext2Error ↔ ∀ g, g < fs.disk.groups → ¬ GroupHasRoom fs g

/-- The search reads only descriptors of the parent's file system, and its answer is right. -/
def FindsGroup (parent : Ext2Node) : Prop :=
  ∃ r, findFreeGroup fs parent = .ok r ∧ RightGroup fs (parent.inodeNum.toNat / 1024) r

end Statement

/-! ## The parent's group -/

section Search

variable {fs : Ext2Filesystem} {parent : Ext2Node} {p : Nat}

theorem groupHasRoom_iff (hp : p < 16) : GroupHasRoom fs p ↔
    fs.descs[p].bgFreeBlocksCount ≠ 0 ∧ fs.descs[p].bgFreeInodesCount ≠ 0 := by
  rw [GroupHasRoom, storedDesc_zero fs hp]

theorem rightGroup_parent (hp : p < fs.disk.groups) (hroom : GroupHasRoom fs p) :
    RightGroup fs p (p : Int) where
  parent _ := rfl
  other hnone := absurd hroom hnone
  none := iff_of_false (natCast_ne_error p) (fun hfull ↦ hfull p hp hroom)

/-- The search succeeds exactly when the parent's group is one of the first sixteen and has room:
a descriptor past the sixteenth is not in the sector that is read, and to look at another group the
node itself is taken for the file system. -/
theorem findsGroup_iff (h0 : fs.spb.sFirstDataBlock = 0)
    (hparent : parent.inodeNum.toNat / 1024 = p) (hp : p < fs.disk.groups) :
    FindsGroup fs parent ↔ p < 16 ∧ GroupHasRoom fs p := by
  have hnum := groupNum_toNat hparent
  constructor
  · intro h
    rcases h with ⟨r, hrun, -⟩
    rcases findFreeGroup_ok h0 (by omega) hrun with ⟨k, hk, hnum', -, hblocks, hinodes⟩
    obtain rfl : k = p := hnum'.symm.trans hnum
    exact ⟨hk, (groupHasRoom_iff hk).mpr ⟨hblocks, hinodes⟩⟩
  · intro h
    rcases h with ⟨hk, hroom⟩
    rcases (groupHasRoom_iff hk).mp hroom with ⟨hblocks, hinodes⟩
    refine ⟨p, findFreeGroup_eq h0 (by omega) hnum hk hblocks hinodes, ?_⟩
    rw [hparent]
    exact rightGroup_parent hp hroom

end Search

/-! ## Two groups -/

/-- Two groups, of which the second alone has room. -/
def secondGroupFs : Ext2Filesystem where
  spb := (zeroedDisk 524288).newSb
  disk := DiskOperations.ofContents 524288 fun x ↦
    if x = 8 then asDescs.symm ((Vector.replicate 16 Ext2GroupDesc.zero).set 1 newDesc)
    else zeroSector

theorem secondGroupFs_desc {g : Nat} (hg : g < 16) :
    secondGroupFs.descs[g] = if 1 = g then newDesc else Ext2GroupDesc.zero := by
  have hdescs : secondGroupFs.descs = (Vector.replicate 16 Ext2GroupDesc.zero).set 1 newDesc :=
    Equiv.apply_symm_apply asDescs _
  simp only [hdescs]
  rw [Vector.getElem_set, Vector.getElem_replicate]

theorem secondGroupFs_room : GroupHasRoom secondGroupFs 1 := by
  rw [groupHasRoom_iff (by decide), secondGroupFs_desc (by decide)]
  decide

theorem secondGroupFs_full : ¬ GroupHasRoom secondGroupFs 0 := by
  rw [groupHasRoom_iff (by decide), secondGroupFs_desc (by decide)]
  decide

theorem findsGroup_iff_secondGroupFs :
    FindsGroup secondGroupFs { rootNode with inodeNum := 1024 } ↔
      1 < 16 ∧ GroupHasRoom secondGroupFs 1 :=
  findsGroup_iff rfl (by decide) (by decide)

/-- The parent's group is full and the other one is not. -/
theorem not_findsGroup : secondGroupFs.disk.groups = 2 ∧ rootNode.inodeNum.toNat / 1024 = 0 ∧
    GroupHasRoom secondGroupFs 1 ∧ ¬ FindsGroup secondGroupFs rootNode := by
  refine ⟨by decide, by decide, secondGroupFs_room, fun h ↦ ?_⟩
  rcases h with ⟨r, hrun, -⟩
  rcases findFreeGroup_ok rfl (by decide) hrun with ⟨k, hk, hnum, -, hblocks, hinodes⟩
  obtain rfl : k = 0 := hnum.symm
  exact secondGroupFs_full ((groupHasRoom_iff hk).mpr ⟨hblocks, hinodes⟩)

end Ext2Fs
