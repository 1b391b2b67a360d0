import Mathlib.Logic.Relation
import Ext2Fs.Model.Inode

/-!
# What get_datablock does when it returns

Near the start of a file the walk stays in the inode.  Behind that it goes down through index
blocks, and the number that it returns is a word of the sector read last.
-/

open Reasoning

namespace Ext2Fs

/-! ## One step -/

section Step

variable {w w' : BlockWalk} {file : Ext2Node} {offset : UInt64}
  {out : UInt32 × Ext2Filesystem × InodeVar × Option Sector}

-- The pointer is followed before and after the sector is read.
theorem BlockWalk.finish_ok (h : w.finish offset = .ok out) :
    ∃ block, w.target = some block ∧ out.2.1 = w.fs ∧ out.2.2.1 = w.inode ∧
      out.2.2.2 = (w.fs.disk.readSector
        ((block * sectorsPerBlock).toUInt64 + offset / 512).toUInt32 w.sector).2 ∧
      BlockWalk.target { w with sector := out.2.2.2 } = some out.1 := by
  unfold BlockWalk.finish at h
  rcases bind_eq_ok.mp h with ⟨block, hblock, h⟩
  rcases bind_eq_ok.mp h with ⟨block', htarget, h⟩
  rw [pure_eq_ok, Except.ok.injEq] at h
  subst h
  exact ⟨block, determinate_eq_ok.mp hblock, rfl, rfl, rfl, determinate_eq_ok.mp htarget⟩

/-- One index block is loaded. -/
def BlockWalk.Descends (file : Ext2Node) (w w' : BlockWalk) : Prop :=
  ∃ cnt unit rest, w.descend file cnt unit = .ok (w', rest)

theorem BlockWalk.Descends.sector (h : BlockWalk.Descends file w w') :
    ∃ k, w'.currentBlock = .sector k := by
  rcases h with ⟨cnt, unit, rest, h⟩
  unfold BlockWalk.descend at h
  rcases bind_eq_ok.mp h with ⟨w₁, -, h⟩
  rcases bind_eq_ok.mp h with ⟨block, -, h⟩
  simp only [pure_eq_ok, Except.ok.injEq, Prod.mk.injEq] at h
  rcases h with ⟨rfl, rfl⟩
  exact ⟨_, rfl⟩

theorem BlockWalk.ensure_iSize (h : w.ensure file = .ok w') :
    w'.inode.iSize = w.inode.iSize := by
  unfold BlockWalk.ensure at h
  rcases bind_eq_ok.mp h with ⟨block, -, h⟩
  split at h
  · rcases bind_eq_ok.mp h with ⟨⟨newBlock, fs⟩, -, h⟩
    simp only at h
    split at h
    · rw [pure_eq_ok, Except.ok.injEq] at h
      rw [← h]
    · rcases bind_eq_ok.mp h with ⟨s, -, h⟩
      rcases bind_eq_ok.mp h with ⟨s', -, h⟩
      rw [pure_eq_ok, Except.ok.injEq] at h
      rw [← h]
  · rw [pure_eq_ok, Except.ok.injEq] at h
    rw [← h]

theorem BlockWalk.Descends.iSize (h : BlockWalk.Descends file w w') :
    w'.inode.iSize = w.inode.iSize := by
  rcases h with ⟨cnt, unit, rest, h⟩
  unfold BlockWalk.descend at h
  rcases bind_eq_ok.mp h with ⟨w₁, hensure, h⟩
  rcases bind_eq_ok.mp h with ⟨block, -, h⟩
  simp only [pure_eq_ok, Except.ok.injEq, Prod.mk.injEq] at h
  rw [← h.1, ← BlockWalk.ensure_iSize hensure]

end Step

/-! ## Pointers of the inode -/

section Pointer

variable {fs : Ext2Filesystem} {inode : InodeVar} {offset : UInt64} {buf : Option Sector}
  {out : UInt32 × Ext2Filesystem × InodeVar × Option Sector}

theorem finish_pointer {i : Nat}
    (h : BlockWalk.finish ⟨fs, inode, buf, .inode i⟩ offset = .ok out) :
    (inode.iBlock[i]?).join = some out.1 ∧ out.2.1 = fs ∧ out.2.2.1 = inode ∧
      out.2.2.2 = (fs.disk.readSector
        ((out.1 * sectorsPerBlock).toUInt64 + offset / 512).toUInt32 buf).2 := by
  rcases BlockWalk.finish_ok h with ⟨block, hblock, hfs, hinode, hread, hagain⟩
  -- the pointer is not in the buffer, so that it is followed to the same block
  have hsame : (inode.iBlock[i]?).join = some out.1 := hagain
  have hfirst : (inode.iBlock[i]?).join = some block := hblock
  rw [hsame, Option.some.injEq] at hfirst
  rw [← hfirst] at hread
  exact ⟨hsame, hfs, hinode, hread⟩

theorem getDatablock_near (file : Ext2Node)
    (hnear : (offset / 4096).toUInt32 / blockSizeInBytes ≤ 12) :
    getDatablock fs file inode offset buf =
      BlockWalk.finish ⟨fs, inode, buf, .inode (offset / 4096).toUInt32.toNat⟩ offset := by
  unfold getDatablock
  simp only [if_pos hnear]

end Pointer

/-! ## Index blocks -/

section Index

variable {fs : Ext2Filesystem} {file : Ext2Node} {inode : InodeVar} {offset : UInt64}
  {buf : Option Sector} {out : UInt32 × Ext2Filesystem × InodeVar × Option Sector}

theorem getDatablock_far (hfar : ¬ (offset / 4096).toUInt32 / blockSizeInBytes ≤ 12)
    (h : getDatablock fs file inode offset buf = .ok out) :
    ∃ k w, Relation.TransGen (BlockWalk.Descends file) ⟨fs, inode, buf, .inode k⟩ w ∧
      w.finish offset = .ok out := by
  unfold getDatablock at h
  simp only [if_neg hfar] at h
  split at h
  · rcases bind_eq_ok.mp h with ⟨⟨w₁, cnt₁⟩, h₁, h⟩
    exact ⟨13, w₁, .single ⟨_, _, _, h₁⟩, h⟩
  split at h
  · rcases bind_eq_ok.mp h with ⟨⟨w₁, cnt₁⟩, h₁, h⟩
    rcases bind_eq_ok.mp h with ⟨⟨w₂, cnt₂⟩, h₂, h⟩
    exact ⟨14, w₂, (Relation.TransGen.single ⟨_, _, _, h₁⟩).tail ⟨_, _, _, h₂⟩, h⟩
  · rcases bind_eq_ok.mp h with ⟨⟨w₁, cnt₁⟩, h₁, h⟩
    rcases bind_eq_ok.mp h with ⟨⟨w₂, cnt₂⟩, h₂, h⟩
    rcases bind_eq_ok.mp h with ⟨⟨w₃, cnt₃⟩, h₃, h⟩
    exact ⟨15, w₃, ((Relation.TransGen.single ⟨_, _, _, h₁⟩).tail ⟨_, _, _, h₂⟩).tail
      ⟨_, _, _, h₃⟩, h⟩

-- The number returned is a word of the sector read last.
theorem getDatablock_indirect (hfar : ¬ (offset / 4096).toUInt32 / blockSizeInBytes ≤ 12)
    (h : getDatablock fs file inode offset buf = .ok out) :
    ∃ k, out.2.2.2.bind (fun s ↦ loadAt asWords s k) = some out.1 := by
  rcases getDatablock_far hfar h with ⟨k, w, hwalk, hfinish⟩
  rcases Relation.TransGen.tail'_iff.mp hwalk with ⟨w', -, hlast⟩
  rcases hlast.sector with ⟨e, hptr⟩
  rcases BlockWalk.finish_ok hfinish with ⟨block, -, -, -, -, hword⟩
  unfold BlockWalk.target at hword
  simp only [hptr] at hword
  exact ⟨e, hword⟩

theorem getDatablock_iSize (h : getDatablock fs file inode offset buf = .ok out) :
    out.2.2.1.iSize = inode.iSize := by
  by_cases hnear : (offset / 4096).toUInt32 / blockSizeInBytes ≤ 12
  · rw [getDatablock_near file hnear] at h
    rw [(finish_pointer h).2.2.1]
  · rcases getDatablock_far hnear h with ⟨k, w, hwalk, hfinish⟩
    rcases BlockWalk.finish_ok hfinish with ⟨block, -, -, hinode, -⟩
    rw [hinode]
    -- no index block changes the size
    clear hfinish hinode
    induction hwalk with
    | single hstep => exact hstep.iSize
    | tail _ hstep ih => rw [hstep.iSize, ih]

end Index

end Ext2Fs
