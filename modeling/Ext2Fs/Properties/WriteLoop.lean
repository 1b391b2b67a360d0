import Ext2Fs.Model.File
import Ext2Fs.Spec.RootDir

/-!
# The write loop

The loop of `ext2_write` from any size of the file.  What is left of `length` is compared with the
room in the sector the wrong way round: the room is filled when there is less to write, and more
than the room is copied when there is more.
-/

open Reasoning

namespace Ext2Fs

/-! ## The record of the copies -/

section Equations

variable {file : Ext2Node} {fs : Ext2Filesystem} {inode : InodeVar} {sector : Option Sector}
  {offset length : UInt64} {buffer : List UInt8} {source : Nat}

theorem writeLoopTrace_zero :
    writeLoopTrace file fs inode sector offset 0 buffer source = .ok (fs, inode, []) := by
  rw [writeLoopTrace, dif_pos rfl]

theorem writeLoopTrace_of_lt (hlen : length ≠ 0) (hroom : sectorRoom offset < length) :
    writeLoopTrace file fs inode sector offset length buffer source =
      copyToSector sector (offset % 512).toNat buffer length.toNat >>= fun _ ↦
        .ok (fs, { inode with iSize := inode.iSize.map (· + length.toUInt32) },
          [⟨(offset % 512).toNat, source, length.toNat, length, 0⟩]) := by
  rw [writeLoopTrace, dif_neg hlen]
  simp only [dif_pos hroom]
  rfl

theorem writeLoopTrace_of_le (hlen : length ≠ 0) (hroom : ¬ sectorRoom offset < length) :
    writeLoopTrace file fs inode sector offset length buffer source =
      copyToSector sector (offset % 512).toNat buffer (sectorRoom offset).toNat >>= fun sector ↦
        getDatablock fs file
          { inode with iSize := inode.iSize.map (· + (sectorRoom offset).toUInt32) }
          (offset + sectorRoom offset) sector >>= fun out ↦
            writeLoopTrace file out.2.1 out.2.2.1 out.2.2.2 (offset + sectorRoom offset)
              (length - sectorRoom offset) (buffer.drop (sectorRoom offset).toNat)
              (source + (sectorRoom offset).toNat) >>= fun r ↦
                .ok (r.1, r.2.1, ⟨(offset % 512).toNat, source, (sectorRoom offset).toNat, length,
                  length - sectorRoom offset⟩ :: r.2.2) := by
  rw [writeLoopTrace, dif_neg hlen]
  simp only [dif_neg hroom]
  rfl

end Equations

/-! ## The property -/

/-- The pieces are read one behind the other, each from where the last one ended and with what it
left of `length`, until nothing is left. -/
def Covers (total : Nat) : Nat → UInt64 → List WritePiece → Prop
  | source, left, [] => source = total ∧ left = 0
  | source, left, p :: pieces =>
    p.source = source ∧ p.before = left ∧ Covers total (source + p.count) p.after pieces

/-- The copy stays inside the sector and the caller's buffer, and `length` decreases by what is
copied. -/
structure WritePiece.Safe (p : WritePiece) (buffer : List UInt8) : Prop where
  sector : p.start + p.count ≤ 512
  buffer : p.source + p.count ≤ buffer.length
  decreases : p.after < p.before
  left : p.before.toNat = p.count + p.after.toNat

/-- Where `ext2_write` goes on with a file of that size. -/
def appendOffset (size : UInt32) : UInt64 := (size + 1).toUInt64

section Statement

variable (file : Ext2Node) (fs : Ext2Filesystem) (inode : InodeVar) (sector : Option Sector)
  (size : UInt32) (length : UInt64) (buffer : List UInt8)

/-- The loop ends, with safe copies that cover the buffer, and the size has grown by its length. -/
def WritesAll : Prop :=
  ∃ fs' inode' pieces, writeLoopTrace file fs inode sector (appendOffset size) length buffer 0 =
      .ok (fs', inode', pieces) ∧
    (∀ p ∈ pieces, p.Safe buffer) ∧ Covers length.toNat 0 length pieces ∧
    ∃ size', inode'.iSize = some size' ∧ size'.toNat = size.toNat + length.toNat

-- The loop itself then ends in the same state.
theorem WritesAll.writeLoop (h : WritesAll file fs inode sector size length buffer) :
    ∃ fs' inode' size', writeLoop file fs inode sector (appendOffset size) length buffer =
        .ok (fs', inode') ∧
      inode'.iSize = some size' ∧ size'.toNat = size.toNat + length.toNat := by
  rcases h with ⟨fs', inode', pieces, htrace, -, -, size', hsize', hgrows⟩
  refine ⟨fs', inode', size', ?_, hsize', hgrows⟩
  rw [Ext2Fs.writeLoop, htrace, ok_bind]
  rfl

/-- `memcpy` of the first `count` bytes of the buffer. -/
def copied (start count : Nat) : Option Sector :=
  sector.map fun s ↦ Vector.ofFn fun i ↦
    if start ≤ i.val ∧ i.val < start + count then buffer.getD (i.val - start) 0 else s.get i

/-- The call of `get_datablock` behind a sector that has been filled. -/
def nextDatablock : Exec (UInt32 × Ext2Filesystem × InodeVar × Option Sector) :=
  let offset := appendOffset size
  let room := sectorRoom offset
  getDatablock fs file { inode with iSize := some (size + room.toUInt32) } (offset + room)
    (copied sector buffer (offset % 512).toNat room.toNat)

end Statement

/-! ## One sector -/

section Sector

variable {file : Ext2Node} {fs : Ext2Filesystem} {inode : InodeVar} {sector : Option Sector}
  {offset length : UInt64} {buffer : List UInt8} {source : Nat}

theorem sectorStart_toNat (offset : UInt64) : (offset % 512).toNat = offset.toNat % 512 :=
  UInt64.toNat_mod offset 512

-- The room goes up to the end of the sector.
theorem start_add_room (offset : UInt64) :
    (offset % 512).toNat + (sectorRoom offset).toNat = 512 := by
  rw [sectorStart_toNat, sectorRoom_toNat]
  omega

theorem sectorRoom_ne_zero (offset : UInt64) : sectorRoom offset ≠ 0 := by
  intro hzero
  have hroom := sectorRoom_toNat offset
  rw [hzero, UInt64.toNat_zero] at hroom
  omega

-- More than the room does not fit the sector; less does not fill the room.
theorem writeLoopTrace_of_ne (hbuffer : buffer.length = length.toNat) (hlen : length ≠ 0)
    (hne : length ≠ sectorRoom offset) :
    writeLoopTrace file fs inode sector offset length buffer source = .error .outOfBounds := by
  have hsum := start_add_room offset
  by_cases hroom : sectorRoom offset < length
  · rw [writeLoopTrace_of_lt hlen hroom, copyToSector, if_neg, error_bind]
    rw [UInt64.lt_iff_toNat_lt] at hroom
    omega
  · rw [writeLoopTrace_of_le hlen hroom, copyToSector, if_neg, error_bind]
    rw [UInt64.lt_iff_toNat_lt] at hroom
    have hne' : length.toNat ≠ (sectorRoom offset).toNat := fun h ↦ hne (UInt64.toNat_inj.mp h)
    omega

-- As long as the first block is not left, the next sector is in a block that is known.
theorem nextDatablock_first (file : Ext2Node) {size block : UInt32}
    (hblock : getElem inode.iBlock 0 pointer_lt = some block)
    (hin : 8 * block.toNat + 8 ≤ fs.disk.numberOfSectors.toNat)
    (hoffset : (appendOffset size + sectorRoom (appendOffset size)).toNat < 4096)
    (sector : Option Sector) (buffer : List UInt8) :
    Defined (nextDatablock file fs inode sector size buffer) := by
  refine ⟨_, getDatablock_first file ?_ hoffset hin _⟩
  exact hblock

end Sector

/-! ## The condition -/

section Condition

variable {file : Ext2Node} {fs : Ext2Filesystem} {inode : InodeVar} {sector : Option Sector}
  {size : UInt32} {length : UInt64} {buffer : List UInt8}

-- The sector is filled, and nothing is left for a second iteration.
theorem writeLoopTrace_of_eq (hsize : inode.iSize = some size)
    (hbuffer : buffer.length = length.toNat) (hroom : length = sectorRoom (appendOffset size)) :
    writeLoopTrace file fs inode sector (appendOffset size) length buffer 0 =
      nextDatablock file fs inode sector size buffer >>= fun out ↦
        .ok (out.2.1, out.2.2.1,
          [⟨(appendOffset size % 512).toNat, 0, length.toNat, length, 0⟩]) := by
  have hlen : length ≠ 0 := by
    rw [hroom]
    exact sectorRoom_ne_zero _
  have hle : ¬ sectorRoom (appendOffset size) < length := by
    rw [hroom]
    exact UInt64.lt_irrefl _
  have hcopy : copyToSector sector (appendOffset size % 512).toNat buffer
      (sectorRoom (appendOffset size)).toNat =
        .ok (copied sector buffer (appendOffset size % 512).toNat
          (sectorRoom (appendOffset size)).toNat) :=
    if_pos ⟨Nat.le_of_eq (start_add_room _), by rw [hbuffer, hroom]⟩
  rw [writeLoopTrace_of_le hlen hle, hcopy, ok_bind, hsize, Option.map_some, ← hroom,
    UInt64.sub_self]
  simp only [writeLoopTrace_zero, ok_bind]
  unfold nextDatablock
  simp only [← hroom]

-- What the filled sector adds to the size.
theorem grown_toNat (size : UInt32) (length : UInt64) :
    (size + length.toUInt32).toNat = (size.toNat + length.toNat) % 2 ^ 32 := by
  rw [UInt32.toNat_add, UInt64.toNat_toUInt32]
  omega

theorem writesAll_of_full (hsize : inode.iSize = some size)
    (hbuffer : buffer.length = length.toNat) (hroom : length = sectorRoom (appendOffset size)) :
    WritesAll file fs inode sector size length buffer ↔ size.toNat + length.toNat < 2 ^ 32 ∧
      Defined (nextDatablock file fs inode sector size buffer) := by
  have hrun := @writeLoopTrace_of_eq file fs inode sector size length buffer hsize hbuffer hroom
  have hgrown := grown_toNat size length
  constructor
  · rintro ⟨fs', inode', pieces, htrace, -, -, size', hsize', hgrows⟩
    rw [hrun] at htrace
    rcases bind_eq_ok.mp htrace with ⟨out, hnext, hout⟩
    rw [Except.ok.injEq, Prod.mk.injEq, Prod.mk.injEq] at hout
    have hkept := getDatablock_iSize hnext
    rw [hout.2.1, hsize', ← hroom, Option.some.injEq] at hkept
    rw [hkept, hgrown] at hgrows
    exact ⟨by omega, out, hnext⟩
  · rintro ⟨hfits, out, hnext⟩
    have hkept := getDatablock_iSize hnext
    rw [← hroom] at hkept
    rw [hnext, ok_bind] at hrun
    refine ⟨_, _, _, hrun, ?_, ⟨rfl, rfl, Nat.zero_add _, rfl⟩, size + length.toUInt32, hkept, ?_⟩
    · intro p hp
      rw [List.mem_singleton] at hp
      subst hp
      have hpos : 0 < length := by
        rw [hroom]
        exact UInt64.pos_iff_ne_zero.mpr (sectorRoom_ne_zero _)
      constructor
      case sector => exact hroom ▸ Nat.le_of_eq (start_add_room _)
      case buffer => exact Nat.le_of_eq (by rw [Nat.zero_add, hbuffer])
      case decreases => exact hpos
      case left => rfl
    · rw [hgrown, Nat.mod_eq_of_lt hfits]

/-- The loop does what it should exactly when there is nothing to write, or what there is fills the
sector to its end, the size still fits, and the next block can be looked up. -/
theorem writesAll_iff (hsize : inode.iSize = some size) (hbuffer : buffer.length = length.toNat) :
    WritesAll file fs inode sector size length buffer ↔
      length = 0 ∨ (length = sectorRoom (appendOffset size) ∧
        size.toNat + length.toNat < 2 ^ 32 ∧
        Defined (nextDatablock file fs inode sector size buffer)) := by
  by_cases hlen : length = 0
  · refine iff_of_true ?_ (Or.inl hlen)
    subst hlen
    exact ⟨fs, inode, [], writeLoopTrace_zero, fun p hp ↦ absurd hp List.not_mem_nil, ⟨rfl, rfl⟩,
      size, hsize, rfl⟩
  by_cases hroom : length = sectorRoom (appendOffset size)
  · rw [writesAll_of_full hsize hbuffer hroom]
    constructor
    · exact fun h ↦ Or.inr ⟨hroom, h⟩
    · rintro (hzero | ⟨-, h⟩)
      · exact absurd hzero hlen
      · exact h
  · refine iff_of_false ?_ ?_
    · rintro ⟨fs', inode', pieces, htrace, -⟩
      rw [writeLoopTrace_of_ne hbuffer hlen hroom] at htrace
      cases htrace
    · rintro (hzero | ⟨heq, -⟩)
      · exact hlen hzero
      · exact hroom heq

end Condition

/-! ## The whole write -/

section Write

variable {file : Ext2Node} {fs : Ext2Filesystem} {stack : Ext2Inode} {length : UInt64}
  {buffer : List UInt8}

-- The loop is entered with the size that the stack had.
theorem ext2WriteOn_eq : ext2WriteOn fs (InodeVar.holding stack) file length buffer =
    getDatablock fs file (ext2FillInode fs (InodeVar.holding stack) file.entry.inode)
      (appendOffset stack.iSize) none >>= fun out ↦
        writeLoop file out.2.1 out.2.2.1 out.2.2.2 (appendOffset stack.iSize) length buffer >>=
          fun r ↦ .ok (0, r.1) := by
  have hsize : (ext2FillInode fs (InodeVar.holding stack) file.entry.inode).iSize =
      some stack.iSize := ext2FillInode_iSize _ _ _
  unfold ext2WriteOn
  simp only [hsize, determinate_some, ok_bind]
  rfl

/-- Where the first block is found and the loop does what it should, the write succeeds. -/
theorem ext2WriteOn_success {out : UInt32 × Ext2Filesystem × InodeVar × Option Sector}
    (hget : getDatablock fs file (ext2FillInode fs (InodeVar.holding stack) file.entry.inode)
      (appendOffset stack.iSize) none = .ok out)
    (hwrites : WritesAll file out.2.1 out.2.2.1 out.2.2.2 stack.iSize length buffer) :
    out.2.2.1.iSize = some stack.iSize ∧
      ∃ fs', ext2WriteOn fs (InodeVar.holding stack) file length buffer = .ok (0, fs') := by
  rcases hwrites.writeLoop with ⟨fs', inode', size', hloop, -⟩
  refine ⟨(getDatablock_iSize hget).trans (ext2FillInode_iSize _ _ _), fs', ?_⟩
  rw [ext2WriteOn_eq, hget, ok_bind, hloop, ok_bind]

end Write

/-! ## A file of one block -/

def appendFs : Ext2Filesystem := ⟨(zeroedDisk 262144).newSb, zeroedDisk 262144⟩

/-- A file of that size, in block 100. -/
def appendInode (size : UInt32) : InodeVar :=
  InodeVar.holding
    { Ext2Inode.zero with
      iSize := size
      iBlocks := 1
      iBlock := (Vector.replicate 15 0).set 0 100 pointer_lt }

/-- 512 bytes appended to a file of 511 bytes, whose next byte is the first of a sector. -/
theorem writesAll_sector : (appendInode 511).iSize = some 511 ∧
    (List.replicate 512 (0x58 : UInt8)).length = (512 : UInt64).toNat ∧
    WritesAll rootNode appendFs (appendInode 511) (some zeroSector) 511 512
      (List.replicate 512 0x58) := by
  have hbuffer : (List.replicate 512 (0x58 : UInt8)).length = (512 : UInt64).toNat :=
    List.length_replicate
  have hroom : (512 : UInt64) = sectorRoom (appendOffset 511) := by decide
  have hblock : getElem (appendInode 511).iBlock 0 pointer_lt = some 100 := by
    simp [appendInode, InodeVar.holding]
  have hin : 8 * (100 : UInt32).toNat + 8 ≤ appendFs.disk.numberOfSectors.toNat := by decide
  have hoffset : (appendOffset 511 + sectorRoom (appendOffset 511)).toNat < 4096 := by decide
  have hnext := nextDatablock_first rootNode hblock hin hoffset (some zeroSector)
    (List.replicate 512 0x58)
  exact ⟨rfl, hbuffer, (writesAll_iff rfl hbuffer).mpr (Or.inr ⟨hroom, by decide, hnext⟩)⟩

/-- One byte, and a whole sector, appended to an empty file: the room in the sector is 511 bytes. -/
theorem not_writesAll :
    ¬ WritesAll rootNode appendFs (appendInode 0) (some zeroSector) 0 1 [0x58] ∧
    ¬ WritesAll rootNode appendFs (appendInode 0) (some zeroSector) 0 512
      (List.replicate 512 0x58) := by
  have hone : (1 : UInt64) ≠ sectorRoom (appendOffset 0) := by decide
  have hbuffer : (List.replicate 512 (0x58 : UInt8)).length = (512 : UInt64).toNat :=
    List.length_replicate
  have hsector : (512 : UInt64) ≠ sectorRoom (appendOffset 0) := by decide
  constructor
  · rintro ⟨fs', inode', pieces, htrace, -⟩
    rw [writeLoopTrace_of_ne rfl (by decide) hone] at htrace
    cases htrace
  · rintro ⟨fs', inode', pieces, htrace, -⟩
    rw [writeLoopTrace_of_ne hbuffer (by decide) hsector] at htrace
    cases htrace

end Ext2Fs
