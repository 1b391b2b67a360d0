import Ext2Fs.Model.Inode

/-!
# File contents (ext2.c: ext2_write, ext2_read)

`unsigned long` has 64 bits.
-/

open Reasoning

namespace Ext2Fs

/-! ## ext2_write -/

/-- `memcpy(&sector[start], buffer, count)`. -/
def copyToSector (sector : Option Sector) (start : Nat) (buffer : List UInt8) (count : Nat) :
    Exec (Option Sector) :=
  if start + count ≤ 512 ∧ count ≤ buffer.length then
    .ok (sector.map fun s ↦ Vector.ofFn fun i ↦
      if start ≤ i.val ∧ i.val < start + count then buffer.getD (i.val - start) 0 else s[i.val])
  else .error .outOfBounds

/-- What is left of the current sector at `offset`. -/
def sectorRoom (offset : UInt64) : UInt64 := 512 - offset % 512

/-- How many iterations of the loop of `ext2_write` are possible: a remainder that does not exceed
the room either becomes zero or wraps to a value that exceeds every room. -/
def writeMeasure (offset length : UInt64) : Nat :=
  if length = 0 then 0 else if sectorRoom offset < length then 1 else 2

theorem sectorRoom_toNat (offset : UInt64) :
    (sectorRoom offset).toNat = 512 - offset.toNat % 512 := by
  have h : (offset % 512).toNat = offset.toNat % 512 := UInt64.toNat_mod ..
  unfold sectorRoom
  rw [UInt64.toNat_sub_of_le, h]
  · rfl
  · rw [UInt64.le_iff_toNat_le, h]
    exact Nat.le_of_lt (Nat.mod_lt _ (by decide))

theorem writeMeasure_lt {offset length : UInt64} (hlen : length ≠ 0)
    (hroom : ¬ sectorRoom offset < length) :
    writeMeasure (offset + sectorRoom offset) (length - sectorRoom offset) <
      writeMeasure offset length := by
  have hr := sectorRoom_toNat offset
  have hr' := sectorRoom_toNat (offset + sectorRoom offset)
  have hlt := length.toNat_lt
  rw [UInt64.lt_iff_toNat_lt, hr] at hroom
  rw [show writeMeasure offset length = 2 by
    unfold writeMeasure
    rw [if_neg hlen, if_neg (by rw [UInt64.lt_iff_toNat_lt, hr]; exact hroom)]]
  unfold writeMeasure
  split
  · omega
  · rename_i hne
    rw [if_pos]
    · omega
    · have hsub : (length - sectorRoom offset).toNat =
          (2 ^ 64 - (sectorRoom offset).toNat + length.toNat) % 2 ^ 64 := UInt64.toNat_sub ..
      have hne' : (length - sectorRoom offset).toNat ≠ 0 := fun h ↦
        hne (UInt64.toNat_inj.mp (by simpa using h))
      rw [UInt64.lt_iff_toNat_lt, hr']
      omega

/-- One `memcpy` of the loop: where it writes in `sector`, where it reads in the caller's buffer,
how many bytes, and `length` before and after the iteration. -/
structure WritePiece where
  start : Nat
  source : Nat
  count : Nat
  before : UInt64
  after : UInt64

/-- The `while` loop of `ext2_write`, with the pieces that it copies; `buffer` has moved on by
`source`.  Nothing in it goes back to the disk. -/
def writeLoopTrace (file : Ext2Node) (fs : Ext2Filesystem) (inode : InodeVar)
    (sector : Option Sector) (offset length : UInt64) (buffer : List UInt8) (source : Nat) :
    Exec (Ext2Filesystem × InodeVar × List WritePiece) :=
  if _hlen : length = 0 then .ok (fs, inode, [])
  else
    let start := (offset % 512).toNat
    let room := sectorRoom offset
    if _hroom : room < length then do
      let _sector ← copyToSector sector start buffer length.toNat
      let inode := { inode with iSize := inode.iSize.map (· + length.toUInt32) }
      return (fs, inode, [⟨start, source, length.toNat, length, 0⟩])
    else do
      let sector ← copyToSector sector start buffer room.toNat
      let inode := { inode with iSize := inode.iSize.map (· + room.toUInt32) }
      let (_, fs, inode, sector) ← getDatablock fs file inode (offset + room) sector
      let (fs, inode, pieces) ← writeLoopTrace file fs inode sector (offset + room)
        (length - room) (buffer.drop room.toNat) (source + room.toNat)
      return (fs, inode, ⟨start, source, room.toNat, length, length - room⟩ :: pieces)
  termination_by writeMeasure offset length
  decreasing_by exact writeMeasure_lt _hlen _hroom

def writeLoop (file : Ext2Node) (fs : Ext2Filesystem) (inode : InodeVar) (sector : Option Sector)
    (offset length : UInt64) (buffer : List UInt8) : Exec (Ext2Filesystem × InodeVar) := do
  let (fs, inode, _) ← writeLoopTrace file fs inode sector offset length buffer 0
  return (fs, inode)

/-- `ext2_write` when its variable `inode` starts out with the given contents: the return code and
the file system afterwards.  The caller's `offset` is overwritten before it is used. -/
def ext2WriteOn (fs : Ext2Filesystem) (inode : InodeVar) (file : Ext2Node) (length : UInt64)
    (buffer : List UInt8) : Exec (Int × Ext2Filesystem) := do
  let inode := ext2FillInode fs inode file.entry.inode
  let size ← determinate inode.iSize
  let offset := (size + 1).toUInt64
  let (_, fs, inode, sector) ← getDatablock fs file inode offset none
  let (fs, _) ← writeLoop file fs inode sector offset length buffer
  return (0, fs)

def ext2Write (fs : Ext2Filesystem) (file : Ext2Node) (_offset length : UInt64)
    (buffer : List UInt8) : Exec (Int × Ext2Filesystem) :=
  ext2WriteOn fs InodeVar.uninit file length buffer

/-! ## ext2_read -/

/-- The variables of the loop of `ext2_read`, with what it has printed. -/
structure ReadState where
  fs : Ext2Filesystem
  inode : InodeVar
  sector : Option Sector
  offset : UInt64
  sectorOffset : UInt32
  printed : List UInt8

/-- `a % b` on `unsigned long`. -/
def remainder (a b : UInt64) : Exec UInt64 :=
  if b = 0 then .error .divisionByZero else .ok (a % b)

/-- Iteration `i` of the loop of `ext2_read`. -/
def readStep (file : Ext2Node) (st : ReadState) (i : Nat) : Exec ReadState := do
  -- `offset %= MAX_SECTOR_SIZE == 0` divides by the value of the comparison
  let offset ← remainder (st.offset + UInt64.ofNat i) (if maxSectorSize = 0 then 1 else 0)
  let st := { st with offset := offset }
  let st ← if offset ≠ 0 then
      if (st.sectorOffset + 1) % sectorsPerBlock ≠ 0 then
        pure { st with
          sectorOffset := st.sectorOffset + 1
          sector := (st.fs.disk.readSector (st.sectorOffset + 1) st.sector).2 }
      else do
        let (block, fs, inode, sector) ← getDatablock st.fs file st.inode offset st.sector
        pure { st with
          fs := fs
          inode := inode
          sector := sector
          sectorOffset := block * sectorsPerBlock + (offset / 512).toUInt32 }
    else pure st
  let sector ← determinate st.sector
  match sector[(offset % 512).toNat + i]? with
  | some byte => return { st with printed := st.printed ++ [byte] }
  | none => .error .outOfBounds

/-- `MIN(offset + length, inode.i_size)` as it is stored in `readEnd`. -/
def readEnd (offset length : UInt64) (size : UInt32) : UInt32 :=
  (min (offset + length) size.toUInt64).toUInt32

/-- `readEnd <= offset`.  Of a size that was never filled in the outcome is known when it is the same
for every size, and so when the largest one is refused. -/
def refusesRead (offset length : UInt64) : Option UInt32 → Exec Bool
  | some size => .ok (decide ((readEnd offset length size).toUInt64 ≤ offset))
  | none =>
    if (readEnd offset length 0xFFFFFFFF).toUInt64 ≤ offset then .ok true
    else .error .indeterminate

/-- `ext2_read` when its variable `inode` starts out with the given contents: the return value, the
characters it prints (the caller's buffer is not written) and the file system afterwards. -/
def ext2ReadOn (fs : Ext2Filesystem) (inode : InodeVar) (file : Ext2Node)
    (offset length : UInt64) : Exec (Int × List UInt8 × Ext2Filesystem) := do
  let inode := ext2FillInode fs inode file.entry.inode
  let refused ← refusesRead offset length inode.iSize
  if refused then return (ext2Error, [], fs)
  let size ← determinate inode.iSize
  let length := if readEnd offset length size = size then size.toUInt64 - offset else length
  let (block, fs, inode, sector) ← getDatablock fs file inode offset none
  let st ← forEach (readStep file)
    ⟨fs, inode, sector, offset, block * sectorsPerBlock + (offset / 512).toUInt32, []⟩
    (List.range length.toNat)
  return ((length.toNat : Int), st.printed, st.fs)

def ext2Read (fs : Ext2Filesystem) (file : Ext2Node) (offset length : UInt64) :
    Exec (Int × List UInt8 × Ext2Filesystem) :=
  ext2ReadOn fs InodeVar.uninit file offset length

end Ext2Fs
