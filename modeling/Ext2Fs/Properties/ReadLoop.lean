import Ext2Fs.Model.File
import Ext2Fs.Properties.BlockMapping

/-!
# The read loop

`ext2_read` on a file of any size.  The end of the file is taken from the variable `inode` as the
stack had it, and the first iteration divides by the value of a comparison that is false.
-/

open Reasoning

namespace Ext2Fs

/-! ## The property -/

theorem sectorByte_lt (k : Nat) : k % 512 < 512 := Nat.mod_lt k (by decide)

/-- Byte `k` of a file with these block pointers. -/
def fileByte (disk : DiskOperations) (iBlock : Vector UInt32 15) (k : Nat) : UInt8 :=
  getElem (disk.content (8 * (standardBlock disk iBlock (k / 4096)).toNat + k % 4096 / 512))
    (k % 512) (sectorByte_lt k)

/-- The bytes of the descriptor and of the record that `ext2_fill_inode` reads for inode `n` lie in
the buffers of one sector. -/
def FillsInside (n : UInt32) : Prop :=
  (∀ i < 32, 32 * (n.toNat / 1024) + i < 512) ∧ ∀ i < 128, 128 * (n.toNat % 1024) + i < 512

section Statement

variable (fs : Ext2Filesystem) (stack : Ext2Inode) (file : Ext2Node) (offset length : UInt64)

/-- How many bytes there are in the range, of a file of that size. -/
def bytesInRange (size : Nat) : Nat := min (offset.toNat + length.toNat) size - offset.toNat

/-- The read has defined behaviour and stays inside its buffers; it is refused from the end of the
file on and for no bytes, and otherwise it delivers the bytes of the file in that range.  The
variable `inode` of `ext2_read` lies where memory held `stack`. -/
def ReadsFile : Prop :=
  let inode := recordedInode fs file.entry.inode
  FillsInside file.entry.inode ∧
  ∃ r printed fs', ext2ReadOn fs (InodeVar.holding stack) file offset length =
      .ok (r, printed, fs') ∧
    if inode.iSize.toNat ≤ offset.toNat ∨ length = 0 then r = ext2Error
    else r = (bytesInRange offset length inode.iSize.toNat : Int) ∧
      printed = (List.range' offset.toNat (bytesInRange offset length inode.iSize.toNat)).map
        (fileByte fs.disk inode.iBlock)

end Statement

/-! ## The loop -/

section Loop

variable (file : Ext2Node) (st : ReadState)

-- The divisor is the value of `MAX_SECTOR_SIZE == 0`.
theorem readStep_divides (i : Nat) : readStep file st i = .error .divisionByZero := rfl

theorem readLoop_divides {n : Nat} (hn : 0 < n) :
    forEach (readStep file) st (List.range n) = .error .divisionByZero := by
  obtain ⟨m, rfl⟩ : ∃ m, n = m + 1 := ⟨n - 1, by omega⟩
  rw [List.range_succ_eq_map, forEach_cons, readStep_divides, error_bind]

end Loop

/-! ## The range -/

section Range

variable {fs : Ext2Filesystem} {stack : Ext2Inode} {file : Ext2Node} {offset length : UInt64}

theorem readEnd_toNat (offset length : UInt64) (size : UInt32) :
    (readEnd offset length size).toNat =
      min ((offset.toNat + length.toNat) % 2 ^ 64) size.toNat := by
  have hsize := size.toNat_lt
  have hsum : (offset + length).toNat = (offset.toNat + length.toNat) % 2 ^ 64 :=
    UInt64.toNat_add offset length
  change (if offset + length ≤ size.toUInt64 then offset + length
    else size.toUInt64).toUInt32.toNat = _
  rw [UInt64.toNat_toUInt32]
  split
  · rename_i hle
    rw [UInt64.le_iff_toNat_le, UInt32.toNat_toUInt64] at hle
    omega
  · rename_i hle
    rw [UInt64.le_iff_toNat_le, UInt32.toNat_toUInt64] at hle
    rw [UInt32.toNat_toUInt64]
    omega

-- The sum wraps around, or ends before the size that the stack had.
theorem readEnd_le_iff : (readEnd offset length stack.iSize).toUInt64 ≤ offset ↔
    length = 0 ∨ stack.iSize.toNat ≤ offset.toNat ∨
      2 ^ 64 ≤ offset.toNat + length.toNat := by
  have hoffset := offset.toNat_lt
  have hlength := length.toNat_lt
  have hzero : length = 0 ↔ length.toNat = 0 := by rw [← UInt64.toNat_inj]; rfl
  rw [UInt64.le_iff_toNat_le, UInt32.toNat_toUInt64, readEnd_toNat, hzero]
  omega

/-- The `length` of the loop, cut off at the end of the file. -/
def readLength (offset length : UInt64) (size : UInt32) : UInt64 :=
  if readEnd offset length size = size then size.toUInt64 - offset else length

theorem readLength_pos {size : UInt32} (h : ¬ (readEnd offset length size).toUInt64 ≤ offset) :
    0 < (readLength offset length size).toNat := by
  have hend := readEnd_toNat offset length size
  rw [UInt64.le_iff_toNat_le, UInt32.toNat_toUInt64] at h
  unfold readLength
  split
  · rename_i hsize
    rw [hsize] at h
    have hle : offset ≤ size.toUInt64 := by
      rw [UInt64.le_iff_toNat_le, UInt32.toNat_toUInt64]
      omega
    rw [UInt64.toNat_sub_of_le _ _ hle, UInt32.toNat_toUInt64]
    omega
  · have hoffset := offset.toNat_lt
    by_contra hzero
    omega

-- The size is the one that the stack had; `ext2_fill_inode` does not change it.
theorem ext2ReadOn_eq : ext2ReadOn fs (InodeVar.holding stack) file offset length =
    if (readEnd offset length stack.iSize).toUInt64 ≤ offset then .ok (ext2Error, [], fs)
    else getDatablock fs file (ext2FillInode fs (InodeVar.holding stack) file.entry.inode) offset
      none >>= fun _ ↦ .error .divisionByZero := by
  have hsize : (ext2FillInode fs (InodeVar.holding stack) file.entry.inode).iSize =
      some stack.iSize := ext2FillInode_iSize _ _ _
  unfold ext2ReadOn
  simp only [hsize, refusesRead, determinate_some, ok_bind, decide_eq_true_eq]
  split
  · rfl
  · rename_i hgt
    apply bind_congr_ok
    intro out _
    change forEach (readStep file) _ (List.range (readLength offset length stack.iSize).toNat) >>=
      _ = _
    rw [readLoop_divides file _ (readLength_pos hgt), error_bind]

end Range

/-! ## The condition -/

section Condition

variable {fs : Ext2Filesystem} {stack : Ext2Inode} {file : Ext2Node} {offset length : UInt64}

-- No read is completed: the loop does not get past its first iteration.
theorem ext2ReadOn_ok {r : Int} {printed : List UInt8} {fs' : Ext2Filesystem}
    (h : ext2ReadOn fs (InodeVar.holding stack) file offset length = .ok (r, printed, fs')) :
    (readEnd offset length stack.iSize).toUInt64 ≤ offset ∧ r = ext2Error := by
  rw [ext2ReadOn_eq] at h
  split at h
  · rename_i hle
    rw [Except.ok.injEq, Prod.mk.injEq] at h
    exact ⟨hle, h.1.symm⟩
  · rcases bind_eq_ok.mp h with ⟨out, -, herror⟩
    cases herror

theorem fillsInside_iff (n : UInt32) :
    FillsInside n ↔ n.toNat / 1024 < 16 ∧ n.toNat % 1024 < 4 := by
  constructor
  · rintro ⟨hdesc, hrecord⟩
    have hfirst := hdesc 0 (by decide)
    have hfirst' := hrecord 0 (by decide)
    omega
  · rintro ⟨hgroup, hslot⟩
    exact ⟨fun i hi ↦ by omega, fun i hi ↦ by omega⟩

/-- A read is right exactly when the inode is one of the first four of a group, there is nothing to
read, and the range does not begin before the size that the stack had, or wraps around. -/
theorem readsFile_iff : ReadsFile fs stack file offset length ↔
    (file.entry.inode.toNat / 1024 < 16 ∧ file.entry.inode.toNat % 1024 < 4) ∧
    (length = 0 ∨ ((recordedInode fs file.entry.inode).iSize.toNat ≤ offset.toNat ∧
      (stack.iSize.toNat ≤ offset.toNat ∨ 2 ^ 64 ≤ offset.toNat + length.toNat))) := by
  rw [← fillsInside_iff]
  unfold ReadsFile
  constructor
  · rintro ⟨hinside, r, printed, fs', hrun, hresult⟩
    refine ⟨hinside, ?_⟩
    rcases ext2ReadOn_ok hrun with ⟨hend, herror⟩
    rw [readEnd_le_iff] at hend
    split at hresult
    · rename_i hnothing
      rcases hnothing with hsize | hzero
      · rcases hend with hzero | hrange
        · exact Or.inl hzero
        · exact Or.inr ⟨hsize, hrange⟩
      · exact Or.inl hzero
    · -- a number of bytes is not the error code
      rw [herror, ext2Error] at hresult
      omega
  · rintro ⟨hinside, h⟩
    have hend : (readEnd offset length stack.iSize).toUInt64 ≤ offset := by
      rw [readEnd_le_iff]
      rcases h with hzero | ⟨-, hrange⟩
      · exact Or.inl hzero
      · exact Or.inr hrange
    refine ⟨hinside, ext2Error, [], fs, by rw [ext2ReadOn_eq, if_pos hend], ?_⟩
    rw [if_pos]
    rcases h with hzero | ⟨hsize, -⟩
    · exact Or.inr hzero
    · exact Or.inl hsize

end Condition

/-! ## A file of one byte -/

/-- The inode of a file of one byte, in block 40000. -/
def byteInode : Ext2Inode :=
  { Ext2Inode.zero with
    iMode := attrArchive
    iSize := 1
    iBlocks := 1
    iBlock := (Vector.replicate 15 0).set 0 40000 pointer_lt }

/-- Two groups; the second inode of the second one is that of the file. -/
def byteFs : Ext2Filesystem where
  spb := (zeroedDisk 524288).newSb
  disk := DiskOperations.ofContents 524288 fun x ↦
    if x = 8 then asDescs.symm (Vector.replicate 16 newDesc)
    else if x = 262144 + 32 then asInodes.symm (Vector.replicate 4 byteInode)
    else if x = 8 * 40000 then Vector.replicate 512 0x58
    else zeroSector

def byteFile : Ext2Node := ⟨{ Ext2DirEntry.zero with inode := 1025 }, 0⟩

theorem recordedTable_byteFs : recordedTable byteFs 1025 = 4 := by
  have hdescs : asDescs (byteFs.disk.content 8) = Vector.replicate 16 newDesc :=
    Equiv.apply_symm_apply asDescs _
  rw [recordedTable]
  simp only [show 8 + (1025 : UInt32).toNat / 1024 / 16 = 8 from rfl, hdescs,
    Vector.getElem_replicate]
  rfl

theorem recordedInode_byteFs : recordedInode byteFs 1025 = byteInode := by
  have hinodes : asInodes (byteFs.disk.content (262144 + 32)) = Vector.replicate 4 byteInode :=
    Equiv.apply_symm_apply asInodes _
  have haddr : 262144 * ((1025 : UInt32).toNat / 1024) + 8 * recordedTable byteFs 1025 +
      (1025 : UInt32).toNat % 1024 / 4 = 262144 + 32 := by rw [recordedTable_byteFs]; rfl
  rw [recordedInode]
  simp only [haddr, hinodes, Vector.getElem_replicate]

theorem inodeEntry_byteFs : inodeEntry byteFs 1025 = some byteInode := by
  have hentry := @inodeEntry_recorded byteFs 1025 rfl (Nat.le_of_eq rfl)
    (by rw [recordedTable_byteFs]; decide) (by decide) (by decide)
  rw [hentry, recordedInode_byteFs]

/-- One byte is to be read, and `inode.i_size` happens to hold the size of the file. -/
theorem not_readsFile : (recordedInode byteFs 1025).iSize = 1 ∧
    ext2ReadOn byteFs (InodeVar.holding byteInode) byteFile 0 1 = .error .divisionByZero ∧
    ¬ ReadsFile byteFs byteInode byteFile 0 1 := by
  have hrun : ext2ReadOn byteFs (InodeVar.holding byteInode) byteFile 0 1 =
      .error .divisionByZero := by
    have hfill := ext2FillInode_some inodeEntry_byteFs (InodeVar.holding byteInode)
    have hblock : getElem byteInode.iBlock 0 pointer_lt = 40000 := by decide
    have hin : 8 * (40000 : UInt32).toNat + 8 ≤ byteFs.disk.numberOfSectors.toNat := by decide
    have hget := getDatablock_first byteFile (hblock ▸ hfill.iBlock)
      (show (0 : UInt64).toNat < 4096 by decide) hin none
    have hend : ¬ (readEnd 0 1 byteInode.iSize).toUInt64 ≤ 0 := by decide
    rw [ext2ReadOn_eq, if_neg hend]
    change getDatablock byteFs byteFile (ext2FillInode byteFs _ 1025) 0 none >>= _ = _
    rw [hget, ok_bind]
  refine ⟨by rw [recordedInode_byteFs]; rfl, hrun, ?_⟩
  rintro ⟨-, r, printed, fs', hok, -⟩
  rw [hrun] at hok
  cases hok

end Ext2Fs
