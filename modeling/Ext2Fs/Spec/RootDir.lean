import Ext2Fs.Spec.BlockWalk
import Ext2Fs.Spec.Lookup

/-!
# Directories as ext2_lookup reads them

On a disk of at most sixteen groups the root directory is the block 36, whose eight sectors hold
128 slots.  No other directory can be read: its inode number is outside the sector that
`ext2_fill_inode` loads.
-/

open Reasoning

namespace Ext2Fs

/-! ## The slots of a directory -/

/-- The entries of the sectors that the loops of `ext2_lookup` load. -/
def readSlots (parent : Ext2Node) : Ext2Filesystem → InodeVar → Option Sector → List (Nat × Nat) →
    Exec (List Ext2DirEntry)
  | _, _, _, [] => .ok []
  | fs, inode, buf, (i, j) :: rest => do
    let offset := (UInt32.ofNat i * sectorsPerBlock + UInt32.ofNat j) * maxSectorSize
    let (_, fs, inode, buf) ← getDatablock fs parent inode offset.toUInt64 buf
    let sector ← determinate buf
    let slots ← readSlots parent fs inode buf rest
    return (asEntries sector).toList ++ slots

/-- The slots of a directory, in the order in which `ext2_lookup` goes through them. -/
def dirSlots (fs : Ext2Filesystem) (parent : Ext2Node) : Exec (List Ext2DirEntry) := do
  let inode := ext2FillInode fs InodeVar.uninit parent.entry.inode
  let blocks ← determinate inode.iBlocks
  readSlots parent fs inode none (sectorPairs blocks.toNat)

section Unreadable

variable {fs : Ext2Filesystem} {parent : Ext2Node}

-- The inode of the directory is read from outside the sector buffer.
theorem ext2Lookup_unreadable (h : inodeEntry fs parent.entry.inode = none) (name : List UInt8)
    (location : Option EntryLocation) :
    ext2Lookup fs parent name location = .error .indeterminate := by
  rw [ext2Lookup, ext2FillInode_none h]
  rfl

theorem dirSlots_unreadable (h : inodeEntry fs parent.entry.inode = none) :
    dirSlots fs parent = .error .indeterminate := by
  rw [dirSlots, ext2FillInode_none h]
  rfl

-- The loops make no iteration, and the function ends without a `return`.
theorem ext2Lookup_noBlocks {entry : Ext2Inode} (h : inodeEntry fs parent.entry.inode = some entry)
    (hblocks : entry.iBlocks = 0) (name : List UInt8) (location : Option EntryLocation) :
    ext2Lookup fs parent name location = .ok ⟨none, location, fs⟩ := by
  have hfill := (ext2FillInode_some h InodeVar.uninit).iBlocks
  rw [hblocks] at hfill
  rw [ext2Lookup, hfill, determinate_some, ok_bind]
  rfl

end Unreadable

/-! ## A directory of one block -/

section OneBlock

variable {fs : Ext2Filesystem} (file : Ext2Node) {inode : InodeVar} {block : UInt32}

-- A sector of the first block.
theorem getDatablock_first (hblock : getElem inode.iBlock 0 pointer_lt = some block)
    {offset : UInt64} (hoff : offset.toNat < 4096)
    (hin : 8 * block.toNat + 8 ≤ fs.disk.numberOfSectors.toNat) (buf : Option Sector) :
    getDatablock fs file inode offset buf = .ok (block, fs, inode,
      some (fs.disk.content (8 * block.toNat + offset.toNat / 512))) := by
  have hzero : (offset / 4096).toUInt32 = 0 := by
    apply UInt32.toNat_inj.mp
    simp
    omega
  have haddr : ((block * sectorsPerBlock).toUInt64 + offset / 512).toUInt32.toNat =
      8 * block.toNat + offset.toNat / 512 := by
    have hlt := fs.disk.numberOfSectors.toNat_lt
    simp
    omega
  have htarget : ∀ sector, BlockWalk.target ⟨fs, inode, sector, .inode 0⟩ = some block := by
    intro sector
    simp [BlockWalk.target, hblock]
  have hread := DiskOperations.readSector_eq buf haddr
    (show _ < fs.disk.numberOfSectors.toNat by omega) rfl
  rw [getDatablock_near file (by rw [hzero]; decide), hzero]
  change BlockWalk.finish ⟨fs, inode, buf, .inode 0⟩ offset = _
  unfold BlockWalk.finish
  rw [htarget, determinate_some, ok_bind]
  simp only [hread, htarget, determinate_some, ok_bind]
  rfl

/-- Slot `t` of a directory whose block is `block`. -/
def blockSlot (disk : DiskOperations) (block t : Nat) : Ext2DirEntry :=
  getElem (asEntries (disk.content (8 * block + t / 16))) (t % 16) (record_lt t)

theorem blockSlot_eq {disk : DiskOperations} {block t : Nat} {s : Sector}
    (hs : disk.content (8 * block + t / 16) = s) :
    blockSlot disk block t = getElem (asEntries s) (t % 16) (record_lt t) := by
  subst hs
  rfl

theorem toList_asEntries (disk : DiskOperations) (block j : Nat) :
    (asEntries (disk.content (8 * block + j))).toList =
      (List.range' (16 * j) 16).map (blockSlot disk block) := by
  apply List.ext_getElem
  · simp
  · intro k h₁ h₂
    have hk : k < 16 := by simpa using h₁
    have hdiv : (16 * j + k) / 16 = j := by omega
    have hmod : (16 * j + k) % 16 = k := by omega
    simp [blockSlot, hdiv, hmod]

/-- What `ext2_lookup` makes of the outcome of its scan. -/
def EntryScan.result (fs : Ext2Filesystem) (block : UInt32) (location : Option EntryLocation) :
    EntryScan → LookupResult
  | .found k => ⟨some ext2Success, some ⟨block, UInt32.ofNat k⟩, fs⟩
  | .noMore => ⟨some ext2Error, location, fs⟩
  | .next => ⟨none, location, fs⟩

/-- The same while there are sectors left, with what their scan comes to. -/
def EntryScan.resultOr (fs : Ext2Filesystem) (block : UInt32) (location : Option EntryLocation)
    (later : Exec LookupResult) : EntryScan → Exec LookupResult
  | .next => later
  | .found k => .ok ((EntryScan.found k).result fs block location)
  | .noMore => .ok (EntryScan.noMore.result fs block location)

variable (hblock : getElem inode.iBlock 0 pointer_lt = some block)
  (hin : 8 * block.toNat + 8 ≤ fs.disk.numberOfSectors.toNat)

include hblock hin

-- Sector `j` of the first block, as the loops of `ext2_lookup` load it.
theorem getDatablock_sector {j : Nat} (hj : j < 8) (buf : Option Sector) :
    getDatablock fs file inode
      ((UInt32.ofNat 0 * sectorsPerBlock + UInt32.ofNat j) * maxSectorSize).toUInt64 buf =
        .ok (block, fs, inode, some (fs.disk.content (8 * block.toNat + j))) := by
  have hoff : ((UInt32.ofNat 0 * sectorsPerBlock + UInt32.ofNat j) *
      maxSectorSize).toUInt64.toNat = 512 * j := by
    simp
    omega
  rw [getDatablock_first file hblock (by omega) hin, hoff, Nat.mul_div_cancel_left j (by decide)]

theorem readSlots_block (n j : Nat) (hj : j + n = 8) (buf : Option Sector) :
    readSlots file fs inode buf ((List.range' j n).map fun j ↦ (0, j)) =
      .ok ((List.range' (16 * j) (16 * n)).map (blockSlot fs.disk block.toNat)) := by
  induction n generalizing j buf with
  | zero => rfl
  | succ n ih =>
    have hrest := ih (j + 1) (by omega)
    rw [List.range'_succ, List.map_cons, readSlots]
    simp only [getDatablock_sector file hblock hin (show j < 8 by omega), ok_bind,
      determinate_some]
    rw [hrest, ok_bind, toList_asEntries, pure_eq_ok, ← List.map_append]
    rw [Nat.mul_add 16 j 1, Nat.mul_add 16 n 1, Nat.add_comm (16 * n), List.range'_append_1]

-- The sectors scanned one after the other are the slots scanned in one go; what follows is reached
-- with the last of them in the buffer.
theorem lookupSectors_block_append (name : List UInt8) (n j : Nat) (hj : j + n = 8)
    (location : Option EntryLocation) (buf : Option Sector) (rest : List (Nat × Nat)) :
    ∃ buf', lookupSectors file name location fs inode buf
      ((List.range' j n).map (fun j ↦ (0, j)) ++ rest) =
        scanEntries name ((List.range' (16 * j) (16 * n)).map (blockSlot fs.disk block.toNat)) (16 * j)
          >>= EntryScan.resultOr fs block location
            (lookupSectors file name location fs inode buf' rest) := by
  induction n generalizing j buf with
  | zero => exact ⟨buf, rfl⟩
  | succ n ih =>
    rcases ih (j + 1) (by omega) (some (fs.disk.content (8 * block.toNat + j))) with ⟨buf', hrest⟩
    have hslots : (List.range' (16 * j) (16 * (n + 1))).map (blockSlot fs.disk block.toNat) =
        (asEntries (fs.disk.content (8 * block.toNat + j))).toList ++
          (List.range' (16 * (j + 1)) (16 * n)).map (blockSlot fs.disk block.toNat) := by
      rw [toList_asEntries, ← List.map_append, Nat.mul_add 16 j 1, Nat.mul_add 16 n 1,
        Nat.add_comm (16 * n), List.range'_append_1]
    have hshift := scanEntries_shift name
      (asEntries (fs.disk.content (8 * block.toNat + j))).toList (16 * j) 0
    rw [Nat.add_zero] at hshift
    refine ⟨buf', ?_⟩
    rw [List.range'_succ, List.map_cons, List.cons_append, lookupSectors]
    simp only [getDatablock_sector file hblock hin (show j < 8 by omega), ok_bind,
      determinate_some]
    rw [hslots, scanEntries_append, hshift]
    cases scanEntries name (asEntries (fs.disk.content (8 * block.toNat + j))).toList 0 with
    | error u => rfl
    | ok r =>
      simp only [ok_bind]
      cases r with
      | found k =>
        have hnum : UInt32.ofNat j * maxSectorSize / 32 + UInt32.ofNat k =
            UInt32.ofNat (16 * j + k) := by
          apply UInt32.toNat_inj.mp
          simp
          omega
        simp only [hnum]
        rfl
      | noMore => rfl
      | next =>
        simp only [EntryScan.shift]
        rw [hrest]
        simp [Nat.mul_add]

theorem lookupSectors_block (name : List UInt8) (n j : Nat) (hj : j + n = 8)
    (location : Option EntryLocation) (buf : Option Sector) :
    lookupSectors file name location fs inode buf ((List.range' j n).map fun j ↦ (0, j)) =
      scanEntries name ((List.range' (16 * j) (16 * n)).map (blockSlot fs.disk block.toNat)) (16 * j)
        >>= fun r ↦ .ok (r.result fs block location) := by
  rcases lookupSectors_block_append file hblock hin name n j hj location buf [] with ⟨buf', h⟩
  rw [List.append_nil] at h
  rw [h]
  apply bind_congr_ok
  intro r _
  cases r with
  | found k => rfl
  | noMore => rfl
  | next => rfl

end OneBlock

/-! ## The root -/

/-- The root's inode is where a disk of at most sixteen groups has it. -/
structure RootAt (fs : Ext2Filesystem) : Prop where
  firstDataBlock : fs.spb.sFirstDataBlock = 0
  groups_pos : 1 ≤ fs.disk.groups
  table : (getElem fs.descs 0 firstRecord_lt).bgInodeTable = 4
  rootInode : fs.disk.content 32 = rootInodeSector 36

/-- The slots of the root directory. -/
def rootSlots (disk : DiskOperations) : List Ext2DirEntry :=
  (List.range 128).map (blockSlot disk 36)

namespace RootAt

variable {fs : Ext2Filesystem} (h : RootAt fs) {parent : Ext2Node} (hroot : parent.entry.inode = 2)

include h

theorem inodeEntry_eq :
    inodeEntry fs 2 = some (fillRootInode 36 Ext2Inode.zero) := by
  have htable : fs.descs[0].bgInodeTable.toNat = 4 := by
    rw [h.table]
    rfl
  have hentry := Ext2Fs.inodeEntry_eq h.firstDataBlock (show (2 : UInt32).toNat / 1024 = 0 from rfl)
    h.groups_pos (by decide) (by rw [htable]; decide)
  rw [hentry, htable]
  change loadAt asInodes (fs.disk.content 32) 2 = _
  rw [h.rootInode, rootInodeSector, loadAt_of_lt _ (by decide), Equiv.apply_symm_apply,
    Vector.getElem_set_self]

theorem fillsAs (inode : InodeVar) :
    FillsAs (ext2FillInode fs inode 2) (fillRootInode 36 Ext2Inode.zero) :=
  ext2FillInode_some h.inodeEntry_eq inode

theorem block_lt : 8 * (36 : UInt32).toNat + 8 ≤ fs.disk.numberOfSectors.toNat := by
  have hfit := fs.disk.groups_fit
  have hpos := h.groups_pos
  change 8 * 36 + 8 ≤ _
  omega

include hroot

theorem dirSlots_eq : dirSlots fs parent = .ok (rootSlots fs.disk) := by
  have hfill := h.fillsAs InodeVar.uninit
  have hblocks : (fillRootInode 36 Ext2Inode.zero).iBlocks = 1 := rfl
  have hread := readSlots_block parent hfill.iBlock h.block_lt 8 0 rfl none
  rw [dirSlots, hroot, hfill.iBlocks, determinate_some, ok_bind, hblocks]
  exact hread

-- The whole of `ext2_lookup` on the root.
theorem ext2Lookup_eq (name : List UInt8) (location : Option EntryLocation) :
    ext2Lookup fs parent name location =
      scanEntries name (rootSlots fs.disk) 0 >>= fun r ↦ .ok (r.result fs 36 location) := by
  have hfill := h.fillsAs InodeVar.uninit
  have hblocks : (fillRootInode 36 Ext2Inode.zero).iBlocks = 1 := rfl
  have hscan := lookupSectors_block parent hfill.iBlock h.block_lt name
    8 0 rfl location none
  rw [ext2Lookup, hroot, hfill.iBlocks, determinate_some, ok_bind, hblocks]
  exact hscan

end RootAt

end Ext2Fs
