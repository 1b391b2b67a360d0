import Ext2Fs.Properties.DescriptorTable
import Ext2Fs.Model.Inode

/-!
# Where the structures of a group are

Seven functions compute the address of a group's bitmaps and inode table, some taking the
descriptor's block numbers as absolute and some adding the first block of the group.
-/

open Reasoning

namespace Ext2Fs

/-- One structure per group: an absolute block for each, inside its own group, different groups
having different blocks. -/
structure OwnBlocks (groups : Nat) (block : Nat → UInt32) : Prop where
  inside : ∀ g, g < groups → 32768 * g ≤ (block g).toNat ∧ (block g).toNat < 32768 * (g + 1)
  distinct : ∀ g h, g < groups → h < groups → g ≠ h → block g ≠ block h

/-- Every user of the bitmaps and the inode table of a group computes the block that is given for
the structure. -/
structure UsersAgree (disk : DiskOperations) (fs : Ext2Filesystem)
    (blockBitmap inodeBitmap inodeTable : Nat → UInt32) (g : Nat) : Prop where
  initBitmap :
    initBlockBitmapBlock (fillDesc disk disk.newSb (UInt32.ofNat g)) = blockBitmap g ∧
    initInodeBitmapBlock (fillDesc disk disk.newSb (UInt32.ofNat g)) = inodeBitmap g
  allocFreeBlock : (readDesc fs (UInt32.ofNat g)).map allocBlockBitmapBlock = some (blockBitmap g)
  allocFreeInode : (readDesc fs (UInt32.ofNat g)).map allocInodeBitmapBlock = some (inodeBitmap g)
  fillInode : (readDesc fs (UInt32.ofNat g)).map (fillInodeTableBlock · (UInt32.ofNat g)) =
    some (inodeTable g)
  insertInode : (readDesc fs (UInt32.ofNat g)).map (insertInodeTableBlock · (UInt32.ofNat g)) =
    some (inodeTable g)
  dump : ∀ target,
    (dumpRange fs.disk (Int32.ofNat g) 3 target).map Prod.fst = .ok (blockBitmap g).toInt32 ∧
    (dumpRange fs.disk (Int32.ofNat g) 4 target).map Prod.fst = .ok (inodeBitmap g).toInt32 ∧
    (dumpRange fs.disk (Int32.ofNat g) 5 target).map Prod.fst = .ok (inodeTable g).toInt32

/-- On a disk that was formatted and mounted each structure of each group has one address. -/
def OneAddressEach (disk : DiskOperations) : Prop :=
  ∀ fs root, Mounted disk fs root → ∃ blockBitmap inodeBitmap inodeTable : Nat → UInt32,
    OwnBlocks disk.groups blockBitmap ∧ OwnBlocks disk.groups inodeBitmap ∧
    OwnBlocks disk.groups inodeTable ∧
    ∀ g, g < disk.groups → UsersAgree disk fs blockBitmap inodeBitmap inodeTable g

section Addresses

variable {disk : DiskOperations}

theorem ownBlocks_const {groups : Nat} (hone : groups ≤ 1) {b : UInt32} (hb : b.toNat < 32768) :
    OwnBlocks groups fun _ ↦ b where
  inside g hg := by omega
  distinct g h hg hh hne := by omega

-- `init_bitmap` puts the bitmaps of every group at the blocks of the first one.
theorem not_oneAddressEach_of_lt (hmore : 1 < disk.groups) : ¬ OneAddressEach disk := by
  intro h
  obtain ⟨fs, root, hmount⟩ : ∃ fs root, Mounted disk fs root := by
    by_cases hfew : disk.groups ≤ 16
    · obtain ⟨disk', -, hmount⟩ := exists_mounted (by omega) hfew
      exact ⟨_, _, hmount⟩
    · obtain ⟨disk', count, -, -, hmount⟩ := exists_mounted_large (Nat.lt_of_not_le hfew)
      exact ⟨_, _, hmount⟩
  obtain ⟨blockBitmap, inodeBitmap, inodeTable, hown, -, -, husers⟩ := h fs root hmount
  have hblock := (husers 1 hmore).initBitmap.1
  rw [fillDesc_eq (by omega)] at hblock
  have hinside := (hown.inside 1 hmore).1
  rw [← hblock] at hinside
  exact absurd hinside (by decide)

theorem oneAddressEach_of_le (hone : disk.groups ≤ 1) : OneAddressEach disk := by
  intro fs root hmount
  refine ⟨fun _ ↦ 2, fun _ ↦ 3, fun _ ↦ 4, ownBlocks_const hone (by decide),
    ownBlocks_const hone (by decide), ownBlocks_const hone (by decide), fun g hg ↦ ?_⟩
  have hpos : 1 ≤ disk.groups := by omega
  obtain rfl : g = 0 := by omega
  obtain ⟨disk', h, hmount'⟩ := exists_mounted hpos (by omega)
  obtain ⟨rfl, rfl⟩ := mounted_unique hmount hmount'
  have hgroups : disk'.groups = disk.groups := groups_congr h.sectors_eq
  have hread : readDesc (newFs disk disk') (UInt32.ofNat 0) = some (copyDesc (countRoot newDesc)) := by
    have hstored := h.storedDesc_eq (by omega) hg hg
    rw [formattedDesc_eq hpos, if_pos rfl] at hstored
    rw [readDesc_of_lt (newFs disk disk') rfl (by rw [← hgroups] at hpos; exact hpos)
      (show (UInt32.ofNat 0).toNat = 0 from rfl) (by decide), ← hstored]
    rfl
  have hdesc : descBlockCount disk'.groupCount = 1 :=
    descBlockCount_eq (by rw [← hgroups] at hpos; exact hpos) disk'.groups_le
  constructor
  case initBitmap =>
    rw [fillDesc_eq hpos]
    exact ⟨rfl, rfl⟩
  case allocFreeBlock =>
    rw [hread]
    rfl
  case allocFreeInode =>
    rw [hread]
    rfl
  case fillInode =>
    rw [hread]
    rfl
  case insertInode =>
    rw [hread]
    rfl
  case dump =>
    intro target
    change (dumpRange disk' _ 3 target).map _ = _ ∧ (dumpRange disk' _ 4 target).map _ = _ ∧
      (dumpRange disk' _ 5 target).map _ = _
    unfold dumpRange dumpGroupBlock
    simp only [hdesc]
    exact ⟨rfl, rfl, rfl⟩

end Addresses

/-- The users agree exactly when no group but the first exists. -/
theorem oneAddressEach_iff (disk : DiskOperations) : OneAddressEach disk ↔ disk.groups ≤ 1 := by
  refine ⟨fun h ↦ ?_, oneAddressEach_of_le⟩
  by_contra hmore
  exact not_oneAddressEach_of_lt (by omega) h

theorem not_oneAddressEach_two :
    (zeroedDisk 524288).groups = 2 ∧ ¬ OneAddressEach (zeroedDisk 524288) :=
  ⟨by decide, not_oneAddressEach_of_lt (by decide)⟩

end Ext2Fs
