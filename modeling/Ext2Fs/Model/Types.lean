import Ext2Fs.Reasoning.Bytes

/-!
# On-disk and in-memory types (ext2.h)

Every structure is the C one with its fields in order; its layout lists the same fields and fixes
their byte positions.
-/

open Reasoning Reasoning.Layout

namespace Ext2Fs

/-! ## Constants -/

@[simp] def maxSectorSize : UInt32 := 512
@[simp] def blockSizeInBytes : UInt32 := 4096
@[simp] def sectorsPerBlock : UInt32 := 8
@[simp] def blockPerGroup : UInt32 := 32768
@[simp] def groupSizeInBytes : UInt32 := 134217728
@[simp] def inodesPerGroup : UInt32 := 1024
@[simp] def ext2NdirBlocks : UInt32 := 12

def ext2Error : Int := -1
def ext2Success : Int := 0

@[simp] def attrVolumeId : UInt16 := 0x08
@[simp] def attrDirectory : UInt16 := 0x10
@[simp] def attrArchive : UInt16 := 0x20

/-- `DIR_ENTRY_NO_MORE`: the first name byte of the entry that ends a directory. -/
@[simp] def dirEntryNoMore : UInt8 := 0

/-! ### Fixed positions -/

-- The first byte of a name.
theorem nameByte_lt : 0 < 24 := by decide
-- The first block pointer of an inode.
theorem pointer_lt : 0 < 15 := by decide
-- The slot of the root in a sector of the inode table.
theorem rootSlot_lt : 2 < 4 := by decide
-- The first record of a sector of descriptors or of directory entries.
theorem firstRecord_lt : 0 < 16 := by decide
theorem secondRecord_lt : 1 < 16 := by decide
theorem thirdRecord_lt : 2 < 16 := by decide
theorem record_lt (t : Nat) : t % 16 < 16 := Nat.mod_lt t (by decide)

abbrev Sector := Bytes 512

def zeroSector : Sector := Vector.replicate 512 0

/-! ## Superblock -/

/-- `EXT2_SUPER_BLOCK`.  Only its first 512 bytes ever travel between memory and disk, and no
function looks past `s_feature_ro_compat`, so `s_reserved` stops at the end of that sector. -/
structure Ext2SuperBlock where
  sInodesCount : UInt32
  sBlocksCount : UInt32
  sRBlockCount : UInt32
  sFreeBlocksCount : UInt32
  sFreeInodesCount : UInt32
  sFirstDataBlock : UInt32
  sLogBlockSize : UInt32
  sLogFragSize : UInt32
  sBlocksPerGroup : UInt32
  sFragsPerGroup : UInt32
  sInodesPerGroup : UInt32
  sMtime : UInt32
  sWtime : UInt32
  sMntCount : UInt16
  sMaxMntCount : UInt16
  sMagic : UInt16
  sState : UInt16
  sErrors : UInt16
  sMinorRevLevel : UInt16
  sLastcheck : UInt32
  sCheckInterval : UInt32
  sCreatorOs : UInt32
  sRevLevel : UInt32
  sDefResuid : UInt16
  sDefResgid : UInt16
  sFirstIno : UInt32
  sInodeSize : UInt16
  sBlockGroupNr : UInt16
  sFeatureCompat : UInt32
  sFeatureIncompat : UInt32
  sFeatureRoCompat : UInt32
  sReserved : Vector UInt32 102

def superBlockFields : Ext2SuperBlock ≃
    (UInt32 × UInt32 × UInt32 × UInt32 × UInt32 × UInt32 × UInt32 × UInt32 × UInt32 × UInt32 ×
      UInt32 × UInt32 × UInt32) ×
    (UInt16 × UInt16 × UInt16 × UInt16 × UInt16 × UInt16) ×
    (UInt32 × UInt32 × UInt32 × UInt32) × (UInt16 × UInt16) × UInt32 × (UInt16 × UInt16) ×
    (UInt32 × UInt32 × UInt32) × Vector UInt32 102 where
  toFun s :=
    ((s.sInodesCount, s.sBlocksCount, s.sRBlockCount, s.sFreeBlocksCount, s.sFreeInodesCount,
        s.sFirstDataBlock, s.sLogBlockSize, s.sLogFragSize, s.sBlocksPerGroup, s.sFragsPerGroup,
        s.sInodesPerGroup, s.sMtime, s.sWtime),
      (s.sMntCount, s.sMaxMntCount, s.sMagic, s.sState, s.sErrors, s.sMinorRevLevel),
      (s.sLastcheck, s.sCheckInterval, s.sCreatorOs, s.sRevLevel), (s.sDefResuid, s.sDefResgid),
      s.sFirstIno, (s.sInodeSize, s.sBlockGroupNr),
      (s.sFeatureCompat, s.sFeatureIncompat, s.sFeatureRoCompat), s.sReserved)
  invFun := fun ((a0, a1, a2, a3, a4, a5, a6, a7, a8, a9, a10, a11, a12), (b0, b1, b2, b3, b4, b5),
      (c0, c1, c2, c3), (d0, d1), e, (f0, f1), (g0, g1, g2), r) ↦
    ⟨a0, a1, a2, a3, a4, a5, a6, a7, a8, a9, a10, a11, a12, b0, b1, b2, b3, b4, b5, c0, c1, c2, c3,
      d0, d1, e, f0, f1, g0, g1, g2, r⟩
  left_inv _ := rfl
  right_inv _ := rfl

def superBlockLayout : Layout Ext2SuperBlock 512 :=
  superBlockFields.trans
    (pair (pair u32 <| pair u32 <| pair u32 <| pair u32 <| pair u32 <| pair u32 <| pair u32 <|
        pair u32 <| pair u32 <| pair u32 <| pair u32 <| pair u32 u32) <|
      pair (pair u16 <| pair u16 <| pair u16 <| pair u16 <| pair u16 u16) <|
      pair (pair u32 <| pair u32 <| pair u32 u32) <| pair (pair u16 u16) <|
      pair u32 <| pair (pair u16 u16) <| pair (pair u32 <| pair u32 u32) <| array u32 102 :)

/-- `ZeroMemory(sb, sizeof(EXT2_SUPER_BLOCK))`. -/
def Ext2SuperBlock.zero : Ext2SuperBlock :=
  ⟨0, 0, 0, 0, 0, 0, 0, 0, 0, 0, 0, 0, 0, 0, 0, 0, 0, 0, 0, 0, 0, 0, 0, 0, 0, 0, 0, 0, 0, 0, 0,
    Vector.replicate 102 0⟩

/-! ## Group descriptor -/

/-- `EXT2_GROUP_DESC`, 32 bytes. -/
structure Ext2GroupDesc where
  bgBlockBitmap : UInt32
  bgInodeBitmap : UInt32
  bgInodeTable : UInt32
  bgFreeBlocksCount : UInt16
  bgFreeInodesCount : UInt16
  bgUsedDirsCount : UInt16
  bgPad : UInt16
  bgReserved : Vector UInt32 3
  deriving DecidableEq

def groupDescFields : Ext2GroupDesc ≃
    UInt32 × UInt32 × UInt32 × UInt16 × UInt16 × UInt16 × UInt16 × Vector UInt32 3 where
  toFun d := (d.bgBlockBitmap, d.bgInodeBitmap, d.bgInodeTable, d.bgFreeBlocksCount,
    d.bgFreeInodesCount, d.bgUsedDirsCount, d.bgPad, d.bgReserved)
  invFun := fun (a, b, c, d, e, f, g, h) ↦ ⟨a, b, c, d, e, f, g, h⟩
  left_inv _ := rfl
  right_inv _ := rfl

def groupDescLayout : Layout Ext2GroupDesc 32 :=
  groupDescFields.trans
    (pair u32 <| pair u32 <| pair u32 <| pair u16 <| pair u16 <| pair u16 <| pair u16 <|
      array u32 3 :)

/-- `ZeroMemory(entry, sizeof(EXT2_GROUP_DESC))`. -/
def Ext2GroupDesc.zero : Ext2GroupDesc := ⟨0, 0, 0, 0, 0, 0, 0, Vector.replicate 3 0⟩

/-! ## Inode -/

/-- `EXT2_INODE` as it stands in the inode table, 128 bytes. -/
structure Ext2Inode where
  iMode : UInt16
  iUid : UInt16
  iSize : UInt32
  iAtime : UInt32
  iCtime : UInt32
  iMtime : UInt32
  iDtime : UInt32
  iGid : UInt16
  iLinksCount : UInt16
  iBlocks : UInt32
  iFlags : UInt32
  iBlock : Vector UInt32 15
  iVersion : UInt32
  iFileAcl : UInt32
  iDirAcl : UInt32
  iFaddr : UInt32
  pad : Vector UInt32 4
  deriving DecidableEq

def inodeFields : Ext2Inode ≃
    (UInt16 × UInt16) × (UInt32 × UInt32 × UInt32 × UInt32 × UInt32) × (UInt16 × UInt16) ×
    (UInt32 × UInt32) × Vector UInt32 15 × (UInt32 × UInt32 × UInt32 × UInt32) ×
    Vector UInt32 4 where
  toFun n := ((n.iMode, n.iUid), (n.iSize, n.iAtime, n.iCtime, n.iMtime, n.iDtime),
    (n.iGid, n.iLinksCount), (n.iBlocks, n.iFlags), n.iBlock,
    (n.iVersion, n.iFileAcl, n.iDirAcl, n.iFaddr), n.pad)
  invFun := fun ((a0, a1), (b0, b1, b2, b3, b4), (c0, c1), (d0, d1), e, (f0, f1, f2, f3), g) ↦
    ⟨a0, a1, b0, b1, b2, b3, b4, c0, c1, d0, d1, e, f0, f1, f2, f3, g⟩
  left_inv _ := rfl
  right_inv _ := rfl

def inodeLayout : Layout Ext2Inode 128 :=
  inodeFields.trans
    (pair (pair u16 u16) <| pair (pair u32 <| pair u32 <| pair u32 <| pair u32 u32) <|
      pair (pair u16 u16) <| pair (pair u32 u32) <| pair (array u32 15) <|
      pair (pair u32 <| pair u32 <| pair u32 u32) <| array u32 4 :)

def Ext2Inode.zero : Ext2Inode :=
  ⟨0, 0, 0, 0, 0, 0, 0, 0, 0, 0, 0, Vector.replicate 15 0, 0, 0, 0, 0, Vector.replicate 4 0⟩

/-- A local or allocated `EXT2_INODE` variable, of which some functions fill a few fields only. -/
structure InodeVar where
  iMode : Option UInt16
  iSize : Option UInt32
  iBlocks : Option UInt32
  iBlock : Vector (Option UInt32) 15
  deriving DecidableEq

def InodeVar.uninit : InodeVar := ⟨none, none, none, Vector.replicate 15 none⟩

/-- The variable on memory that holds these values. -/
def InodeVar.holding (inode : Ext2Inode) : InodeVar :=
  ⟨some inode.iMode, some inode.iSize, some inode.iBlocks, inode.iBlock.map some⟩

/-! ## Directory entry -/

/-- `EXT2_DIR_ENTRY`, 32 bytes.  `name[11]` and the `pad[13]` behind it are one field here: names
are copied by length, and the longer ones run on into the padding. -/
structure Ext2DirEntry where
  inode : UInt32
  recLen : UInt16
  nameLen : UInt16
  name : Bytes 24
  deriving DecidableEq

def dirEntryFields : Ext2DirEntry ≃ UInt32 × UInt16 × UInt16 × Bytes 24 where
  toFun e := (e.inode, e.recLen, e.nameLen, e.name)
  invFun := fun (a, b, c, d) ↦ ⟨a, b, c, d⟩
  left_inv _ := rfl
  right_inv _ := rfl

def dirEntryLayout : Layout Ext2DirEntry 32 :=
  dirEntryFields.trans (pair u32 <| pair u16 <| pair u16 <| bytes 24 :)

def Ext2DirEntry.zero : Ext2DirEntry := ⟨0, 0, 0, Vector.replicate 24 0⟩

/-- `EXT2_NODE` without its `fs` pointer: there is one mounted file system, and every operation
takes it as an argument. -/
structure Ext2Node where
  entry : Ext2DirEntry
  inodeNum : UInt32
  deriving DecidableEq

/-- `ENTRY_LOCATION`. -/
structure EntryLocation where
  blockNum : UInt32
  entryNum : UInt32
  deriving DecidableEq, Repr

/-! ## Casts of a sector buffer

Nothing but the layouts' own lemmas looks inside them. -/

@[irreducible] def asSuperBlock : Sector ≃ Ext2SuperBlock := superBlockLayout.symm
@[irreducible] def asDescs : Sector ≃ Vector Ext2GroupDesc 16 := (array groupDescLayout 16).symm
@[irreducible] def asInodes : Sector ≃ Vector Ext2Inode 4 := (array inodeLayout 4).symm
@[irreducible] def asEntries : Sector ≃ Vector Ext2DirEntry 16 := (array dirEntryLayout 16).symm
@[irreducible] def asWords : Sector ≃ Vector UInt32 128 := (array u32 128).symm

end Ext2Fs
