import Ext2Fs.Spec.Format

/-!
# The root directory

What `create_root` adds to a disk, and with it the whole of `ext2_format`.
-/

open Reasoning

namespace Ext2Fs

/-! ## Directory entries -/

/-- The entry that `fill_entry` makes of a zeroed one. -/
def dirEntry (inode : UInt32) (name : List UInt8) : Ext2DirEntry where
  inode := inode
  recLen := 4 + 2 + 2 + 1 * UInt16.ofNat name.length
  nameLen := UInt16.ofNat name.length
  name := copyName (Vector.replicate 24 0) name

theorem fillEntry_zero {name : List UInt8} {inode : Int} (hinode : 0 ≤ inode)
    (hname : name ≠ noMoreName) (hlen : name.length ≤ 24) :
    fillEntry Ext2DirEntry.zero name inode = .ok (dirEntry (UInt32.ofInt inode) name) := by
  rw [fillEntry, if_neg (by omega), if_neg hname, if_pos hlen]
  rfl

theorem fillEntry_noMore {inode : Int} (hinode : 0 ≤ inode) :
    fillEntry Ext2DirEntry.zero noMoreName inode = .ok Ext2DirEntry.zero := by
  rw [fillEntry, if_neg (by omega), if_pos rfl]
  rfl

/-- The entries of a sector: those given, then zeroed ones. -/
def entriesOf (l : List Ext2DirEntry) : Vector Ext2DirEntry 16 :=
  Vector.ofFn fun k ↦ l.getD k.val Ext2DirEntry.zero

theorem getElem_entriesOf (l : List Ext2DirEntry) {k : Nat} (hk : k < 16) :
    (entriesOf l)[k] = l.getD k Ext2DirEntry.zero := by
  simp [entriesOf]

theorem asEntries_symm_nil : asEntries.symm (entriesOf []) = zeroSector := by
  rw [Equiv.symm_apply_eq, asEntries_zeroSector]
  apply Vector.ext
  intro k hk
  simp [getElem_entriesOf]

theorem entriesOf_append_zero (l : List Ext2DirEntry) :
    entriesOf (l ++ [Ext2DirEntry.zero]) = entriesOf l := by
  apply Vector.ext
  intro k hk
  rw [getElem_entriesOf _ hk, getElem_entriesOf _ hk]
  grind

-- One more entry of a sector filled in place.
theorem fillEntry_append {l : List Ext2DirEntry} {k : Nat} (hk : l.length = k) (hlt : k < 16)
    {name : List UInt8} {inode : Int} {entry : Ext2DirEntry}
    (hfill : fillEntry Ext2DirEntry.zero name inode = .ok entry) :
    (do
      let old ← determinate (loadAt asEntries (asEntries.symm (entriesOf l)) k)
      let new ← fillEntry old name inode
      modifyAt asEntries (asEntries.symm (entriesOf l)) k fun _ ↦ new) =
        .ok (asEntries.symm (entriesOf (l ++ [entry]))) := by
  have hold : (entriesOf l)[k] = Ext2DirEntry.zero := by
    rw [getElem_entriesOf _ hlt]
    simp [hk]
  have hset : (entriesOf l).set k entry = entriesOf (l ++ [entry]) := by
    apply Vector.ext
    intro i hi
    rw [Vector.getElem_set, getElem_entriesOf _ hi, getElem_entriesOf _ hi]
    grind
  rw [loadAt_of_lt _ hlt, determinate_some, ok_bind, Equiv.apply_symm_apply, hold, hfill, ok_bind,
    modifyAt_of_lt _ _ hlt, Equiv.apply_symm_apply, hset]

def rootEntries : Vector Ext2DirEntry 16 :=
  entriesOf [dirEntry 2 slashName, dirEntry 2 dotName, dirEntry 2 dotdotName]

theorem rootDirSector_eq : rootDirSector = .ok (asEntries.symm rootEntries) := by
  have hslash := fillEntry_zero (show (0 : Int) ≤ 2 by decide)
    (show slashName ≠ noMoreName by decide) (by decide)
  have hdot := fillEntry_zero (show (0 : Int) ≤ 2 by decide)
    (show dotName ≠ noMoreName by decide) (by decide)
  have hdotdot := fillEntry_zero (show (0 : Int) ≤ 2 by decide)
    (show dotdotName ≠ noMoreName by decide) (by decide)
  have hend := fillEntry_noMore (show (0 : Int) ≤ 2 by decide)
  unfold rootDirSector
  simp only [forEach_cons, forEach_nil]
  rw [← asEntries_symm_nil, fillEntry_append (by rfl) (show 0 < 16 by decide) hslash, ok_bind,
    fillEntry_append (by rfl) (show 1 < 16 by decide) hdot, ok_bind,
    fillEntry_append (by rfl) (show 2 < 16 by decide) hdotdot, ok_bind,
    fillEntry_append (by rfl) (show 3 < 16 by decide) hend, ok_bind, entriesOf_append_zero]
  rfl

/-! ## create_root -/

/-- Slot 2 of the first sector of the inode table. -/
def rootInodeSector (datablock : UInt32) : Sector :=
  asInodes.symm ((Vector.replicate 4 Ext2Inode.zero).set 2
    (fillRootInode datablock Ext2Inode.zero) rootSlot_lt)

/-- The sectors of a disk after `create_root`, but for the bit it sets last: `table` is the block
of the inode table in the descriptor that it reads. -/
def rootContent (disk : DiskOperations) (sb : Ext2SuperBlock) (descs : Vector Ext2GroupDesc 16)
    (table : UInt32) (x : Nat) : Sector :=
  if x % 262144 = 8 ∧ x / 262144 < disk.groups then
    asDescs.symm (descs.set 0 (countRoot (getElem descs 0 firstRecord_lt)) firstRecord_lt)
  else if x % 262144 = 0 ∧ x / 262144 < disk.groups then
    asSuperBlock.symm (countRootSb sb)
  else if x = 8 * (table.toNat + 32) then asEntries.symm rootEntries
  else if x = 8 * table.toNat then rootInodeSector (table + 32)
  else disk.content x

/-- The disk on which `create_root` looks for the bit that it sets last. -/
def rootDisk (disk : DiskOperations) (sb : Ext2SuperBlock) (descs : Vector Ext2GroupDesc 16)
    (table : UInt32) : DiskOperations :=
  writeDescSectors
    (writeSuperBlocks
      ((disk.writeSector (table * sectorsPerBlock) (rootInodeSector (table + 32))).writeSector
        ((table + 32) * sectorsPerBlock) (asEntries.symm rootEntries)) (countRootSb sb) 0)
    (countRootSb sb)
    (asDescs.symm (descs.set 0 (countRoot (getElem descs 0 firstRecord_lt)) firstRecord_lt))

section RootDisk

variable {disk : DiskOperations} {sb : Ext2SuperBlock} {descs : Vector Ext2GroupDesc 16}
  {table : UInt32}

theorem numberOfSectors_rootDisk :
    (rootDisk disk sb descs table).numberOfSectors = disk.numberOfSectors := by
  simp [rootDisk]

theorem content_rootDisk (hpos : 1 ≤ disk.groups) (h0 : sb.sFirstDataBlock = 0)
    (htable : table.toNat < 1000) (x : Nat) :
    (rootDisk disk sb descs table).content x = rootContent disk sb descs table x := by
  have hfit := disk.groups_fit
  have hdata : (table + 32).toNat = table.toNat + 32 := by
    simp
    omega
  have h0' : (countRootSb sb).sFirstDataBlock = 0 := h0
  rw [rootDisk, content_writeDescSectors h0', content_writeSuperBlocks h0',
    groups_congr (numberOfSectors_writeSuperBlocks 0), DiskOperations.groups_writeSector,
    DiskOperations.groups_writeSector, DiskOperations.content_writeSector,
    DiskOperations.content_writeSector, blockSector_toNat (by omega), blockSector_toNat (by omega),
    hdata]
  · unfold rootContent
    simp only [Nat.zero_le, true_and]
  · rw [blockSector_toNat (by omega)]
    omega
  · rw [blockSector_toNat (by omega), DiskOperations.numberOfSectors_writeSector]
    omega

end RootDisk

theorem createRoot_spec {disk : DiskOperations} {sb : Ext2SuperBlock}
    {descs : Vector Ext2GroupDesc 16} (hpos : 1 ≤ disk.groups)
    (hsb : disk.content 0 = asSuperBlock.symm sb) (hdescs : disk.content 8 = asDescs.symm descs)
    (h0 : sb.sFirstDataBlock = 0) (hper : sb.sInodesPerGroup = 1024)
    (htable : descs[0].bgInodeTable.toNat < 1000) (hbitmap : descs[0].bgBlockBitmap.toNat < 1000)
    {bits : Sector}
    (hbits : setBit (rootContent disk sb descs descs[0].bgInodeTable
      (8 * descs[0].bgBlockBitmap.toNat)) (descs[0].bgInodeTable.toNat + 32) = .ok bits) :
    ∃ disk', createRoot disk = .ok disk' ∧ disk'.numberOfSectors = disk.numberOfSectors ∧
      ∀ x, disk'.content x =
        if x = 8 * descs[0].bgBlockBitmap.toNat then bits
        else rootContent disk sb descs descs[0].bgInodeTable x := by
  have hfit := disk.groups_fit
  generalize ht : descs[0].bgInodeTable = table at htable hbits ⊢
  have hn := @numberOfSectors_rootDisk disk sb descs table
  have hc := @content_rootDisk disk sb descs table hpos h0 htable
  have hdata : (table + 32).toNat = table.toNat + 32 := by
    simp
    omega
  have hzero : zeroSector = asInodes.symm (Vector.replicate 4 Ext2Inode.zero) := by
    rw [Equiv.eq_symm_apply, asInodes_zeroSector]
  have hinode : modifyAt asInodes zeroSector 2 (fillRootInode (table + 32)) =
      .ok (rootInodeSector (table + 32)) := by
    rw [modifyAt_of_lt _ _ (by decide), hzero, Equiv.apply_symm_apply, Vector.getElem_replicate]
    rfl
  have hdatablock : sb.sFirstDataBlock + table + inodeTableBlocks sb = table + 32 := by
    rw [h0, inodeTableBlocks_eq hper, UInt32.zero_add]
  have hbitSector : (table + 32) / (8 * maxSectorSize) = 0 := by
    apply UInt32.toNat_inj.mp
    rw [UInt32.toNat_div, hdata]
    simp
    omega
  have hread₀ : (disk.readSector 0 none).2 = some (asSuperBlock.symm sb) :=
    DiskOperations.readSector_eq _ (by rfl) (by omega) hsb
  have hread₈ : (disk.readSector ((sb.sFirstDataBlock + 1) * sectorsPerBlock) none).2 =
      some (asDescs.symm descs) :=
    DiskOperations.readSector_eq _ (descSector_toNat h0) (by omega) hdescs
  have hread : ((rootDisk disk sb descs table).readSector
      (descs[0].bgBlockBitmap * sectorsPerBlock) none).2 =
      some (rootContent disk sb descs table (8 * descs[0].bgBlockBitmap.toNat)) :=
    DiskOperations.readSector_eq _ (blockSector_toNat (by omega)) (by rw [hn]; omega) (hc _)
  have hload : loadAt asDescs (asDescs.symm descs) 0 = some descs[0] := by
    rw [loadAt_of_lt _ (by decide), Equiv.apply_symm_apply]
  have hdesc : modifyAt asDescs (asDescs.symm descs) 0 (fun _ ↦ countRoot descs[0]) =
      .ok (asDescs.symm (descs.set 0 (countRoot descs[0]))) := by
    rw [modifyAt_of_lt _ _ (by decide), Equiv.apply_symm_apply]
  have hmap : (countRoot descs[0]).bgBlockBitmap = descs[0].bgBlockBitmap := rfl
  refine ⟨(rootDisk disk sb descs table).writeSector
    (descs[0].bgBlockBitmap * sectorsPerBlock) bits, ?_, by simpa using hn, fun x ↦ ?_⟩
  · unfold createRoot
    simp only [Disk.operations_eq, Disk.writeSector_eq, hread₀, determinate_some, ok_bind,
      Equiv.apply_symm_apply, hread₈, hload, ht, inodeTableBlocks_eq hper, hinode, rootDirSector_eq]
    rw [inodeTableBlocks_eq hper] at hdatablock
    simp only [hdatablock, hdesc, ok_bind, hbitSector, UInt32.add_zero, hmap]
    change determinate ((rootDisk disk sb descs table).readSector _ none).2 >>= _ = _
    rw [hread, determinate_some, ok_bind, hdata, hbits]
    rfl
  · have hin : (descs[0].bgBlockBitmap * sectorsPerBlock).toNat <
        (rootDisk disk sb descs table).numberOfSectors.toNat := by
      rw [blockSector_toNat (by omega), hn]
      omega
    rw [DiskOperations.content_writeSector _ hin, blockSector_toNat (by omega), hc]

/-! ## ext2_format -/

/-- The disk on which the loop of `ext2_format` starts. -/
def formatStart (disk : DiskOperations) : DiskOperations :=
  (disk.writeSector 0 (asSuperBlock.symm disk.newSb)).writeSector 1 zeroSector

section FormatStart

variable (disk : DiskOperations)

theorem formatStart_groups : (formatStart disk).groups = disk.groups := by
  rw [formatStart, DiskOperations.groups_writeSector, DiskOperations.groups_writeSector]

theorem formatStart_newSb : (formatStart disk).newSb = disk.newSb :=
  newSb_congr (by simp [formatStart])

theorem content_formatStart (hsize : 2 ≤ disk.numberOfSectors.toNat) (x : Nat) :
    (formatStart disk).content x =
      if x = 1 then zeroSector else if x = 0 then asSuperBlock.symm disk.newSb
      else disk.content x := by
  rw [formatStart, DiskOperations.content_writeSector _ (by simp; omega),
    DiskOperations.content_writeSector _ (by simp; omega)]
  rfl

/-- What is on the disk before the loop. -/
def startImage (sb : Ext2SuperBlock) (x : Nat) : Option Sector :=
  if x = 1 then some zeroSector else if x = 0 then some (asSuperBlock.symm sb) else none

theorem formatStart_content (hsize : 2 ≤ disk.numberOfSectors.toNat) :
    (formatStart disk).content = overlay (startImage disk.newSb) disk.content := by
  funext x
  rw [content_formatStart disk hsize, overlay, startImage]
  split
  · rfl
  · split <;> rfl

/-- The state after the loop: what it has written does not depend on what the disk held. -/
structure FormatLooped (st : FormatState DiskOperations) : Prop
    extends FormatLoop (formatStart disk) disk.groups st where
  image : st.disk.content =
    overlay (onTop (loopImage disk.groups disk.groups) (startImage disk.newSb)) disk.content

-- The loop of `ext2_format` runs to its end.
theorem format_loop (hpos : 1 ≤ disk.groups) :
    ∃ st, forEach (formatGroup disk.newSb)
        { disk := formatStart disk, sector := zeroSector, desc := 0 } (List.range disk.groups) =
          .ok st ∧
      FormatLooped disk st := by
  have hfit := disk.groups_fit
  have hstart := formatStart_groups disk
  have hloop := forEach_range (f := formatGroup disk.newSb)
    (fun i st ↦ FormatLoop (formatStart disk) i st ∧
      st.disk.content = overlay (loopImage (formatStart disk).groups i) (formatStart disk).content)
    disk.groups (s := { disk := formatStart disk, sector := zeroSector, desc := 0 }) ?_ ?_
  · obtain ⟨st, hrun, hst, himage⟩ := hloop
    rw [hstart, formatStart_content disk (by omega), ← overlay_onTop] at himage
    exact ⟨st, hrun, hst, himage⟩
  · constructor
    · constructor
      case sectors_eq => rfl
      case sector_eq => exact descSector_zero.symm
      case desc_eq => rfl
      case bitmaps => exact fun h ↦ absurd h (by decide)
      case table =>
        rw [formatStart_groups]
        exact fun h ↦ absurd h (by omega)
      case cleared => exact fun h ↦ absurd h (by decide)
      case frame => exact fun x _ _ _ ↦ rfl
    · rfl
  · rintro i st hi ⟨hst, himage⟩
    rw [← formatStart_newSb]
    obtain ⟨st', hrun, hst'⟩ := hst.step (by omega)
    exact ⟨st', hrun, hst', hst.step_image (by omega) himage hrun⟩

end FormatStart

/-- The descriptor table of a disk of at most sixteen groups. -/
def newDescs (groups : Nat) : Vector Ext2GroupDesc 16 :=
  (asDescs (descSector groups)).set 0 (countRoot newDesc)

theorem getElem_newDescs {groups g : Nat} (hg : g < 16) :
    (newDescs groups)[g] =
      if g = 0 then countRoot newDesc
      else if g < groups then newDesc else Ext2GroupDesc.zero := by
  unfold newDescs
  rw [Vector.getElem_set, asDescs_descSector hg]
  grind

/-- A disk of at most sixteen groups after `ext2_format`. -/
structure Formatted (old disk : DiskOperations) : Prop where
  sectors_eq : disk.numberOfSectors = old.numberOfSectors
  superBlock : ∀ g, g < old.groups →
    disk.content (262144 * g) = asSuperBlock.symm (countRootSb old.newSb)
  descs : ∀ g, g < old.groups → disk.content (262144 * g + 8) = asDescs.symm (newDescs old.groups)
  blockBitmap : disk.content 16 = onesPrefix 512 37
  blockBitmapRest : ∀ x, 16 < x → x < 24 → disk.content x = zeroSector
  inodeBitmap : disk.content 24 = onesPrefix 512 11
  inodeBitmapRest : ∀ x, 24 < x → x < 32 → disk.content x = zeroSector
  rootInode : disk.content 32 = rootInodeSector 36
  rootDir : disk.content 288 = asEntries.symm rootEntries
  frame : ∀ x, 32 < x → x ≠ 288 → x % 262144 ≠ 0 → x % 262144 ≠ 8 → x % 262144 ≠ 9 →
    disk.content x = old.content x

theorem ext2Format_eq (disk : DiskOperations) :
    ext2Format disk = do
      let st ← forEach (formatGroup disk.newSb)
        { disk := formatStart disk, sector := zeroSector, desc := 0 } (List.range disk.groups)
      let disk ← createRoot st.disk
      return (ext2Success, disk) := by
  rw [← formatStart_groups disk]
  rfl

-- What `create_root` reads on a disk of at most sixteen groups.
theorem format_loop_few {disk : DiskOperations} (hpos : 1 ≤ disk.groups) (hfew : disk.groups ≤ 16) :
    ∃ st, forEach (formatGroup disk.newSb)
        { disk := formatStart disk, sector := zeroSector, desc := 0 } (List.range disk.groups) =
          .ok st ∧
      FormatLooped disk st ∧
      st.disk.content 0 = asSuperBlock.symm disk.newSb ∧
      st.disk.content 8 = descSector disk.groups := by
  obtain ⟨st, hrun, hst⟩ := format_loop disk hpos
  have hstart := formatStart_groups disk
  have hfit := disk.groups_fit
  have hdesc : st.desc = disk.groups := by
    rw [hst.desc_eq, if_neg (by omega)]
    omega
  have htable := hst.table hstart.symm (by omega) 0 (by omega)
  rw [hst.sector_eq, hdesc] at htable
  refine ⟨st, hrun, hst, ?_, htable⟩
  rw [hst.frame 0 (by omega) (by decide) (by decide), content_formatStart _ (by omega),
    if_neg (by decide), if_pos rfl]

-- The sectors that `create_root` writes, and the others as the group loop left them.
theorem ext2Format_content {disk : DiskOperations} (hpos : 1 ≤ disk.groups)
    (hfew : disk.groups ≤ 16) :
    ∃ st disk', FormatLooped disk st ∧
      ext2Format disk = .ok (ext2Success, disk') ∧
      disk'.numberOfSectors = st.disk.numberOfSectors ∧
      ∀ x, disk'.content x =
        if x = 16 then onesPrefix 512 37
        else if x % 262144 = 8 ∧ x / 262144 < disk.groups then asDescs.symm (newDescs disk.groups)
        else if x % 262144 = 0 ∧ x / 262144 < disk.groups then
          asSuperBlock.symm (countRootSb disk.newSb)
        else if x = 288 then asEntries.symm rootEntries
        else if x = 32 then rootInodeSector 36
        else st.disk.content x := by
  have hfit := disk.groups_fit
  obtain ⟨st, hrun, hst, hsb, h8⟩ := format_loop_few hpos hfew
  have hg : st.disk.groups = disk.groups := by
    rw [groups_congr hst.sectors_eq, formatStart_groups]
  have hdescs : st.disk.content 8 = asDescs.symm (asDescs (descSector disk.groups)) := by
    rw [Equiv.symm_apply_apply, h8]
  have hd0 : (asDescs (descSector disk.groups))[0] = newDesc := by
    rw [asDescs_descSector (by decide), if_pos (by omega)]
  have hbits : setBit (rootContent st.disk disk.newSb (asDescs (descSector disk.groups))
      (asDescs (descSector disk.groups))[0].bgInodeTable
      (8 * (asDescs (descSector disk.groups))[0].bgBlockBitmap.toNat))
      ((asDescs (descSector disk.groups))[0].bgInodeTable.toNat + 32) =
        .ok (onesPrefix 512 37) := by
    rw [hd0]
    change setBit (rootContent st.disk _ _ 4 16) 36 = _
    rw [rootContent, if_neg (by omega), if_neg (by omega), if_neg (by decide), if_neg (by decide),
      hst.bitmaps (by omega) 16 (by decide) (by decide)]
    exact setBit_onesPrefix (by decide)
  obtain ⟨disk', hroot, hn, hc⟩ := createRoot_spec (by omega) hsb hdescs
    (newSb_sFirstDataBlock disk) (newSb_sInodesPerGroup disk) (by rw [hd0]; decide)
    (by rw [hd0]; decide) hbits
  refine ⟨st, disk', hst, ?_, hn, fun x ↦ ?_⟩
  · rw [ext2Format_eq, hrun, ok_bind, hroot, ok_bind]
    rfl
  · rw [hc x, rootContent, hd0, hg]
    rfl

theorem ext2Format_formatted {disk : DiskOperations} (hpos : 1 ≤ disk.groups)
    (hfew : disk.groups ≤ 16) :
    ∃ disk', ext2Format disk = .ok (ext2Success, disk') ∧ Formatted disk disk' := by
  have hfit := disk.groups_fit
  have hstart := formatStart_groups disk
  obtain ⟨st, disk', hst, hformat, hn, hc⟩ := ext2Format_content hpos hfew
  have hrest : ∀ x, x ≠ 16 → x ≠ 32 → x ≠ 288 → x % 262144 ≠ 0 → x % 262144 ≠ 8 →
      disk'.content x = st.disk.content x := by
    intro x h16 h32 h288 h0 h8
    rw [hc, if_neg h16, if_neg (fun h ↦ h8 h.1), if_neg (fun h ↦ h0 h.1), if_neg h288, if_neg h32]
  have hbitmaps : ∀ x, 16 < x → x < 32 → disk'.content x = newBitmapSector x := by
    intro x hlo hhi
    rw [hrest x (by omega) (by omega) (by omega) (by omega) (by omega),
      hst.bitmaps (by omega) x (by omega) hhi]
  refine ⟨disk', hformat, ?_⟩
  constructor
  case sectors_eq =>
    rw [hn, hst.sectors_eq]
    simp [formatStart]
  case superBlock =>
    intro g hgr
    rw [hc, if_neg (by omega), if_neg (by omega), if_pos (by omega)]
  case descs =>
    intro g hgr
    rw [hc, if_neg (by omega), if_pos (by omega)]
  case blockBitmap => rw [hc, if_pos rfl]
  case blockBitmapRest =>
    intro x hlo hhi
    rw [hbitmaps x hlo (by omega), newBitmapSector, if_neg (by omega), if_neg (by omega)]
  case inodeBitmap => exact hbitmaps 24 (by decide) (by decide)
  case inodeBitmapRest =>
    intro x hlo hhi
    rw [hbitmaps x (by omega) hhi, newBitmapSector, if_neg (by omega), if_neg (by omega)]
  case rootInode =>
    rw [hc, if_neg (by omega), if_neg (by omega), if_neg (by omega), if_neg (by omega),
      if_pos rfl]
  case rootDir => rw [hc, if_neg (by omega), if_neg (by omega), if_neg (by omega), if_pos rfl]
  case frame =>
    intro x hlo hroot h0 h8 h9
    rw [hrest x (by omega) (by omega) hroot h0 h8, hst.frame x (by omega) h8 h9,
      content_formatStart _ (by omega), if_neg (by omega), if_neg (by omega)]

/-- What matters of a disk of more than sixteen groups after `ext2_format`: the descriptor that
`create_root` found and updated was a zeroed one, so that the bitmap it marked is the sector of the
superblock. -/
structure FormattedLarge (old disk : DiskOperations) : Prop where
  sectors_eq : disk.numberOfSectors = old.numberOfSectors
  superBlock : setBit (asSuperBlock.symm (countRootSb old.newSb)) 32 = .ok (disk.content 0)
  superBlocks : ∀ g, 0 < g → g < old.groups →
    disk.content (262144 * g) = asSuperBlock.symm (countRootSb old.newSb)
  descs : ∀ g, g < old.groups → disk.content (262144 * g + 8) =
    asDescs.symm ((Vector.replicate 16 Ext2GroupDesc.zero).set 0 (countRoot Ext2GroupDesc.zero))
  rootDir : disk.content 256 = asEntries.symm rootEntries

-- The sectors that `create_root` writes on such a disk.
theorem ext2Format_content_large {disk : DiskOperations} (hmany : 16 < disk.groups) :
    ∃ st disk' bits, FormatLooped disk st ∧
      setBit (asSuperBlock.symm (countRootSb disk.newSb)) 32 = .ok bits ∧
      ext2Format disk = .ok (ext2Success, disk') ∧
      disk'.numberOfSectors = st.disk.numberOfSectors ∧
      ∀ x, disk'.content x =
        if x = 0 then bits
        else if x % 262144 = 8 ∧ x / 262144 < disk.groups then
          asDescs.symm
            ((Vector.replicate 16 Ext2GroupDesc.zero).set 0 (countRoot Ext2GroupDesc.zero))
        else if x % 262144 = 0 ∧ x / 262144 < disk.groups then
          asSuperBlock.symm (countRootSb disk.newSb)
        else if x = 256 then asEntries.symm rootEntries
        else if x = 0 then rootInodeSector 32
        else st.disk.content x := by
  have hfit := disk.groups_fit
  obtain ⟨st, hrun, hst⟩ := format_loop disk (by omega)
  have hstart := formatStart_groups disk
  have hg : st.disk.groups = disk.groups := by
    rw [groups_congr hst.sectors_eq, hstart]
  have hsb : st.disk.content 0 = asSuperBlock.symm disk.newSb := by
    rw [hst.frame 0 (by omega) (by decide) (by decide), content_formatStart _ (by omega),
      if_neg (by decide), if_pos rfl]
  have hdescs : st.disk.content 8 = asDescs.symm (Vector.replicate 16 Ext2GroupDesc.zero) := by
    rw [Equiv.eq_symm_apply, hst.cleared (by omega) (Or.inr (by omega)), asDescs_zeroSector]
  have hd0 : (Vector.replicate 16 Ext2GroupDesc.zero)[0] = Ext2GroupDesc.zero :=
    Vector.getElem_replicate _
  obtain ⟨bits, hbits⟩ : ∃ bits, setBit (asSuperBlock.symm (countRootSb disk.newSb)) 32 = .ok bits :=
    ⟨_, setBit_of_lt (by decide)⟩
  have hbits' : setBit (rootContent st.disk disk.newSb (Vector.replicate 16 Ext2GroupDesc.zero)
      (Vector.replicate 16 Ext2GroupDesc.zero)[0].bgInodeTable
      (8 * (Vector.replicate 16 Ext2GroupDesc.zero)[0].bgBlockBitmap.toNat))
      ((Vector.replicate 16 Ext2GroupDesc.zero)[0].bgInodeTable.toNat + 32) = .ok bits := by
    rw [hd0]
    change setBit (rootContent st.disk _ _ 0 0) 32 = _
    rw [rootContent, if_neg (by omega), if_pos (by omega), hbits]
  obtain ⟨disk', hroot, hn, hc⟩ := createRoot_spec (by omega) hsb hdescs
    (newSb_sFirstDataBlock disk) (newSb_sInodesPerGroup disk) (by rw [hd0]; decide)
    (by rw [hd0]; decide) hbits'
  refine ⟨st, disk', bits, hst, hbits, ?_, hn, fun x ↦ ?_⟩
  · rw [ext2Format_eq, hrun, ok_bind, hroot, ok_bind]
    rfl
  · rw [hc x, rootContent, hd0, hg]
    rfl

theorem ext2Format_formattedLarge {disk : DiskOperations} (hmany : 16 < disk.groups) :
    ∃ disk', ext2Format disk = .ok (ext2Success, disk') ∧ FormattedLarge disk disk' := by
  obtain ⟨st, disk', bits, hst, hbits, hformat, hn, hc⟩ := ext2Format_content_large hmany
  refine ⟨disk', hformat, ?_⟩
  constructor
  case sectors_eq =>
    rw [hn, hst.sectors_eq]
    simp [formatStart]
  case superBlock => rw [hc, if_pos rfl, hbits]
  case superBlocks =>
    intro g hpos hgr
    rw [hc, if_neg (by omega), if_neg (by omega), if_pos (by omega)]
  case descs =>
    intro g hgr
    rw [hc, if_neg (by omega), if_pos (by omega)]
  case rootDir => rw [hc, if_neg (by omega), if_neg (by omega), if_neg (by omega), if_pos rfl]

-- Behind the root's block a format writes the copies of the superblock and of the descriptors.
theorem ext2Format_frame {disk disk' : DiskOperations} {r : Int} (hpos : 1 ≤ disk.groups)
    (h : ext2Format disk = .ok (r, disk')) {x : Nat} (hx : 296 ≤ x) (h0 : x % 262144 ≠ 0)
    (h8 : x % 262144 ≠ 8) (h9 : x % 262144 ≠ 9) : disk'.content x = disk.content x := by
  by_cases hfew : disk.groups ≤ 16
  · obtain ⟨disk₁, hformat, hformatted⟩ := ext2Format_formatted hpos hfew
    rw [h, Except.ok.injEq, Prod.mk.injEq] at hformat
    rw [hformat.2]
    exact hformatted.frame x (by omega) (by omega) h0 h8 h9
  · have hfit := disk.groups_fit
    have hmany : 16 < disk.groups := Nat.lt_of_not_le hfew
    obtain ⟨st, disk₁, bits, hst, -, hformat, -, hc⟩ := ext2Format_content_large hmany
    rw [h, Except.ok.injEq, Prod.mk.injEq] at hformat
    rw [hformat.2, hc, if_neg (by omega), if_neg (fun hd ↦ h8 hd.1), if_neg (fun hs ↦ h0 hs.1),
      if_neg (by omega), if_neg (by omega), hst.frame x (by omega) h8 h9,
      content_formatStart _ (by omega), if_neg (by omega), if_neg (by omega)]

/-! ## A disk without groups -/

-- The bit for the root's block is outside the sector that is loaded.
theorem createRoot_undefined {disk : DiskOperations}
    (h0 : (asSuperBlock (disk.content 0)).sFirstDataBlock = 0)
    (hper : (asSuperBlock (disk.content 0)).sInodesPerGroup = 1024)
    (hlo : 4096 ≤ (getElem (asDescs (disk.content 8)) 0 firstRecord_lt).bgInodeTable.toNat)
    (hhi : (getElem (asDescs (disk.content 8)) 0 firstRecord_lt).bgInodeTable.toNat < 4000000000) :
    ¬ Defined (createRoot disk) := by
  rintro ⟨disk', h⟩
  unfold createRoot at h
  simp only [Disk.operations_eq, Disk.writeSector_eq] at h
  rcases bind_eq_ok.mp h with ⟨sbSector, hsb, h⟩
  rcases DiskOperations.readSector_eq_some (determinate_eq_ok.mp hsb) with ⟨-, hsb⟩
  rw [UInt32.toNat_zero] at hsb
  subst hsb
  rcases bind_eq_ok.mp h with ⟨descSector, hread, h⟩
  rcases DiskOperations.readSector_eq_some (determinate_eq_ok.mp hread) with ⟨-, hdescs⟩
  rw [descSector_toNat h0] at hdescs
  subst hdescs
  rcases bind_eq_ok.mp h with ⟨desc, hload, h⟩
  rw [loadAt_of_lt _ (by decide), determinate_some, Except.ok.injEq] at hload
  rcases bind_eq_ok.mp h with ⟨inodeSector, -, h⟩
  rcases bind_eq_ok.mp h with ⟨dirSector, -, h⟩
  rcases bind_eq_ok.mp h with ⟨descSector, -, h⟩
  rcases bind_eq_ok.mp h with ⟨bitmap, -, h⟩
  rcases bind_eq_ok.mp h with ⟨bitmap', hbit, -⟩
  rw [setBit_of_ge] at hbit
  · cases hbit
  · rw [h0, inodeTableBlocks_eq hper, ← hload]
    simp
    omega

-- A disk whose old descriptor sector says that the root goes far away.
theorem ext2Format_undefined {disk : DiskOperations} (hzero : disk.groups = 0)
    (hlo : 4096 ≤ (getElem (asDescs (disk.content 8)) 0 firstRecord_lt).bgInodeTable.toNat)
    (hhi : (getElem (asDescs (disk.content 8)) 0 firstRecord_lt).bgInodeTable.toNat < 4000000000) :
    ¬ Defined (ext2Format disk) := by
  rintro ⟨r, h⟩
  rw [ext2Format_eq, hzero] at h
  rcases bind_eq_ok.mp h with ⟨st, hloop, h⟩
  rw [List.range_zero, forEach_nil, Except.ok.injEq] at hloop
  subst hloop
  rcases bind_eq_ok.mp h with ⟨disk', hroot, -⟩
  change createRoot (formatStart disk) = _ at hroot
  have h8 : (formatStart disk).content 8 = disk.content 8 := by
    rw [formatStart, DiskOperations.content_writeSector_of_ne _ (by decide),
      DiskOperations.content_writeSector_of_ne _ (by decide)]
  by_cases hsize : 0 < disk.numberOfSectors.toNat
  · have hsb : asSuperBlock ((formatStart disk).content 0) = disk.newSb := by
      rw [formatStart, DiskOperations.content_writeSector_of_ne _ (by decide),
        DiskOperations.content_writeSector _ (show (0 : UInt32).toNat < _ from hsize),
        UInt32.toNat_zero, if_pos rfl,
        Equiv.apply_symm_apply]
    refine createRoot_undefined ?_ ?_ ?_ ?_ ⟨disk', hroot⟩
    · rw [hsb]
      rfl
    · rw [hsb]
      rfl
    · rw [h8]
      exact hlo
    · rw [h8]
      exact hhi
  · -- not even the superblock is there
    unfold createRoot at hroot
    rw [Disk.operations_eq] at hroot
    rcases bind_eq_ok.mp hroot with ⟨sbSector, hread, -⟩
    have hlt := (DiskOperations.readSector_eq_some (determinate_eq_ok.mp hread)).1
    rw [formatStart, DiskOperations.numberOfSectors_writeSector,
      DiskOperations.numberOfSectors_writeSector, UInt32.toNat_zero] at hlt
    exact hsize hlt

end Ext2Fs
