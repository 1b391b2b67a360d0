import Ext2Fs.Spec.CreateRoot

/-!
# Formatting, with the sectors that are written

`ext2_format` on a disk that keeps a record of its own does to the sectors what it does without.
The record kept here has the number of every sector passed to `write_sector`, whether or not the
sector exists.
-/

open Reasoning

namespace Ext2Fs

/-! ## Any disk -/

section Operations

variable {δ : Type} [Disk δ] (disk : δ) (sb : Ext2SuperBlock)

theorem operations_writeEach (addr : Nat → UInt32) (data : Sector) (is : List Nat) :
    Disk.operations (writeEach addr data is disk) =
      writeEach addr data is (Disk.operations disk) := by
  induction is generalizing disk with
  | nil => rfl
  | cons i is ih =>
    rw [writeEach_cons, ih, Disk.operations_writeSector, writeEach_cons, Disk.writeSector_eq]

theorem operations_clearBlock (block : UInt32) :
    Disk.operations (clearBlock disk block) = clearBlock (Disk.operations disk) block :=
  operations_writeEach ..

theorem operations_writeSuperBlocks (first : Nat) :
    Disk.operations (writeSuperBlocks disk sb first) =
      writeSuperBlocks (Disk.operations disk) sb first :=
  operations_writeEach ..

theorem operations_writeDescSectors (sector : Sector) :
    Disk.operations (writeDescSectors disk sb sector) =
      writeDescSectors (Disk.operations disk) sb sector :=
  operations_writeEach ..

theorem operations_writeDescTable (i : Nat) (sector : Sector) :
    Disk.operations (writeDescTable disk sb i sector) =
      writeDescTable (Disk.operations disk) sb i sector :=
  operations_writeEach ..

theorem initBitmap_operations (desc : Ext2GroupDesc) :
    initBitmap (Disk.operations disk) sb desc =
      initBitmap disk sb desc >>= fun disk ↦ .ok (Disk.operations disk) := by
  unfold initBitmap
  rw [bind_bind]
  apply bind_congr_ok
  intro sector _
  split
  · rw [bind_bind]
    apply bind_congr_ok
    intro sector' _
    simp only [pure_eq_ok, ok_bind, Disk.operations_writeSector, operations_clearBlock,
      Disk.writeSector_eq]
  · simp only [pure_eq_ok, ok_bind, Disk.operations_writeSector, operations_clearBlock,
      Disk.writeSector_eq]

theorem createRoot_operations :
    createRoot (Disk.operations disk) =
      createRoot disk >>= fun disk ↦ .ok (Disk.operations disk) := by
  unfold createRoot
  rw [bind_bind]
  apply bind_congr_ok
  intro sbSector _
  rw [bind_bind]
  apply bind_congr_ok
  intro descSector _
  rw [bind_bind]
  apply bind_congr_ok
  intro desc _
  rw [bind_bind]
  apply bind_congr_ok
  intro inodeSector _
  rw [bind_bind]
  apply bind_congr_ok
  intro dirSector _
  rw [bind_bind]
  apply bind_congr_ok
  intro descSector' _
  simp only [operations_writeDescSectors, operations_writeSuperBlocks, Disk.operations_writeSector,
    Disk.operations_eq, Disk.writeSector_eq]
  rw [bind_bind]
  apply bind_congr_ok
  intro sector _
  rw [bind_bind]
  apply bind_congr_ok
  intro bits _
  simp only [pure_eq_ok, ok_bind, operations_writeDescSectors, operations_writeSuperBlocks,
    Disk.operations_writeSector]

/-- The state of the loop without what the disk keeps of its own. -/
def FormatState.operations (st : FormatState δ) : FormatState DiskOperations :=
  ⟨Disk.operations st.disk, st.sector, st.desc⟩

theorem startDescSector_operations (st : FormatState δ) :
    startDescSector st.operations = (startDescSector st).operations := by
  unfold FormatState.operations startDescSector
  simp only [operations_writeEach]

theorem formatGroup_operations (st : FormatState δ) (i : Nat) :
    formatGroup sb st.operations i = formatGroup sb st i >>= fun st ↦ .ok st.operations := by
  have hstart : (if UInt32.ofNat i % ((Disk.operations st.disk).bytesPerSector / 32) = 0 then
      startDescSector st.operations else st.operations) =
      (if UInt32.ofNat i % ((Disk.operations st.disk).bytesPerSector / 32) = 0 then
        startDescSector st else st).operations := by
    split
    · exact startDescSector_operations st
    · rfl
  unfold formatGroup
  simp only [Disk.operations_eq, show st.operations.disk = Disk.operations st.disk from rfl, hstart]
  generalize (if UInt32.ofNat i % ((Disk.operations st.disk).bytesPerSector / 32) = 0 then
    startDescSector st else st) = st'
  rw [bind_bind]
  apply bind_congr_ok
  intro sector _
  rw [bind_bind]
  have hdisk : (if UInt32.ofNat i / ((Disk.operations st.disk).bytesPerSector / 32) ≠ 0 ∨
      UInt32.ofNat i = st'.operations.disk.groupCount - 1 then
        writeDescTable st'.operations.disk sb i sector else st'.operations.disk) =
      Disk.operations (if UInt32.ofNat i / ((Disk.operations st.disk).bytesPerSector / 32) ≠ 0 ∨
        UInt32.ofNat i = (Disk.operations st'.disk).groupCount - 1 then
          writeDescTable st'.disk sb i sector else st'.disk) := by
    rw [show st'.operations.disk = Disk.operations st'.disk from rfl]
    split
    · exact (operations_writeDescTable ..).symm
    · rfl
  rw [hdisk, initBitmap_operations, bind_bind]
  apply bind_congr_ok
  intro disk' _
  rfl

theorem forEach_formatGroup_operations (st : FormatState δ) (is : List Nat) :
    forEach (formatGroup sb) st.operations is =
      forEach (formatGroup sb) st is >>= fun st ↦ .ok st.operations := by
  induction is generalizing st with
  | nil => rfl
  | cons i is ih =>
    rw [forEach_cons, forEach_cons, formatGroup_operations, bind_bind, bind_bind]
    apply bind_congr_ok
    intro st' _
    exact ih st'

-- What a disk keeps of its own is never looked at.
theorem ext2Format_operations :
    ext2Format (Disk.operations disk) =
      ext2Format disk >>= fun p ↦ .ok (p.1, Disk.operations p.2) := by
  unfold ext2Format
  rw [bind_bind]
  have hstart : Disk.writeSector (Disk.writeSector (Disk.operations disk) 0
      (asSuperBlock.symm (Disk.operations disk).newSb)) 1 zeroSector =
      Disk.operations (Disk.writeSector (Disk.writeSector disk 0
        (asSuperBlock.symm (Disk.operations disk).newSb)) 1 zeroSector) := by
    simp only [Disk.operations_writeSector, Disk.writeSector_eq]
  simp only [Disk.operations_eq, hstart]
  generalize Disk.writeSector (Disk.writeSector disk 0
    (asSuperBlock.symm (Disk.operations disk).newSb)) 1 zeroSector = disk₁
  change forEach _ (FormatState.operations ⟨disk₁, zeroSector, 0⟩) _ >>= _ = _
  rw [forEach_formatGroup_operations, bind_bind]
  apply bind_congr_ok
  intro st _
  rw [ok_bind, show st.operations.disk = Disk.operations st.disk from rfl, createRoot_operations,
    bind_bind, bind_bind]
  apply bind_congr_ok
  intro disk' _
  rfl

end Operations

/-! ## The record of the writes -/

structure TracedDisk where
  disk : DiskOperations
  written : List UInt32

namespace TracedDisk

def writeSector (t : TracedDisk) (sector : UInt32) (data : Sector) : TracedDisk where
  disk := t.disk.writeSector sector data
  written := t.written ++ [sector]

instance : Disk TracedDisk where
  operations := TracedDisk.disk
  writeSector := TracedDisk.writeSector
  operations_writeSector _ _ _ := rfl

@[simp] theorem operations_eq (t : TracedDisk) : Disk.operations t = t.disk := rfl

/-- `ext2_format` with an empty record. -/
def ext2Format (disk : DiskOperations) : Exec (Int × TracedDisk) :=
  Ext2Fs.ext2Format { disk := disk, written := [] }

theorem ext2Format_erase (disk : DiskOperations) :
    Ext2Fs.ext2Format disk = ext2Format disk >>= fun p ↦ .ok (p.1, p.2.disk) :=
  ext2Format_operations (TracedDisk.mk disk [])

/-! ## Every write is to an existing sector -/

structure InRange (n : UInt32) (t : TracedDisk) : Prop where
  sectors_eq : t.disk.numberOfSectors = n
  written : ∀ sector ∈ t.written, sector.toNat < n.toNat

namespace InRange

variable {n : UInt32} {t t' : TracedDisk} (h : InRange n t)

include h

theorem fit : t.disk.groups * 262144 ≤ n.toNat := by
  rw [← h.sectors_eq]
  exact t.disk.groups_fit

theorem writeSector {sector : UInt32} (data : Sector) (hlt : sector.toNat < n.toNat) :
    InRange n (t.writeSector sector data) := by
  constructor
  · exact (DiskOperations.numberOfSectors_writeSector data).trans h.sectors_eq
  · intro a ha
    rcases List.mem_append.mp ha with ha | ha
    · exact h.written a ha
    · rw [List.mem_singleton.mp ha]
      exact hlt

theorem writeEach {addr : Nat → UInt32} (data : Sector) {is : List Nat}
    (hlt : ∀ i ∈ is, (addr i).toNat < n.toNat) : InRange n (Ext2Fs.writeEach addr data is t) := by
  induction is generalizing t with
  | nil => exact h
  | cons i is ih =>
    rw [writeEach_cons]
    exact ih (h.writeSector data (hlt i List.mem_cons_self))
      (fun j hj ↦ hlt j (List.mem_cons_of_mem i hj))

theorem clearBlock {block : UInt32} (hblock : 8 * block.toNat + 8 ≤ n.toNat) :
    InRange n (Ext2Fs.clearBlock t block) := by
  apply h.writeEach
  intro i hi
  rw [List.mem_range] at hi
  have hlt := n.toNat_lt
  simp
  omega

theorem initBitmap {sb : Ext2SuperBlock} (hn : 32 ≤ n.toNat)
    (hrun : Ext2Fs.initBitmap t sb newDesc = .ok t') : InRange n t' := by
  unfold Ext2Fs.initBitmap at hrun
  rcases bind_eq_ok.mp hrun with ⟨sector, -, hrun⟩
  have hblock : (initBlockBitmapBlock newDesc * 8).toNat = 16 := by decide
  have hinode : (initInodeBitmapBlock newDesc * sectorsPerBlock).toNat = 24 := by decide
  have h₁ := h.clearBlock (show 8 * (initBlockBitmapBlock newDesc).toNat + 8 ≤ n.toNat by
    change 8 * 2 + 8 ≤ _
    omega)
  have h₂ := h₁.writeSector sector (show (initBlockBitmapBlock newDesc * 8).toNat < n.toNat by omega)
  have h₃ := h₂.clearBlock (show 8 * (initInodeBitmapBlock newDesc).toNat + 8 ≤ n.toNat by
    change 8 * 3 + 8 ≤ _
    omega)
  rw [if_pos (by decide)] at hrun
  rcases bind_eq_ok.mp hrun with ⟨sector', -, hrun⟩
  rw [pure_eq_ok, Except.ok.injEq] at hrun
  rw [← hrun]
  exact h₃.writeSector sector' (by omega)

theorem copies {addr : Nat → UInt32} (data : Sector) {c : Nat} (hc : c < 262144)
    (haddr : ∀ i, i < t.disk.groups → (addr i).toNat = 262144 * i + c) {is : List Nat}
    (his : ∀ i ∈ is, i < t.disk.groups) : InRange n (Ext2Fs.writeEach addr data is t) := by
  have hfit := h.fit
  apply h.writeEach
  intro i hi
  have hg := his i hi
  rw [haddr i hg]
  omega

theorem writeSuperBlocks {sb : Ext2SuperBlock} (h0 : sb.sFirstDataBlock = 0) :
    InRange n (Ext2Fs.writeSuperBlocks t sb 0) := by
  have hle := t.disk.groups_le
  apply h.copies (c := 0) _ (by decide)
  · intro i hi
    rw [h0]
    simp
    omega
  · intro i hi
    rw [List.mem_range'_1, operations_eq] at hi
    change i < t.disk.groupCount.toNat
    omega

theorem writeDescSectors {sb : Ext2SuperBlock} (h0 : sb.sFirstDataBlock = 0) (sector : Sector) :
    InRange n (Ext2Fs.writeDescSectors t sb sector) := by
  have hle := t.disk.groups_le
  apply h.copies (c := 8) _ (by decide)
  · intro i hi
    rw [h0]
    simp
    omega
  · intro i hi
    exact List.mem_range.mp hi

theorem writeDescTable {sb : Ext2SuperBlock} (hsb : sb.sBlocksPerGroup = 32768) {i : Nat}
    (hi : i < 32) (sector : Sector) : InRange n (Ext2Fs.writeDescTable t sb i sector) := by
  have hle := t.disk.groups_le
  apply h.copies (c := 8 + i / 16) _ (by omega)
  · intro j hj
    rw [hsb, operations_eq, t.disk.bytesPerSector_eq]
    simp
    omega
  · intro j hj
    exact List.mem_range.mp hj

omit h in
theorem formatGroup {start : DiskOperations} {st st' : FormatState TracedDisk} {i : Nat}
    (h : InRange n st.disk) (hn : start.numberOfSectors = n) (hi : i < start.groups)
    (hrun : Ext2Fs.formatGroup start.newSb st i = .ok st') : InRange n st'.disk := by
  have hfit := start.groups_fit
  have hle := start.groups_le
  rw [hn] at hfit
  have henter : InRange n (if UInt32.ofNat i % (st.disk.disk.bytesPerSector / 32) = 0 then
      startDescSector st else st).disk := by
    split
    · apply h.writeEach
      intro j hj
      rw [List.mem_range] at hj
      simp
      omega
    · exact h
  unfold Ext2Fs.formatGroup at hrun
  simp only [operations_eq] at hrun
  generalize (if UInt32.ofNat i % (st.disk.disk.bytesPerSector / 32) = 0 then
    startDescSector st else st) = st₁ at henter hrun
  have hsectors : st₁.disk.disk.numberOfSectors = start.numberOfSectors :=
    henter.sectors_eq.trans hn.symm
  have hgroups : st₁.disk.disk.groups = start.groups := groups_congr hsectors
  rw [fillDesc_of_sectors hsectors (by omega)] at hrun
  rcases bind_eq_ok.mp hrun with ⟨sector, -, hrun⟩
  rcases bind_eq_ok.mp hrun with ⟨t', hinit, hrun⟩
  rw [pure_eq_ok, Except.ok.injEq] at hrun
  rw [← hrun]
  apply InRange.initBitmap _ (by omega) hinit
  split
  · exact henter.writeDescTable (newSb_sBlocksPerGroup start) (by omega) sector
  · exact henter

theorem createRoot {sb : Ext2SuperBlock} {descs : Vector Ext2GroupDesc 16}
    (hpos : 1 ≤ t.disk.groups) (hsb : t.disk.content 0 = asSuperBlock.symm sb)
    (hdescs : t.disk.content 8 = asDescs.symm descs) (h0 : sb.sFirstDataBlock = 0)
    (hper : sb.sInodesPerGroup = 1024) (htable : descs[0].bgInodeTable.toNat < 1000)
    (hbitmap : descs[0].bgBlockBitmap.toNat < 1000) (hrun : Ext2Fs.createRoot t = .ok t') :
    InRange n t' := by
  have hfit := h.fit
  have hle := t.disk.groups_le
  have hread₀ : (t.disk.readSector 0 none).2 = some (asSuperBlock.symm sb) :=
    DiskOperations.readSector_eq _ (by rfl) (by rw [h.sectors_eq]; omega) hsb
  have hread₈ : (t.disk.readSector ((sb.sFirstDataBlock + 1) * sectorsPerBlock) none).2 =
      some (asDescs.symm descs) :=
    DiskOperations.readSector_eq _ (descSector_toNat h0) (by rw [h.sectors_eq]; omega) hdescs
  have hload : loadAt asDescs (asDescs.symm descs) 0 = some descs[0] := by
    rw [loadAt_of_lt _ (by decide), Equiv.apply_symm_apply]
  unfold Ext2Fs.createRoot at hrun
  simp only [operations_eq, hread₀, determinate_some, ok_bind, Equiv.apply_symm_apply, hread₈,
    hload] at hrun
  rcases bind_eq_ok.mp hrun with ⟨inodeSector, -, hrun⟩
  rcases bind_eq_ok.mp hrun with ⟨dirSector, -, hrun⟩
  rcases bind_eq_ok.mp hrun with ⟨descSector, -, hrun⟩
  rcases bind_eq_ok.mp hrun with ⟨sector, -, hrun⟩
  rcases bind_eq_ok.mp hrun with ⟨bits, -, hrun⟩
  rw [pure_eq_ok, Except.ok.injEq] at hrun
  rw [← hrun]
  have hdata : (sb.sFirstDataBlock + descs[0].bgInodeTable + inodeTableBlocks sb).toNat =
      descs[0].bgInodeTable.toNat + 32 := by
    rw [h0, inodeTableBlocks_eq hper]
    simp
    omega
  have h₁ := h.writeSector inodeSector
    (show (descs[0].bgInodeTable * sectorsPerBlock).toNat < n.toNat by
      rw [blockSector_toNat (by omega)]; omega)
  have h₂ := h₁.writeSector dirSector
    (show ((sb.sFirstDataBlock + descs[0].bgInodeTable + inodeTableBlocks sb) *
        sectorsPerBlock).toNat < n.toNat by
      rw [blockSector_toNat (by omega), hdata]; omega)
  have h₃ := h₂.writeSuperBlocks (show (countRootSb sb).sFirstDataBlock = 0 from h0)
  have h₄ := h₃.writeDescSectors (show (countRootSb sb).sFirstDataBlock = 0 from h0) descSector
  apply h₄.writeSector
  have hmap : (countRoot descs[0]).bgBlockBitmap = descs[0].bgBlockBitmap := rfl
  rw [hmap, UInt32.toNat_add, blockSector_toNat (by omega), UInt32.toNat_div, hdata]
  simp
  omega

end InRange

-- The traced format of a disk whose groups the descriptor sector holds.
theorem ext2Format_inRange {disk : DiskOperations} (hpos : 1 ≤ disk.groups)
    (hfew : disk.groups ≤ 16) :
    ∃ t, ext2Format disk = .ok (ext2Success, t) ∧ Formatted disk t.disk ∧
      ∀ sector ∈ t.written, sector.toNat < disk.numberOfSectors.toNat := by
  have hfit := disk.groups_fit
  rcases ext2Format_formatted hpos hfew with ⟨disk', hformat, hformatted⟩
  rw [ext2Format_erase] at hformat
  rcases bind_eq_ok.mp hformat with ⟨⟨r, t⟩, htraced, herase⟩
  simp only [Except.ok.injEq, Prod.mk.injEq] at herase
  rcases herase with ⟨rfl, rfl⟩
  refine ⟨t, htraced, hformatted, ?_⟩
  unfold ext2Format Ext2Fs.ext2Format at htraced
  rcases bind_eq_ok.mp htraced with ⟨st, hloop, hroot⟩
  rcases bind_eq_ok.mp hroot with ⟨t', hroot, hret⟩
  simp only [pure_eq_ok, Except.ok.injEq, Prod.mk.injEq, true_and] at hret
  rw [hret] at hroot
  -- the loop, without the record
  let start : FormatState TracedDisk :=
    ⟨(writeSector ⟨disk, []⟩ 0 (asSuperBlock.symm disk.newSb)).writeSector 1 zeroSector,
      zeroSector, 0⟩
  rcases format_loop_few hpos hfew with ⟨st', hloop', -, hsb, h8⟩
  have hgroups : start.disk.disk.groupCount.toNat = disk.groups := formatStart_groups disk
  change forEach (Ext2Fs.formatGroup disk.newSb) start
    (List.range start.disk.disk.groupCount.toNat) = _ at hloop
  rw [hgroups] at hloop
  have herased := forEach_formatGroup_operations disk.newSb start (List.range disk.groups)
  rw [hloop, show start.operations = ⟨formatStart disk, zeroSector, 0⟩ from rfl, hloop', ok_bind,
    Except.ok.injEq] at herased
  rw [herased] at hsb h8
  have hempty : InRange disk.numberOfSectors ⟨disk, []⟩ := ⟨rfl, fun _ h ↦ absurd h List.not_mem_nil⟩
  have h₀ : InRange disk.numberOfSectors start.disk :=
    (hempty.writeSector (asSuperBlock.symm disk.newSb) (by simp; omega)).writeSector zeroSector
      (by simp; omega)
  have h₁ : InRange disk.numberOfSectors st.disk := by
    apply forEach_invariant (fun st ↦ InRange disk.numberOfSectors st.disk) _ h₀ hloop
    intro i hi s s' hs hstep
    exact hs.formatGroup rfl (List.mem_range.mp hi) hstep
  have hd0 : (asDescs (descSector disk.groups))[0] = newDesc := by
    rw [asDescs_descSector (by decide), if_pos (by omega)]
  have hdescs : st.disk.disk.content 8 = asDescs.symm (asDescs (descSector disk.groups)) := by
    rw [Equiv.symm_apply_apply]
    exact h8
  have h₂ := h₁.createRoot (by rw [groups_congr h₁.sectors_eq]; exact hpos) hsb hdescs
    (newSb_sFirstDataBlock disk) (newSb_sInodesPerGroup disk) (by rw [hd0]; decide)
    (by rw [hd0]; decide) hroot
  exact h₂.written

end TracedDisk

end Ext2Fs
