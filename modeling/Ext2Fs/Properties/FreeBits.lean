import Ext2Fs.Properties.Totals

/-!
# Free bits

The switches with which both allocators decode a byte of a bitmap have cases for eight values and no
default.  The bitmaps that calls of the allocators leave hold no other values.
-/

open Reasoning

namespace Ext2Fs

/-! ## The property -/

/-- The byte is a run of ones followed by zeros, and unless it is full a case of the switches gives
its first clear bit. -/
structure Decodes (byte : UInt8) : Prop where
  shape : ∃ k, k ≤ 8 ∧ ∀ r, r < 8 → byte.toNat.testBit (7 - r) = decide (r < k)
  offset : byte ≠ 0xFF → ∃ r, decodedOffset byte = some r ∧ FirstClear byte r

namespace AllocCall

/-- The block of the bitmap that the call scans. -/
def bitmap (fs : Ext2Filesystem) : AllocCall → UInt32
  | .block parent => (fs.disk.storedDesc 0 (parent.entry.inode.toNat / 1024)).bgBlockBitmap
  | .inode parent => (fs.disk.storedDesc 0 (parent.inodeNum.toNat / 1024)).bgInodeBitmap

/-- Sector `i` of the bitmap that the call scans. -/
def scanned (fs : Ext2Filesystem) (c : AllocCall) (i : Nat) : Sector :=
  fs.disk.content (UInt32.ofNat i + c.bitmap fs * sectorsPerBlock).toNat

/-- The number that the call returns for an offset in byte `j` of sector `i`. -/
def number (i j offset : Nat) : AllocCall → Nat
  | .block _ => (i * 512 + j) * 8 + offset
  | .inode _ => j * 8 + offset

/-- The number `n` stands for the first clear bit of a byte that the call scans, as a case of the
switches gives it. -/
def Takes (fs : Ext2Filesystem) (c : AllocCall) (n : Int) : Prop :=
  ∃ i j offset byte, i < 8 ∧ (c.scanned fs i).toList[j]? = some byte ∧ byte ≠ 0xFF ∧
    decodedOffset byte = some offset ∧ FirstClear byte offset ∧ n = (c.number i j offset : Int)

end AllocCall

/-- Every byte that a call for an existing group may scan can be decoded.  No call uses a variable
that was not assigned, and one that succeeds takes the first clear bit of a byte. -/
structure FreeBitsDecoded (fs : Ext2Filesystem) : Prop where
  bytes : ∀ c : AllocCall, c.InGroup fs → ∀ i, i < 8 → ∀ byte ∈ (c.scanned fs i).toList,
    Decodes byte
  assigned : ∀ c : AllocCall, c.InGroup fs → c.run fs ≠ .error .indeterminate
  taken : ∀ (c : AllocCall) n fs', c.InGroup fs → c.run fs = .ok (n, fs') → n ≠ ext2Error →
    c.Takes fs n

/-! ## Bytes -/

theorem decodes_leadingOnes {p : Nat} (hp : p ≤ 8) : Decodes (leadingOnes p) := by
  constructor
  · exact ⟨p, hp, fun r hr ↦ leadingOnes_testBit hp hr⟩
  · intro hne
    have hlt : p < 8 := by
      apply Nat.lt_of_le_of_ne hp
      exact fun h ↦ hne ((leadingOnes_eq_full hp).mpr h)
    exact ⟨p, blockOffset_leadingOnes hlt, firstClear_leadingOnes hlt⟩

theorem decodes_of_isRuns {sector : Sector} (h : IsRuns sector) {byte : UInt8}
    (hbyte : byte ∈ sector.toList) : Decodes byte := by
  rcases h.exists_leadingOnes hbyte with ⟨p, hp, rfl⟩
  exact decodes_leadingOnes hp

theorem takes_of_leadingOnes {fs : Ext2Filesystem} {c : AllocCall} {i j p : Nat} (hi : i < 8)
    (hbyte : (c.scanned fs i).toList[j]? = some (leadingOnes p)) (hp : p < 8) :
    c.Takes fs (c.number i j p) := by
  have hne : leadingOnes p ≠ 0xFF := by
    rw [ne_eq, leadingOnes_eq_full (Nat.le_of_lt hp)]
    omega
  exact ⟨i, j, p, leadingOnes p, hi, hbyte, hne, blockOffset_leadingOnes hp,
    firstClear_leadingOnes hp, rfl⟩

theorem isRuns_zeroSector : IsRuns zeroSector := by
  have h := isRuns_onesPrefix 512 0
  rw [onesPrefix_zero] at h
  exact h

/-! ## The scan of alloc_free_inode -/

/-- Byte `j` in sector `i` of the inode bitmap has its upper half not full. -/
structure InodeByte (fs : Ext2Filesystem) (i j : Nat) (run : Nat → Nat) : Prop where
  sector_lt : i < 8
  byte_lt : j < 512
  run_le : ∀ j, run j ≤ 8
  half : run j < 4
  content_eq : fs.disk.content (24 + i) = leadingRuns 512 run

-- The byte loop stops at the first such byte of a sector.
theorem scanInodeBytes_runs {run : Nat → Nat} (hle : ∀ j, run j ≤ 8) (offset : Option Nat) :
    (∃ offset', scanInodeBytes (leadingRuns 512 run).toList 0 offset = .full offset') ∨
      ∃ j, j < 512 ∧ run j < 4 ∧
        scanInodeBytes (leadingRuns 512 run).toList 0 offset = .found j (some (run j)) := by
  by_cases hany : ∃ j, j < 512 ∧ run j < 4
  · have hfirst := Nat.find_spec hany
    refine Or.inr ⟨Nat.find hany, hfirst.1, hfirst.2, ?_⟩
    apply scanInodeBytes_leadingRuns hle hfirst.1 _ hfirst.2
    intro j hj
    have hmin := Nat.find_min hany hj
    omega
  · apply Or.inl
    rw [scanInodeBytes_full_iff]
    intro byte hbyte
    rcases List.getElem_of_mem hbyte with ⟨j, hj, rfl⟩
    have hlt : j < 512 := by simpa using hj
    rw [Vector.getElem_toList, getElem_leadingRuns]
    apply (leadingOnes_ge_iff (hle j)).mpr
    apply Nat.le_of_not_lt
    exact fun h ↦ hany ⟨j, hlt, h⟩

section Scan

variable {fs : Ext2Filesystem} {groupNum : UInt32} {desc : Ext2GroupDesc}

-- The sectors that the loop passes over leave nothing but an offset that is not used.
theorem scanInodeBitmap_runs (hfit : 32 ≤ fs.disk.numberOfSectors.toNat)
    (hmap : desc.bgInodeBitmap = 3) {is : List Nat}
    (his : ∀ i ∈ is, i < 8 ∧ IsRuns (fs.disk.content (24 + i))) (offset : Option Nat)
    (buf : Option Sector) :
    scanInodeBitmap fs groupNum desc offset buf is = .ok (ext2Error, fs) ∨
      ∃ i j run, InodeByte fs i j run ∧ scanInodeBitmap fs groupNum desc offset buf is =
        takeInode fs groupNum desc i (leadingRuns 512 run) j (some (run j)) := by
  induction is generalizing offset buf with
  | nil => exact Or.inl rfl
  | cons i is ih =>
    rw [List.forall_mem_cons] at his
    rcases his.1 with ⟨hi, run, hle, hcontent⟩
    have haddr : (UInt32.ofNat i + allocInodeBitmapBlock desc * sectorsPerBlock).toNat =
        24 + i := by
      rw [allocInodeBitmapBlock, hmap]
      exact sectorOfBlock_toNat (by decide) hi
    have hread := DiskOperations.readSector_eq buf haddr (by omega) hcontent
    rw [scanInodeBitmap, hread, determinate_some, ok_bind]
    rcases scanInodeBytes_runs hle offset with ⟨offset', hscan⟩ | ⟨j, hj, hhalf, hscan⟩
    · rw [hscan]
      exact ih his.2 offset' _
    · rw [hscan]
      exact Or.inr ⟨i, j, run, ⟨hi, hj, hle, hhalf, hcontent⟩, rfl⟩

-- The offset is the length of the run, and so the number is that of the first clear bit.
theorem takeInode_run (h0 : fs.spb.sFirstDataBlock = 0) (hpos : 1 ≤ fs.disk.groups) {k : Nat}
    (hgroup : groupNum.toNat = k) (hk : k < 16) {i j : Nat} {run : Nat → Nat}
    (h : InodeByte fs i j run) :
    ∃ fs', takeInode fs groupNum desc i (leadingRuns 512 run) j (some (run j)) =
        .ok (((j * 8 + run j : Nat) : Int), fs') ∧
      Allocated fs fs' (UInt32.ofNat i + desc.bgInodeBitmap * sectorsPerBlock)
        (leadingRuns 512 (Function.update run j (run j + 1))) (countInodeSb fs.spb) i k
        countInode := by
  have hhalf := h.half
  have hg : (fs.disk.writeSector (UInt32.ofNat i + desc.bgInodeBitmap * sectorsPerBlock)
      (leadingRuns 512 (Function.update run j (run j + 1)))).groups = fs.disk.groups :=
    DiskOperations.groups_writeSector _ _
  have hfirst : (countInodeSb fs.spb).sFirstDataBlock = 0 := h0
  rcases writeCounts_spec _ (countInodeSb fs.spb) hfirst (by rw [hg]; exact hpos) i
    (leadingRuns 512 (Function.update run j (run j + 1))) hgroup hk countInode with
    ⟨fs', hcounts, -⟩
  refine ⟨fs', ?_, allocated_of_writeCounts hfirst hpos hgroup hk hcounts⟩
  rw [takeInode, determinate_some, ok_bind]
  simp only [setBit_leadingRuns h.byte_lt (show run j < 8 by omega), ok_bind]
  rw [allocInodeBitmapBlock, hcounts, ok_bind]
  rfl

end Scan

/-! ## What a call does -/

/-- The sectors of both bitmaps that all groups share hold runs of leading ones. -/
structure RunBitmaps (disk : DiskOperations) (fs : Ext2Filesystem) (m : Nat) : Prop
    extends Allocating disk fs m where
  runs : ∀ x, 16 ≤ x → x < 32 → IsRuns (fs.disk.content x)

namespace RunBitmaps

variable {disk : DiskOperations} {fs fs' : Ext2Filesystem} {m : Nat} {parent : Ext2Node}
  (h : RunBitmaps disk fs m) (hpos : 1 ≤ disk.groups) (hfew : disk.groups ≤ 16)

include h hfew

theorem scanned_block (hgroup : parent.entry.inode.toNat / 1024 < disk.groups) {i : Nat}
    (hi : i < 8) : (AllocCall.block parent).scanned fs i = fs.disk.content (16 + i) := by
  have hk : parent.entry.inode.toNat / 1024 < 16 := by omega
  have haddr : (UInt32.ofNat i + 2 * sectorsPerBlock).toNat = 16 + i :=
    sectorOfBlock_toNat (by decide) hi
  rw [AllocCall.scanned, AllocCall.bitmap, storedDesc_zero fs hk, h.blockMaps _ hk hgroup, haddr]

theorem scanned_inode (hgroup : parent.inodeNum.toNat / 1024 < disk.groups) {i : Nat}
    (hi : i < 8) : (AllocCall.inode parent).scanned fs i = fs.disk.content (24 + i) := by
  have hk : parent.inodeNum.toNat / 1024 < 16 := by omega
  have haddr : (UInt32.ofNat i + 3 * sectorsPerBlock).toNat = 24 + i :=
    sectorOfBlock_toNat (by decide) hi
  rw [AllocCall.scanned, AllocCall.bitmap, storedDesc_zero fs hk, h.inodeMaps _ hk hgroup, haddr]

include hpos

-- A call of `alloc_free_inode` looks at another group, finds no byte, or takes the first clear bit
-- of one.
theorem inode_cases (hgroup : parent.inodeNum.toNat / 1024 < disk.groups) :
    allocFreeInode fs parent = .error .badPointer ∨
      allocFreeInode fs parent = .ok (ext2Error, fs) ∨
      ∃ i j run fs', InodeByte fs i j run ∧
        allocFreeInode fs parent = .ok (((j * 8 + run j : Nat) : Int), fs') ∧
        Allocated fs fs' (UInt32.ofNat i + 3 * sectorsPerBlock)
          (leadingRuns 512 (Function.update run j (run j + 1))) (countInodeSb fs.spb) i
          (parent.inodeNum.toNat / 1024) countInode := by
  have hg := h.groups_eq
  have hfit := fs.disk.groups_fit
  have hpos' : 1 ≤ fs.disk.groups := by omega
  have hk : parent.inodeNum.toNat / 1024 < 16 := by omega
  have hnum : (UInt32.ofInt ((parent.inodeNum.toNat / 1024 : Nat) : Int)).toNat =
      parent.inodeNum.toNat / 1024 := ofInt_natCast_toNat (by omega)
  have hmap := (copyDesc_bgInodeBitmap _).trans (h.inodeMaps _ hk hgroup)
  have hfind := findFreeGroup_cases h.firstDataBlock hpos'
    (groupNum_toNat (show parent.inodeNum.toNat / 1024 = _ from rfl)) hk
  rw [allocFreeInode]
  split at hfind
  · rw [hfind, ok_bind]
    simp only [readDesc_of_lt fs h.firstDataBlock hpos' hnum hk, determinate_some, ok_bind]
    have hsectors : ∀ i ∈ List.range 8, i < 8 ∧ IsRuns (fs.disk.content (24 + i)) := by
      intro i hi
      rw [List.mem_range] at hi
      exact ⟨hi, h.runs _ (by omega) (by omega)⟩
    rcases scanInodeBitmap_runs (by omega) hmap hsectors none none with
      herror | ⟨i, j, run, hbyte, hscan⟩
    · exact Or.inr (Or.inl herror)
    · rcases takeInode_run h.firstDataBlock hpos' hnum hk hbyte with ⟨fs', htake, halloc⟩
      rw [hscan, htake]
      rw [hmap] at halloc
      exact Or.inr (Or.inr ⟨i, j, run, fs', hbyte, rfl, halloc⟩)
  · rw [hfind, error_bind]
    exact Or.inl rfl

-- A call that returns changes one sector of a bitmap, and there one byte.
theorem runs_block (hgroup : parent.entry.inode.toNat / 1024 < disk.groups) {n : Int}
    (hrun : allocFreeBlock fs parent = .ok (n, fs')) {x : Nat} (hlo : 16 ≤ x) (hhi : x < 32) :
    IsRuns (fs'.disk.content x) := by
  rcases h.block_cases hpos hfew hgroup (by omega) with ⟨-, herror⟩ | ⟨-, fs₁, hrun₁, -, -, hc⟩
  · rw [hrun] at herror
    cases herror
  · rw [hrun, Except.ok.injEq, Prod.mk.injEq] at hrun₁
    rcases hrun₁ with ⟨-, rfl⟩
    rw [hc]
    split
    · exact isRuns_onesPrefix 512 (m + 1)
    · rw [countedContent, if_neg (by omega), if_neg (by omega)]
      exact h.runs x hlo hhi

theorem runs_inode (hgroup : parent.inodeNum.toNat / 1024 < disk.groups) {n : Int}
    (hrun : allocFreeInode fs parent = .ok (n, fs')) {x : Nat} (hlo : 16 ≤ x) (hhi : x < 32) :
    IsRuns (fs'.disk.content x) := by
  rcases h.inode_cases hpos hfew hgroup with
    herror | herror | ⟨i, j, run, fs₁, hbyte, hrun₁, halloc⟩
  · rw [hrun] at herror
    cases herror
  · rw [hrun, Except.ok.injEq, Prod.mk.injEq] at herror
    rw [herror.2]
    exact h.runs x hlo hhi
  · rw [hrun, Except.ok.injEq, Prod.mk.injEq] at hrun₁
    rcases hrun₁ with ⟨-, rfl⟩
    by_cases hx : x = (UInt32.ofNat i + 3 * sectorsPerBlock).toNat
    · have hfit := fs.disk.groups_fit
      have hg := h.groups_eq
      have hhalf := hbyte.half
      rw [halloc.content_eq, if_neg (by omega), if_neg (by omega),
        DiskOperations.content_writeSector _ (by omega), if_pos hx]
      exact isRuns_update hbyte.run_le (by omega)
    · rw [halloc.content_of_ne hx (by omega) (by omega)]
      exact h.runs x hlo hhi

theorem run {c : AllocCall} (hc : c.InGroup fs) {n : Int} (hrun : c.run fs = .ok (n, fs')) :
    ∃ m', RunBitmaps disk fs' m' := by
  rcases (h.toAllocating.run hpos hfew hc hrun).2 with ⟨m', h'⟩
  rw [AllocCall.InGroup, h.groups_eq] at hc
  refine ⟨m', h', fun x hlo hhi ↦ ?_⟩
  cases c with
  | block parent => exact h.runs_block hpos hfew hc hrun hlo hhi
  | inode parent => exact h.runs_inode hpos hfew hc hrun hlo hhi

/-! ### Decoding -/

-- The block allocator takes bit `m` of the first sector.
theorem takes_block (hgroup : parent.entry.inode.toNat / 1024 < disk.groups) {n : Int}
    (hrun : allocFreeBlock fs parent = .ok (n, fs')) : (AllocCall.block parent).Takes fs n := by
  rcases h.block_cases hpos hfew hgroup (by omega) with ⟨-, herror⟩ | ⟨hm, fs₁, hrun₁, -, -, -⟩
  · rw [hrun] at herror
    cases herror
  · rw [hrun, Except.ok.injEq, Prod.mk.injEq] at hrun₁
    have hprefix : prefixRun m (m / 8) = m % 8 := by
      unfold prefixRun
      omega
    have hbyte : ((AllocCall.block parent).scanned fs 0).toList[m / 8]? =
        some (leadingOnes (m % 8)) := by
      rw [h.scanned_block hfew hgroup (by decide), h.bits, onesPrefix,
        getElem?_leadingRuns (by omega), hprefix]
    have hnumber : (AllocCall.block parent).number 0 (m / 8) (m % 8) = m := by
      rw [AllocCall.number]
      omega
    have htakes := takes_of_leadingOnes (by decide) hbyte (Nat.mod_lt m (by decide))
    rw [hrun₁.1]
    rwa [hnumber] at htakes

theorem takes_inode (hgroup : parent.inodeNum.toNat / 1024 < disk.groups) {n : Int}
    (hrun : allocFreeInode fs parent = .ok (n, fs')) (hne : n ≠ ext2Error) :
    (AllocCall.inode parent).Takes fs n := by
  rcases h.inode_cases hpos hfew hgroup with herror | herror | ⟨i, j, run, fs₁, hfound, hrun₁, -⟩
  · rw [hrun] at herror
    cases herror
  · rw [hrun, Except.ok.injEq, Prod.mk.injEq] at herror
    exact absurd herror.1 hne
  · rw [hrun, Except.ok.injEq, Prod.mk.injEq] at hrun₁
    have hhalf := hfound.half
    have hbyte : ((AllocCall.inode parent).scanned fs i).toList[j]? =
        some (leadingOnes (run j)) := by
      rw [h.scanned_inode hfew hgroup hfound.sector_lt, hfound.content_eq,
        getElem?_leadingRuns hfound.byte_lt]
    rw [hrun₁.1]
    exact takes_of_leadingOnes hfound.sector_lt hbyte (by omega)

theorem freeBitsDecoded : FreeBitsDecoded fs := by
  have hgroup : ∀ c : AllocCall, c.InGroup fs → c.group < disk.groups := by
    intro c hc
    rw [← h.groups_eq]
    exact hc
  constructor
  case bytes =>
    intro c hc i hi byte hbyte
    have hc := hgroup c hc
    cases c with
    | block parent =>
      rw [h.scanned_block hfew hc hi] at hbyte
      exact decodes_of_isRuns (h.runs _ (by omega) (by omega)) hbyte
    | inode parent =>
      rw [h.scanned_inode hfew hc hi] at hbyte
      exact decodes_of_isRuns (h.runs _ (by omega) (by omega)) hbyte
  case assigned =>
    intro c hc herror
    have hc := hgroup c hc
    cases c with
    | block parent =>
      change allocFreeBlock fs parent = _ at herror
      have hk : parent.entry.inode.toNat / 1024 < 16 := Nat.lt_of_lt_of_le hc hfew
      rcases h.block_cases hpos hfew hc hk with ⟨-, hrun⟩ | ⟨-, fs', hrun, -⟩
      · rw [hrun] at herror
        cases herror
      · rw [hrun] at herror
        cases herror
    | inode parent =>
      change allocFreeInode fs parent = _ at herror
      rcases h.inode_cases hpos hfew hc with hrun | hrun | ⟨i, j, run, fs', -, hrun, -⟩
      · rw [hrun] at herror
        cases herror
      · rw [hrun] at herror
        cases herror
      · rw [hrun] at herror
        cases herror
  case taken =>
    intro c n fs' hc hrun hne
    have hc := hgroup c hc
    cases c with
    | block parent => exact h.takes_block hpos hfew hc hrun
    | inode parent => exact h.takes_inode hpos hfew hc hrun hne

end RunBitmaps

/-! ## Runs -/

section Runs

variable {disk disk' : DiskOperations} {fs : Ext2Filesystem}

theorem runBitmaps_newFs (h : Formatted disk disk') (hpos : 1 ≤ disk.groups)
    (hfew : disk.groups ≤ 16) : RunBitmaps disk (newFs disk disk') 37 := by
  refine ⟨allocating_newFs h hpos hfew, fun x hlo hhi ↦ ?_⟩
  change IsRuns (disk'.content x)
  rcases Nat.lt_trichotomy x 24 with hlt | rfl | hgt
  · rcases Nat.eq_or_lt_of_le hlo with rfl | hrest
    · rw [h.blockBitmap]
      exact isRuns_onesPrefix 512 37
    · rw [h.blockBitmapRest x hrest hlt]
      exact isRuns_zeroSector
  · rw [h.inodeBitmap]
    exact isRuns_onesPrefix 512 11
  · rw [h.inodeBitmapRest x hgt hhi]
    exact isRuns_zeroSector

/-- On a formatted disk of 1 to 16 groups, in every state that calls of the two allocators reach,
the switches decode all bytes of the bitmaps. -/
theorem freeBits_decoded (hpos : 1 ≤ disk.groups) (hfew : disk.groups ≤ 16)
    (h : Reachable AllocCall.step AllocCall.InGroup (fun fs ↦ ∃ root, Mounted disk fs root) fs) :
    FreeBitsDecoded fs := by
  have hinv : ∃ m, RunBitmaps disk fs m := by
    apply Reachable.invariant (fun fs ↦ ∃ m, RunBitmaps disk fs m) _ _ h
    · intro fs hmounted
      rcases hmounted with ⟨root, hmount⟩
      rcases exists_mounted hpos hfew with ⟨disk', hformatted, hmount'⟩
      rcases mounted_unique hmount hmount' with ⟨rfl, -⟩
      exact ⟨37, runBitmaps_newFs hformatted hpos hfew⟩
    · intro fs c fs' hinv hc hstep
      rcases hinv with ⟨m, hm⟩
      unfold AllocCall.step at hstep
      rcases bind_eq_ok.mp hstep with ⟨⟨n, fs₁⟩, hrun, hret⟩
      simp only [pure_eq_ok, Except.ok.injEq] at hret
      rw [← hret]
      exact hm.run hpos hfew hc hrun
  rcases hinv with ⟨m, hm⟩
  exact hm.freeBitsDecoded hpos hfew

/-- An inode for the root, and a block for it. -/
theorem freeBits_decoded_zeroedDisk : ∃ fs fs₁ fs₂,
    (∃ root, Mounted (zeroedDisk 524288) fs root) ∧
    AllocCall.step fs (.inode rootNode) = .ok fs₁ ∧
    AllocCall.step fs₁ (.block rootNode) = .ok fs₂ ∧ FreeBitsDecoded fs₂ := by
  rcases @exists_mounted (zeroedDisk 524288) (by decide) (by decide) with ⟨disk', h, hmount⟩
  rcases exists_first_calls h (by decide) (by decide) rootNode (by decide) with
    ⟨fs₁, fs₂, hinode, hblock⟩
  have h₁ : AllocCall.step (newFs (zeroedDisk 524288) disk') (.inode rootNode) = .ok fs₁ := by
    rw [AllocCall.step, AllocCall.run, hinode]
    rfl
  have h₂ : AllocCall.step fs₁ (.block rootNode) = .ok fs₂ := by
    rw [AllocCall.step, AllocCall.run, hblock]
    rfl
  have halloc := allocating_newFs h (by decide) (by decide)
  have hc : (AllocCall.inode rootNode).InGroup (newFs (zeroedDisk 524288) disk') := by
    rw [AllocCall.InGroup, halloc.groups_eq]
    decide
  have hc₁ : (AllocCall.block rootNode).InGroup fs₁ := by
    rcases (halloc.run (by decide) (by decide) hc hinode).2 with ⟨m, halloc₁⟩
    rw [AllocCall.InGroup, halloc₁.groups_eq]
    decide
  exact ⟨_, fs₁, fs₂, ⟨_, hmount⟩, h₁, h₂, freeBits_decoded
    (show 1 ≤ (zeroedDisk 524288).groups by decide) (by decide)
    (((Reachable.start ⟨_, hmount⟩).call hc h₁).call hc₁ h₂)⟩

end Runs

end Ext2Fs
