import Ext2Fs.Spec.AllocSteps
import Ext2Fs.Spec.Make

/-!
# What ext2_mkdir reads and writes

The calls that return, from any state.  Lookups get no further than the pointers of the inode, and
change nothing; each step of `ext2_mkdir` writes one sector, apart from the counters.
-/

open Reasoning

namespace Ext2Fs

/-! ## Lookups -/

section Lookup

variable {fs : Ext2Filesystem} {parent : Ext2Node} {inode : InodeVar} {name : List UInt8}
  {location : Option EntryLocation} {r : LookupResult}

/-- The location of an entry in a block of the inode. -/
def Locates (inode : InodeVar) (l : EntryLocation) : Prop :=
  (∃ k : Nat, (inode.iBlock[k]?).join = some l.blockNum) ∧ l.entryNum.toNat < 128

theorem scanEntries_found_lt {slots : List Ext2DirEntry} {k i : Nat}
    (h : scanEntries name slots k = .ok (.found i)) : i < k + slots.length := by
  induction slots generalizing k with
  | nil => cases h
  | cons entry slots ih =>
    have hrest : scanEntries name slots (k + 1) = .ok (.found i) →
        i < k + (entry :: slots).length := by
      intro h
      have hlt := ih h
      rw [List.length_cons]
      omega
    have hhere : (.ok (.found k) : Exec EntryScan) = .ok (.found i) →
        i < k + (entry :: slots).length := by
      intro h
      cases h
      rw [List.length_cons]
      omega
    rw [scanEntries] at h
    split at h
    · split at h
      · exact hhere h
      · exact hrest h
    · split at h
      · cases h
      · rcases bind_eq_ok.mp h with ⟨b, -, h⟩
        cases b with
        | true => exact hhere h
        | false => exact hrest h

/-- The offset in the file of sector `j` of block `i`. -/
def pairOffset (p : Nat × Nat) : UInt64 :=
  ((UInt32.ofNat p.1 * sectorsPerBlock + UInt32.ofNat p.2) * maxSectorSize).toUInt64

-- The sector loops start in the direct branch, with the block's own number as the index.
theorem getDatablock_pair {p : Nat × Nat} (hi : p.1 ≤ 15) (hj : p.2 < 8) (buf : Option Sector) :
    getDatablock fs parent inode (pairOffset p) buf =
      BlockWalk.finish ⟨fs, inode, buf, .inode p.1⟩ (pairOffset p) := by
  have hblock : (pairOffset p / 4096).toUInt32 = UInt32.ofNat p.1 := by
    unfold pairOffset
    apply UInt32.toNat_inj.mp
    simp
    omega
  have hnat : (UInt32.ofNat p.1).toNat = p.1 := by
    simp
    omega
  have hnear : UInt32.ofNat p.1 / blockSizeInBytes ≤ 12 := by
    rw [UInt32.le_iff_toNat_le]
    simp
    omega
  rw [getDatablock_near parent (by rw [hblock]; exact hnear), hblock, hnat]

/-- What the loops answer when the scan of sector `j` of a block stops. -/
def EntryScan.answer (fs : Ext2Filesystem) (block : UInt32) (j : Nat)
    (location : Option EntryLocation) : EntryScan → LookupResult
  | .found k =>
    ⟨some ext2Success, some ⟨block, UInt32.ofNat j * maxSectorSize / 32 + UInt32.ofNat k⟩, fs⟩
  | .noMore => ⟨some ext2Error, location, fs⟩
  | .next => ⟨none, location, fs⟩

-- The loops run out, at the pointer behind the last one at the latest, or the scan of one of the
-- sectors settles the search.
theorem lookupSectors_cases {pairs rest : List (Nat × Nat)} {buf : Option Sector}
    (hpairs : ∀ p ∈ pairs, p.1 < 15 ∧ p.2 < 8) (hrest : rest = [] ∨ ∃ t, rest = (15, 0) :: t)
    (h : lookupSectors parent name location fs inode buf (pairs ++ rest) = .ok r) :
    r = ⟨none, location, fs⟩ ∨ ∃ p ∈ pairs, ∃ buf out sector scan,
      getDatablock fs parent inode (pairOffset p) buf = .ok out ∧ out.2.2.2 = some sector ∧
        scanEntries name (asEntries sector).toList 0 = .ok scan ∧ scan ≠ .next ∧
          r = scan.answer fs out.1 p.2 location := by
  induction pairs generalizing buf with
  | nil =>
    rw [List.nil_append] at h
    rcases hrest with rfl | ⟨t, rfl⟩
    · rw [lookupSectors, Except.ok.injEq] at h
      exact Or.inl h.symm
    · rw [lookupSectors] at h
      rcases bind_eq_ok.mp h with ⟨out, hget, -⟩
      change getDatablock fs parent inode (pairOffset (15, 0)) buf = _ at hget
      rw [getDatablock_pair (by decide) (by decide)] at hget
      have hpointer := (finish_pointer hget).1
      simp at hpointer
  | cons p pairs ih =>
    have hp := hpairs p List.mem_cons_self
    rw [List.cons_append, lookupSectors] at h
    rcases bind_eq_ok.mp h with ⟨out, hget, h⟩
    change getDatablock fs parent inode (pairOffset p) buf = _ at hget
    have hwalk := hget
    rw [getDatablock_pair (by omega) hp.2] at hwalk
    rcases finish_pointer hwalk with ⟨-, hfs, hinode, -⟩
    rcases bind_eq_ok.mp h with ⟨sector, hsector, h⟩
    rcases bind_eq_ok.mp h with ⟨scan, hscan, h⟩
    rw [hfs, hinode] at h
    by_cases hnext : scan = .next
    · subst hnext
      rcases ih (fun q hq ↦ hpairs q (List.mem_cons_of_mem p hq)) h with hnone | ⟨q, hq, hlater⟩
      · exact Or.inl hnone
      · exact Or.inr ⟨q, List.mem_cons_of_mem p hq, hlater⟩
    · have hr : r = scan.answer fs out.1 p.2 location := by
        cases scan with
        | found k => exact (Except.ok.inj h).symm
        | noMore => exact (Except.ok.inj h).symm
        | next => exact absurd rfl hnext
      exact Or.inr ⟨p, List.mem_cons_self, buf, out, sector, scan, hget,
        determinate_eq_ok.mp hsector, hscan, hnext, hr⟩

theorem entryNum_lt {j i : Nat} (hj : j < 8) (hi : i < 16) :
    (UInt32.ofNat j * maxSectorSize / 32 + UInt32.ofNat i).toNat < 128 := by
  simp
  omega

theorem lookupSectors_ok {pairs rest : List (Nat × Nat)} {buf : Option Sector}
    (hpairs : ∀ p ∈ pairs, p.1 < 15 ∧ p.2 < 8) (hrest : rest = [] ∨ ∃ t, rest = (15, 0) :: t)
    (h : lookupSectors parent name location fs inode buf (pairs ++ rest) = .ok r) :
    r.fs = fs ∧ (r.location = location ∨
      ∃ l, r.location = some l ∧ Locates inode l) := by
  rcases lookupSectors_cases hpairs hrest h with
    rfl | ⟨p, hmem, buf, out, sector, scan, hget, -, hscan, -, rfl⟩
  · exact ⟨rfl, Or.inl rfl⟩
  · have hp := hpairs p hmem
    rw [getDatablock_pair (by omega) hp.2] at hget
    have hpointer := (finish_pointer hget).1
    cases scan with
    | found k =>
      have hk := scanEntries_found_lt hscan
      rw [Vector.length_toList] at hk
      exact ⟨rfl, Or.inr ⟨_, rfl, ⟨p.1, hpointer⟩, entryNum_lt hp.2 (by rwa [Nat.zero_add] at hk)⟩⟩
    | noMore => exact ⟨rfl, Or.inl rfl⟩
    | next => exact ⟨rfl, Or.inl rfl⟩

/-- The pairs of `m` blocks from block `a` on. -/
def pairsFrom (a m : Nat) : List (Nat × Nat) :=
  (List.range' a m).flatMap fun i ↦ (List.range 8).map fun j ↦ (i, j)

theorem mem_pairsFrom {a m : Nat} {p : Nat × Nat} (h : p ∈ pairsFrom a m) :
    a ≤ p.1 ∧ p.1 < a + m ∧ p.2 < 8 := by
  rw [pairsFrom, List.mem_flatMap] at h
  rcases h with ⟨i, hi, hp⟩
  rw [List.mem_map] at hp
  rcases hp with ⟨j, hj, rfl⟩
  rw [List.mem_range'_1] at hi
  rw [List.mem_range] at hj
  exact ⟨hi.1, hi.2, hj⟩

-- The pairs up to the last pointer of the inode, and those behind it.
theorem pairsFrom_split {a : Nat} (ha : a ≤ 15) (m : Nat) : ∃ pairs rest,
    pairsFrom a m = pairs ++ rest ∧ (∀ p ∈ pairs, a ≤ p.1 ∧ p.1 < 15 ∧ p.2 < 8) ∧
      (rest = [] ∨ ∃ t, rest = (15, 0) :: t) := by
  have hsmall : ∀ n, a + n ≤ 15 → ∀ p ∈ pairsFrom a n, a ≤ p.1 ∧ p.1 < 15 ∧ p.2 < 8 := by
    intro n hn p hp
    have hbounds := mem_pairsFrom hp
    exact ⟨hbounds.1, by omega, hbounds.2.2⟩
  by_cases hle : a + m ≤ 15
  · exact ⟨pairsFrom a m, [], (List.append_nil _).symm, hsmall m hle, Or.inl rfl⟩
  · obtain ⟨n, k, rfl, hn⟩ : ∃ n k, m = n + (k + 1) ∧ a + n = 15 :=
      ⟨15 - a, m - (15 - a) - 1, by omega, by omega⟩
    have hsplit : pairsFrom a (n + (k + 1)) = pairsFrom a n ++ pairsFrom 15 (k + 1) := by
      rw [pairsFrom, ← List.range'_append_1, List.flatMap_append, hn]
      rfl
    exact ⟨pairsFrom a n, _, hsplit, hsmall n (Nat.le_of_eq hn), Or.inr ⟨_, rfl⟩⟩

theorem sectorPairs_eq (blocks : Nat) : sectorPairs blocks = pairsFrom 0 blocks := by
  have hrange : List.range blocks = List.range' 0 blocks := List.range_eq_range'
  rw [sectorPairs, hrange, pairsFrom]

theorem ext2Lookup_ok (h : ext2Lookup fs parent name location = .ok r) :
    r.fs = fs ∧ (r.location = location ∨
      ∃ l, r.location = some l ∧
        Locates (ext2FillInode fs InodeVar.uninit parent.entry.inode) l) := by
  unfold ext2Lookup at h
  rcases bind_eq_ok.mp h with ⟨blocks, -, h⟩
  rcases pairsFrom_split (Nat.zero_le 15) blocks.toNat with ⟨pairs, rest, hsplit, hpairs, hrest⟩
  rw [sectorPairs_eq, hsplit] at h
  exact lookupSectors_ok (fun p hp ↦ (hpairs p hp).2) hrest h

theorem findNoMore_ok {n : Nat} {fs' : Ext2Filesystem} {location' : Option EntryLocation}
    (h : findNoMore parent n fs location = .ok (location', fs')) :
    fs' = fs ∧ (location' = location ∨ ∃ l, location' = some l ∧
      Locates (ext2FillInode fs InodeVar.uninit parent.entry.inode) l) := by
  induction n generalizing location with
  | zero =>
    rw [findNoMore, Except.ok.injEq, Prod.mk.injEq] at h
    exact ⟨h.2.symm, Or.inl h.1.symm⟩
  | succ n ih =>
    rw [findNoMore] at h
    rcases bind_eq_ok.mp h with ⟨r, hlookup, h⟩
    rcases bind_eq_ok.mp h with ⟨status, -, h⟩
    rcases ext2Lookup_ok hlookup with ⟨hfs, hlocation⟩
    rw [hfs] at h
    split at h
    · rw [pure_eq_ok, Except.ok.injEq, Prod.mk.injEq] at h
      rw [← h.1]
      exact ⟨h.2.symm, hlocation⟩
    · rcases ih h with ⟨hsame, hfound⟩
      refine ⟨hsame, ?_⟩
      rcases hfound with hold | hnew
      · rw [hold]
        exact hlocation
      · exact Or.inr hnew

end Lookup

/-! ## The steps that write -/

section Writes

variable {fs fs' : Ext2Filesystem}

/-- The sector of a location. -/
def EntryLocation.sector (l : EntryLocation) : UInt32 :=
  (l.entryNum.toUInt64 * 32 / 512).toUInt32 + l.blockNum * sectorsPerBlock

theorem EntryLocation.sector_toNat {l : EntryLocation} (h : l.entryNum.toNat < 128) :
    l.sector.toNat = l.entryNum.toNat / 16 + 8 * (l.blockNum.toNat % 536870912) := by
  unfold EntryLocation.sector
  simp
  omega

theorem insertEntry_ok {location : Option EntryLocation} {new : Ext2DirEntry}
    (h : insertEntry fs location new = .ok fs') :
    ∃ l bits, location = some l ∧ fs' = ⟨fs.spb, fs.disk.writeSector l.sector bits⟩ := by
  cases location with
  | none => cases h
  | some l =>
    unfold insertEntry at h
    rw [determinate_some, ok_bind] at h
    rcases bind_eq_ok.mp h with ⟨sector, -, h⟩
    rcases bind_eq_ok.mp h with ⟨entry, -, h⟩
    cases hname : cString new.name with
    | none =>
      rw [hname] at h
      cases h
    | some name =>
      simp only [hname] at h
      rcases bind_eq_ok.mp h with ⟨entry', -, h⟩
      rcases bind_eq_ok.mp h with ⟨bits, -, h⟩
      rw [pure_eq_ok, Except.ok.injEq] at h
      exact ⟨l, bits, rfl, h.symm⟩

-- The new directory's inode: a block is taken, and the sector of the table written, unless there
-- is no block.
theorem insertInode_directory_ok {node : Ext2Node} {n : UInt32} {datablock : Int}
    (h : insertInode fs node n attrDirectory = .ok (datablock, fs')) :
    ∃ desc fs₁, readDesc fs (n / inodesPerGroup) = some desc ∧
      allocFreeBlock fs node = .ok (datablock, fs₁) ∧ fs'.spb = fs₁.spb ∧
      ((datablock = ext2Error ∧ fs' = fs₁) ∨
        ∃ bits, fs' = ⟨fs₁.spb, fs₁.disk.writeSector (insertInodeSector desc n) bits⟩) := by
  unfold insertInode at h
  rcases bind_eq_ok.mp h with ⟨desc, hdesc, h⟩
  rcases bind_eq_ok.mp h with ⟨sector, -, h⟩
  rw [if_neg (by decide)] at h
  rcases bind_eq_ok.mp h with ⟨sector', -, h⟩
  rcases bind_eq_ok.mp h with ⟨⟨block, fs₁⟩, halloc, h⟩
  have hread : readDesc fs (n / inodesPerGroup) = some desc := by
    cases hread : readDesc fs (n / inodesPerGroup) with
    | none =>
      rw [hread] at hdesc
      cases hdesc
    | some desc' =>
      rw [hread, determinate_some, Except.ok.injEq] at hdesc
      rw [hdesc]
  by_cases herror : block = ext2Error
  · simp only [herror, if_true, pure_eq_ok, Except.ok.injEq, Prod.mk.injEq] at h
    rcases h with ⟨rfl, rfl⟩
    rw [herror] at halloc
    exact ⟨desc, fs₁, hread, halloc, rfl, Or.inl ⟨rfl, rfl⟩⟩
  · simp only [herror, if_false] at h
    rcases bind_eq_ok.mp h with ⟨bits, -, h⟩
    rw [pure_eq_ok, Except.ok.injEq, Prod.mk.injEq] at h
    rcases h with ⟨rfl, rfl⟩
    exact ⟨desc, fs₁, hread, halloc, rfl, Or.inr ⟨bits, rfl⟩⟩

theorem countDirectory_ok {n : UInt32} {buf : Sector} (h : countDirectory fs n buf = .ok fs') :
    ∃ bits, fs' = ⟨fs.spb, writeDescSectors fs.disk fs.spb bits⟩ := by
  unfold countDirectory at h
  rcases bind_eq_ok.mp h with ⟨sector, -, h⟩
  rcases bind_eq_ok.mp h with ⟨bits, -, h⟩
  rw [pure_eq_ok, Except.ok.injEq] at h
  exact ⟨bits, h.symm⟩

-- What the common part of `ext2_mkdir` and `ext2_create` can do: nothing, or an inode taken and one
-- sector of the parent written.
theorem addEntry_cases {op : DirOp} {parent : Ext2Node} {s : List UInt8}
    {new : Option Ext2DirEntry} {n : Int} (h : addEntry op fs parent s = .ok (new, n, fs')) :
    (new = none ∧ fs' = fs) ∨ ∃ fs₁ entry, allocFreeInode fs parent = .ok (n, fs₁) ∧
      fillEntry (blankEntry op s) s n = .ok entry ∧
      ((new = none ∧ entry.inode = UInt32.ofInt ext2Error ∧ fs' = fs₁) ∨
        (new = some entry ∧ ∃ l bits,
          (Locates (ext2FillInode fs InodeVar.uninit parent.entry.inode) l ∨
            Locates (ext2FillInode fs₁ InodeVar.uninit parent.entry.inode) l) ∧
          fs' = ⟨fs₁.spb, fs₁.disk.writeSector l.sector bits⟩)) := by
  unfold addEntry at h
  rcases bind_eq_ok.mp h with ⟨r, hlookup, h⟩
  rcases bind_eq_ok.mp h with ⟨status, -, h⟩
  rcases ext2Lookup_ok hlookup with ⟨hsame, hfound⟩
  rw [hsame] at h
  split at h
  · simp only [pure_eq_ok, Except.ok.injEq, Prod.mk.injEq] at h
    exact Or.inl ⟨h.1.symm, h.2.2.symm⟩
  · rcases bind_eq_ok.mp h with ⟨⟨m, fs₁⟩, halloc, h⟩
    rcases bind_eq_ok.mp h with ⟨entry, hfill, h⟩
    right
    split at h
    · rename_i herror
      simp only [pure_eq_ok, Except.ok.injEq, Prod.mk.injEq] at h
      rcases h with ⟨rfl, rfl, rfl⟩
      exact ⟨fs₁, entry, halloc, hfill, Or.inl ⟨rfl, herror, rfl⟩⟩
    · rcases bind_eq_ok.mp h with ⟨⟨location, fs₂⟩, hfind, h⟩
      rcases bind_eq_ok.mp h with ⟨fs₃, hinsert, h⟩
      simp only [pure_eq_ok, Except.ok.injEq, Prod.mk.injEq] at h
      rcases h with ⟨rfl, rfl, rfl⟩
      rcases findNoMore_ok hfind with ⟨rfl, hlocation⟩
      rcases insertEntry_ok hinsert with ⟨l, bits, rfl, rfl⟩
      refine ⟨_, entry, halloc, hfill, Or.inr ⟨rfl, l, bits, ?_, rfl⟩⟩
      rcases hlocation with hold | ⟨l', hl', hnew⟩
      · rcases hfound with hnone | ⟨l', hl', hnew⟩
        · rw [hnone] at hold
          cases hold
        · rw [hl', Option.some.injEq] at hold
          rw [hold]
          exact Or.inl hnew
      · rw [Option.some.injEq] at hl'
        rw [hl']
        exact Or.inr hnew

theorem makeDirectory_ok {parent : Ext2Node} {entry : Ext2DirEntry} {n : Int}
    {ret : Option Ext2Node} (h : makeDirectory fs parent entry = .ok (n, ret, fs')) :
    ∃ datablock fs₁ sector bits,
      insertInode fs { entry := entry, inodeNum := 0 } entry.inode attrDirectory =
        .ok (datablock, fs₁) ∧
      fs' = ⟨fs₁.spb, writeDescSectors
        (fs₁.disk.writeSector (newDirAddress entry.inode datablock) sector) fs₁.spb bits⟩ ∧
      ret = some { entry := entry, inodeNum := 0 } := by
  unfold makeDirectory at h
  rcases bind_eq_ok.mp h with ⟨⟨datablock, fs₁⟩, hinsert, h⟩
  rcases bind_eq_ok.mp h with ⟨sector, -, h⟩
  rcases bind_eq_ok.mp h with ⟨fs₂, hcount, h⟩
  rcases countDirectory_ok hcount with ⟨bits, hfs₂⟩
  simp only [pure_eq_ok, Except.ok.injEq, Prod.mk.injEq] at h
  rcases h with ⟨-, rfl, rfl⟩
  exact ⟨datablock, fs₁, sector, bits, hinsert, hfs₂, rfl⟩

-- The number in a new entry: the one allocated, or the zero that was there before.
theorem fillEntry_inode {name : List UInt8} {n : Int} {entry : Ext2DirEntry}
    (h : fillEntry Ext2DirEntry.zero name n = .ok entry) :
    entry.inode = 0 ∨ (0 ≤ n ∧ entry.inode = UInt32.ofInt n) := by
  unfold fillEntry at h
  split at h
  · cases h
    exact Or.inl rfl
  · rename_i hneg
    split at h
    · cases h
      exact Or.inl rfl
    · split at h
      · cases h
        exact Or.inr ⟨by omega, rfl⟩
      · cases h

-- A call of `ext2_mkdir` that returns: the name was rejected or is there already, or an inode is
-- taken, and then the directory is made.
theorem ext2Mkdir_cases {parent : Ext2Node} {entryName : List UInt8} {n : Int}
    {ret : Option Ext2Node} (h : ext2Mkdir fs parent entryName = .ok (n, ret, fs')) :
    (ret = none ∧ fs' = fs) ∨ ∃ inodeNum fs₁ entry,
      allocFreeInode fs parent = .ok (inodeNum, fs₁) ∧
      (entry.inode = 0 ∨ (0 ≤ inodeNum ∧ entry.inode = UInt32.ofInt inodeNum)) ∧
      (entry.inode = UInt32.ofInt ext2Error ∨ ∃ l bits,
        (Locates (ext2FillInode fs InodeVar.uninit parent.entry.inode) l ∨
          Locates (ext2FillInode fs₁ InodeVar.uninit parent.entry.inode) l) ∧
        makeDirectory ⟨fs₁.spb, fs₁.disk.writeSector l.sector bits⟩ parent entry =
          .ok (n, ret, fs')) := by
  rw [ext2Mkdir_eq] at h
  rcases bind_eq_ok.mp h with ⟨name, -, h⟩
  cases name with
  | none =>
    rw [Except.ok.injEq, Prod.mk.injEq, Prod.mk.injEq] at h
    exact Or.inl ⟨h.2.1.symm, h.2.2.symm⟩
  | some s =>
    unfold makeNamed at h
    rcases bind_eq_ok.mp h with ⟨⟨new, inodeNum, fs₂⟩, hadd, hmake⟩
    rcases addEntry_cases hadd with ⟨rfl, rfl⟩ | ⟨fs₁, entry, halloc, hfill, hcases⟩
    · simp only [pure_eq_ok, Except.ok.injEq, Prod.mk.injEq] at hmake
      exact Or.inl ⟨hmake.2.1.symm, hmake.2.2.symm⟩
    · refine Or.inr ⟨inodeNum, fs₁, entry, halloc, fillEntry_inode hfill, ?_⟩
      rcases hcases with ⟨-, herror, -⟩ | ⟨rfl, l, bits, hlocates, rfl⟩
      · exact Or.inl herror
      · exact Or.inr ⟨l, bits, hlocates, hmake⟩

end Writes

end Ext2Fs
