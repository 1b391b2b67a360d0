import Ext2Fs.Properties.Confinement

/-!
# Dumping blocks

The commands that begin with `dump` print the sectors of a block of the disk.  They go through one
buffer, which a read behind the end of the disk leaves as it was.
-/

open Reasoning

namespace Ext2Fs

/-! ## The sectors of a dump -/

section Dumps

variable {disk : DiskOperations} {group target blockNum sectorCnt : Int32} {type g b n : Nat}

-- A dump that ends before the disk does; the induction is on the rounds.
theorem ext2Dump_inside (hrange : dumpRange disk group type target = .ok (blockNum, sectorCnt))
    (hblock : blockNum.toInt = b) (hcnt : sectorCnt.toNatClampNeg = n)
    (hin : 8 * b + n ≤ disk.numberOfSectors.toNat) (hfits : 8 * b + n ≤ 2147483648) :
    ext2Dump disk group type target = .ok ((List.range' (8 * b) n).map disk.content) := by
  let round (st : Option Sector × List Sector) (i : Nat) : Exec (Option Sector × List Sector) := do
    let first ← intValue (blockNum.toInt * sectorsPerBlock.toNat)
    let number ← intValue (first.toInt + i)
    let sector ← determinate (disk.readSector number.toUInt32 st.1).2
    return (some sector, st.2 ++ [sector])
  let Inv (i : Nat) (st : Option Sector × List Sector) : Prop :=
    st.2 = (List.range' (8 * b) i).map disk.content
  have hround : ∀ i st, i < n → Inv i st → ∃ st', round st i = .ok st' ∧ Inv (i + 1) st' := by
    rintro i ⟨buf, printed⟩ hi hprinted
    have hfirst : intValue (blockNum.toInt * sectorsPerBlock.toNat) = .ok (Int32.ofInt (8 * b)) := by
      rw [hblock, show ((b : Int) * sectorsPerBlock.toNat) = 8 * b from Int.mul_comm _ _]
      exact intValue_of_fits (by omega) (by omega)
    have hnumber : intValue ((Int32.ofInt (8 * b)).toInt + i) = .ok (Int32.ofInt (8 * b + i)) := by
      rw [Int32.toInt_ofInt_of_le (by omega) (by omega)]
      exact intValue_of_fits (by omega) (by omega)
    have hsector : (Int32.ofInt (8 * b + i)).toUInt32.toNat = 8 * b + i :=
      toNat_toUInt32_of_toInt (Int32.toInt_ofInt_of_le (by omega) (by omega))
    refine ⟨(some (disk.content (8 * b + i)), printed ++ [disk.content (8 * b + i)]), ?_, ?_⟩
    · simp only [round, hfirst, hnumber, ok_bind]
      rw [DiskOperations.readSector_of_lt buf (by omega), hsector]
      rfl
    · change printed ++ _ = _
      rw [List.range'_concat, List.map_append, ← hprinted, Nat.one_mul]
      rfl
  rcases forEach_range Inv n (show Inv 0 (none, []) from rfl) hround with ⟨st, hrun, hprinted⟩
  unfold ext2Dump
  rw [hrange, ok_bind]
  dsimp only
  rw [hcnt]
  change forEach round (none, []) (List.range n) >>= _ = _
  rw [hrun, ok_bind, ← hprinted]
  rfl

-- The bitmaps and the inode table of a group.
theorem dumpGroupBlock_eq (hgroup : group.toInt = g) (hlt : g < disk.groups) (hn : n < 16) :
    ∃ blockNum, dumpGroupBlock disk group n = .ok blockNum ∧
      blockNum.toInt = (32768 * g + n + 1 : Nat) := by
  have hle := disk.groups_le
  have hdesc : descBlockCount disk.groupCount = 1 :=
    descBlockCount_eq (show 1 ≤ disk.groups by omega) hle
  have hfirst : intValue (blockPerGroup.toNat * group.toInt) = .ok (Int32.ofInt (32768 * g)) := by
    rw [hgroup]
    exact intValue_of_fits (by change (_ : Int) ≤ 32768 * g; omega)
      (by change 32768 * (g : Int) < _; omega)
  have hblock : intValue ((Int32.ofInt (32768 * g)).toInt + n) =
      .ok (Int32.ofInt (32768 * g + n)) := by
    rw [Int32.toInt_ofInt_of_le (by omega) (by omega)]
    exact intValue_of_fits (by omega) (by omega)
  have hunsigned : (Int32.ofInt (32768 * g + n)).toUInt32.toNat = 32768 * g + n :=
    toNat_toUInt32_of_toInt (Int32.toInt_ofInt_of_le (by omega) (by omega))
  have hsum : ((Int32.ofInt (32768 * g + n)).toUInt32 + 1).toNat = 32768 * g + n + 1 := by
    rw [UInt32.toNat_add, hunsigned, Nat.mod_eq_of_lt (by
      change 32768 * g + n + 1 < _
      omega)]
    rfl
  refine ⟨((Int32.ofInt (32768 * g + n)).toUInt32 + 1).toInt32, ?_, ?_⟩
  · unfold dumpGroupBlock
    rw [hfirst, ok_bind, hblock, ok_bind, hdesc]
    rfl
  · rw [← Int32.toInt_toBitVec, UInt32.toBitVec_toInt32, BitVec.toInt_eq_toNat_of_lt]
    · change (((Int32.ofInt (32768 * g + n)).toUInt32 + 1).toNat : Int) = _
      rw [hsum]
    · change 2 * ((Int32.ofInt (32768 * g + n)).toUInt32 + 1).toNat < _
      rw [hsum]
      omega

theorem ext2Dump_group (hgroup : group.toInt = g) (hlt : g < disk.groups)
    (htype : type = 3 ∨ type = 4 ∨ type = 5) : ext2Dump disk group type 0 =
      .ok ((List.range' (8 * (32768 * g + type - 1)) (if type = 5 then 256 else 8)).map
        disk.content) := by
  have hle := disk.groups_le
  have hin := disk.sector_lt hlt (show 288 < 262144 by decide)
  rcases htype with rfl | rfl | rfl
  · rcases dumpGroupBlock_eq hgroup hlt (show 1 < 16 by decide) with ⟨blockNum, hrun, hblock⟩
    rw [if_neg (by decide)]
    exact ext2Dump_inside (by rw [dumpRange, hrun]; rfl) hblock (by decide) (by omega) (by omega)
  · rcases dumpGroupBlock_eq hgroup hlt (show 2 < 16 by decide) with ⟨blockNum, hrun, hblock⟩
    rw [if_neg (by decide)]
    exact ext2Dump_inside (by rw [dumpRange, hrun]; rfl) hblock (by decide) (by omega) (by omega)
  · rcases dumpGroupBlock_eq hgroup hlt (show 3 < 16 by decide) with ⟨blockNum, hrun, hblock⟩
    rw [if_pos rfl]
    exact ext2Dump_inside (by rw [dumpRange, hrun]; rfl) hblock (by decide) (by omega) (by omega)

end Dumps

/-! ## Sessions -/

/-- The sectors behind the first of each bitmap of group 0 are those that the format wrote. -/
def BitmapsEnd (s : Session) : Prop :=
  ∀ x, (16 < x ∧ x < 24) ∨ (24 < x ∧ x < 32) → s.fs.disk.content x = zeroSector

section Sessions

variable {disk : DiskOperations} {s s' : Session} {c : Call}

theorem Session.Fresh.bitmapsEnd (h : s.Fresh disk) (hpos : 1 ≤ disk.groups)
    (hfew : disk.groups ≤ 16) : BitmapsEnd s := by
  rcases h with ⟨hmount, -⟩
  rcases exists_mounted hpos hfew with ⟨disk', hformatted, hmount'⟩
  rcases mounted_unique hmount hmount' with ⟨hfs, -⟩
  intro x hx
  rw [hfs, newFs_disk]
  rcases hx with ⟨hlo, hhi⟩ | ⟨hlo, hhi⟩
  · exact hformatted.blockBitmapRest x hlo hhi
  · exact hformatted.inodeBitmapRest x hlo hhi

theorem BitmapsEnd.call (h : BitmapsEnd s) (hserving : Serving disk s) (hknows : s.Knows c)
    (hcall : s.call c = .ok s') : BitmapsEnd s' := by
  rcases hserving.call_data hknows hcall with rfl | ⟨fs', name, rfl, hdata⟩
  · exact h
  · intro x hx
    dsimp only
    rw [hdata x (Or.inr hx) (by omega) (by omega), if_neg (by omega)]
    exact h x hx

theorem InUse.bitmapsEnd (h : InUse disk s) (hpos : 1 ≤ disk.groups) (hfew : disk.groups ≤ 16) :
    BitmapsEnd s := by
  have hboth : Serving disk s ∧ BitmapsEnd s := by
    apply Reachable.invariant (fun s ↦ Serving disk s ∧ BitmapsEnd s) _ _ h
    · intro s hs
      exact ⟨(hs.serving hpos hfew).1, hs.bitmapsEnd hpos hfew⟩
    · intro s c s' hs hknows hcall
      exact ⟨hs.1.call hknows hcall, hs.2.call hs.1 hknows hcall⟩
  exact hboth.2

/-- What the dumps print in a session, where `disk` is the disk before the format. -/
structure DumpsShow (disk : DiskOperations) (s : Session) : Prop where
  superBlock : ext2Dump s.fs.disk 0 1 0 =
    .ok [asSuperBlock.symm s.fs.spb, s.fs.disk.content 1]
  groupDescs : ext2Dump s.fs.disk 0 2 0 =
    .ok (asDescs.symm s.fs.descs :: (List.range' 9 7).map s.fs.disk.content)
  blockBitmap : ext2Dump s.fs.disk 0 3 0 =
    .ok (onesPrefix 512 (37 + s.mkdirs) :: List.replicate 7 zeroSector)
  inodeBitmap : ext2Dump s.fs.disk 0 4 0 =
    .ok (leadingRuns 512 (inodeRun s.made.length) :: List.replicate 7 zeroSector)
  inodeTable : ext2Dump s.fs.disk 0 5 0 =
    .ok (rootInodeSector 36 :: (List.range' 33 255).map s.fs.disk.content)
  -- the bitmaps and the inode tables of the other groups are never written
  others : ∀ (group : Int32) (g : Nat), group.toInt = g → 1 ≤ g → g < disk.groups →
    ∀ type, type = 3 ∨ type = 4 ∨ type = 5 →
      ext2Dump s.fs.disk group type 0 = ext2Dump disk group type 0

/-- In every session the dumps of group 0 show the metadata: the superblock and the descriptors as
they are in memory, a bit for each block and each inode that was taken, and the inode of the root.
Those of the bitmaps and the inode tables of the other groups show what the disk held before. -/
theorem dumps_show (hpos : 1 ≤ disk.groups) (hfew : disk.groups ≤ 16) (h : InUse disk s) :
    DumpsShow disk s := by
  rcases h.totalled hpos hfew with ⟨hserving, htotalled⟩
  have hlive := hserving.live
  have hend := h.bitmapsEnd hpos hfew
  have hconfined := h.confined hpos hfew
  have hgroups : s.fs.disk.groups = disk.groups := groups_congr hserving.sectors_eq
  have hfit := s.fs.disk.groups_fit
  have hzero : 0 < s.fs.disk.groups := hlive.groups_pos
  have hdesc : descBlockCount s.fs.disk.groupCount = 1 :=
    descBlockCount_eq hlive.groups_pos s.fs.disk.groups_le
  have hrest (n : Nat) (hn : n = 17 ∨ n = 25) :
      (List.range' n 7).map s.fs.disk.content = List.replicate 7 zeroSector := by
    rw [List.eq_replicate_iff, List.length_map, List.length_range']
    refine ⟨rfl, ?_⟩
    intro sector hsector
    rcases List.mem_map.mp hsector with ⟨x, hx, rfl⟩
    rw [List.mem_range'_1] at hx
    exact hend x (by omega)
  constructor
  case superBlock =>
    have hspb : s.fs.disk.content 0 = asSuperBlock.symm s.fs.spb :=
      htotalled.replicated.superBlock 0 hlive.groups_pos
    have hdump := @ext2Dump_inside s.fs.disk 0 0 0 2 1 0 2 rfl rfl rfl (by omega) (by omega)
    rw [hdump, ← hspb]
    rfl
  case groupDescs =>
    have hrange : dumpRange s.fs.disk 0 2 0 = .ok (1, 8) := by
      unfold dumpRange
      rw [hdesc]
      rfl
    have hdescs : asDescs.symm s.fs.descs = s.fs.disk.content 8 := Equiv.symm_apply_apply _ _
    rw [@ext2Dump_inside s.fs.disk 0 0 1 8 2 1 8 hrange rfl rfl (by omega) (by omega), hdescs]
    rfl
  case blockBitmap =>
    rw [ext2Dump_group rfl hzero (Or.inl rfl), ← hlive.blockBitmap, ← hrest 17 (Or.inl rfl)]
    rfl
  case inodeBitmap =>
    rw [ext2Dump_group rfl hzero (Or.inr (Or.inl rfl)), ← hlive.inodeBitmap,
      ← hrest 25 (Or.inr rfl)]
    rfl
  case inodeTable =>
    rw [ext2Dump_group rfl hzero (Or.inr (Or.inr rfl)), ← hlive.rootInode]
    rfl
  case others =>
    intro group g hgroup hone hlt type htype
    rw [ext2Dump_group hgroup (by omega) htype, ext2Dump_group hgroup hlt htype]
    congr 1
    apply List.map_congr_left
    intro x hx
    have hbounds : 262144 * g + 16 ≤ x ∧ x < 262144 * g + 288 := by
      rw [List.mem_range'_1] at hx
      split at hx
      · omega
      · omega
    have hmkdirs := hlive.blocks_le
    have hmade := hserving.made_lt
    have hlength := s.length_newDirs
    exact hconfined.others x (by omega) (by omega) (by omega) (by omega) fun i hi ↦ by omega

/-- One directory on a zeroed disk. -/
theorem dumps_show_zeroedDisk : ∃ s, InUse (zeroedDisk 262144) s ∧ s.made.length = 1 ∧
    ext2Dump s.fs.disk 0 3 0 = .ok (onesPrefix 512 38 :: List.replicate 7 zeroSector) := by
  rcases zeroedDisk_call .mkdir with ⟨s₀, s, -, -, hinuse, -, hmade, -⟩
  have hmkdirs : s.mkdirs = 1 := by
    rw [Session.mkdirs, hmade]
    rfl
  have hshow := dumps_show (by decide) (by decide) hinuse
  refine ⟨s, hinuse, by rw [hmade]; rfl, ?_⟩
  rw [hshow.blockBitmap, hmkdirs]

end Sessions

end Ext2Fs
