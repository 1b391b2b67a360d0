import Ext2Fs.Spec.RootDir

/-!
# Writing an entry into the root directory

`fill_entry` writes over the old entry of a slot, and the bytes behind a shorter name stay.
-/

open Reasoning

namespace Ext2Fs

/-! ## Filling an entry -/

/-- What `fill_entry` makes of an entry whose old name may show behind the new one. -/
def filledEntry (old : Ext2DirEntry) (name : List UInt8) (inode : UInt32) : Ext2DirEntry where
  inode := inode
  recLen := 4 + 2 + 2 + 1 * UInt16.ofNat name.length
  nameLen := UInt16.ofNat name.length
  name := copyName old.name name

@[simp] theorem filledEntry_inode (old : Ext2DirEntry) (name : List UInt8) (inode : UInt32) :
    (filledEntry old name inode).inode = inode := rfl

@[simp] theorem filledEntry_name (old : Ext2DirEntry) (name : List UInt8) (inode : UInt32) :
    (filledEntry old name inode).name = copyName old.name name := rfl

theorem fillEntry_eq {name : List UInt8} {inode : Int} (hinode : 0 ≤ inode) (hlen : 11 ≤ name.length)
    (old : Ext2DirEntry) :
    fillEntry old name inode =
      if name.length ≤ 24 then .ok (filledEntry old name (UInt32.ofInt inode))
      else .error .outOfBounds := by
  have hname : name ≠ noMoreName := by
    rintro rfl
    exact absurd hlen (by decide)
  rw [fillEntry, if_neg (by omega), if_neg hname]
  rfl

theorem toCInt_of_lt {n : UInt32} (hn : n.toNat < 2 ^ 31) : toCInt n = (n.toNat : Int) := by
  rw [toCInt, ← Int32.toInt_toBitVec, UInt32.toBitVec_toInt32, BitVec.toInt_eq_toNat_of_lt]
  · rfl
  · change 2 * n.toNat < 2 ^ 32
    omega

theorem getElem_copyName (old : Bytes 24) (name : List UInt8) {i : Nat} (hi : i < 24) :
    (copyName old name)[i] = if h : i < name.length then name[i] else old[i] := by
  simp [copyName]

-- The new name is all that the entry holds when the old byte behind it is a terminator.
theorem cString_filledEntry (old : Ext2DirEntry) {name : List UInt8} (inode : UInt32)
    (hname : 0 ∉ name) (hlen : name.length < 24) (hold : old.name[name.length] = 0) :
    cString (filledEntry old name inode).name = some name := by
  rw [filledEntry_name]
  refine cString_of_bytes hname (fun i hi ↦ ?_) ?_
  · rw [List.getElem?_eq_getElem (by simp; omega), Vector.getElem_toList,
      getElem_copyName _ _ (by omega), dif_pos hi]
  · rw [List.getElem?_eq_getElem (by simp; omega), Vector.getElem_toList,
      getElem_copyName _ _ hlen, dif_neg (Nat.lt_irrefl _), hold]

-- A name of 24 characters leaves no terminator in its entry.
theorem cString_filledEntry_full {old : Ext2DirEntry} {name : List UInt8} (inode : UInt32)
    (hname : 0 ∉ name) (hlen : name.length = 24) :
    cString (filledEntry old name inode).name = none := by
  have h0 : 0 ∉ (copyName old.name name).toList := by
    intro h
    obtain ⟨i, hi, hget⟩ := List.getElem_of_mem h
    have hi' : i < 24 := by simpa using hi
    rw [Vector.getElem_toList, getElem_copyName _ _ hi', dif_pos (by omega)] at hget
    exact hname (hget ▸ List.getElem_mem _)
  rw [filledEntry_name, cString, if_neg h0]

theorem filledEntry_not_noMore {old : Ext2DirEntry} {name : List UInt8} (inode : UInt32)
    (hname : 0 ∉ name) (hlen : 11 ≤ name.length) : ¬ (filledEntry old name inode).isNoMore := by
  rw [Ext2DirEntry.isNoMore, filledEntry_name, getElem_copyName _ _ (by decide),
    dif_pos (by omega)]
  exact fun h ↦ hname ((show name[0] = 0 from h) ▸ List.getElem_mem _)

/-! ## insertEntry -/

-- Seen through a cast, a load followed by a store is an update in place.
theorem modifyAt_loaded {α : Type} {n k : Nat} (c : Bytes n ≃ Vector α k) (buf : Bytes n) {i : Nat}
    (hi : i < k) (f : α → α) :
    modifyAt c buf i (fun _ ↦ f (c buf)[i]) = .ok (updateAt c buf i f) := by
  rw [modifyAt_of_lt c _ hi, updateAt, dif_pos hi]

section Slot

variable {fs : Ext2Filesystem} (hsectors : 296 ≤ fs.disk.numberOfSectors.toNat) {t : Nat}
  (ht : t < 128)

include hsectors ht

-- Writing the entry into slot `t` of block 36.
theorem insertEntry_spec {new : Ext2DirEntry} {s : List UInt8} (hs : cString new.name = some s)
    (hlen : 11 ≤ s.length) (hinode : new.inode.toNat < 2 ^ 31) :
    ∃ fs', insertEntry fs (some ⟨36, UInt32.ofNat t⟩) new = .ok fs' ∧ fs'.spb = fs.spb ∧
      fs'.disk.numberOfSectors = fs.disk.numberOfSectors ∧
      ∀ x, fs'.disk.content x =
        if x = 288 + t / 16 then
          updateAt asEntries (fs.disk.content x) (t % 16) fun old ↦ filledEntry old s new.inode
        else fs.disk.content x := by
  have hslot : ((UInt32.ofNat t).toUInt64 * 32 % 512 / 32).toUInt32.toNat = t % 16 := by
    simp
    omega
  have haddr : (((UInt32.ofNat t).toUInt64 * 32 / 512).toUInt32 + 36 * sectorsPerBlock).toNat =
      288 + t / 16 := by
    simp
    omega
  have hread := DiskOperations.readSector_eq none haddr
    (show _ < fs.disk.numberOfSectors.toNat by omega) rfl
  have hmod : t % 16 < 16 := Nat.mod_lt _ (by decide)
  have hfill : fillEntry (asEntries (fs.disk.content (288 + t / 16)))[t % 16] s (toCInt new.inode) =
      .ok (filledEntry (asEntries (fs.disk.content (288 + t / 16)))[t % 16] s new.inode) := by
    have hshort := cString_length hs
    rw [toCInt_of_lt hinode, fillEntry_eq (by omega) hlen, if_pos (by omega), ofInt_natCast,
      UInt32.ofNat_toNat]
  refine ⟨⟨fs.spb, fs.disk.writeSector
    (((UInt32.ofNat t).toUInt64 * 32 / 512).toUInt32 + 36 * sectorsPerBlock)
    (updateAt asEntries (fs.disk.content (288 + t / 16)) (t % 16)
      fun old ↦ filledEntry old s new.inode)⟩, ?_, rfl, by simp, fun x ↦ ?_⟩
  · unfold insertEntry
    simp only [determinate_some, ok_bind, hread, hslot, loadAt_of_lt asEntries hmod, hs, hfill]
    rw [modifyAt_loaded asEntries _ hmod fun old ↦ filledEntry old s new.inode, ok_bind]
    rfl
  · rw [DiskOperations.content_writeSector _ (by rw [haddr]; omega), haddr]
    grind

end Slot

-- An entry without a terminator is never written.
theorem insertEntry_unterminated {fs : Ext2Filesystem} {new : Ext2DirEntry}
    (hnew : cString new.name = none) (location : Option EntryLocation) :
    ¬ Defined (insertEntry fs location new) := by
  rintro ⟨fs', h⟩
  unfold insertEntry at h
  obtain ⟨_, -, h⟩ := bind_eq_ok.mp h
  obtain ⟨_, -, h⟩ := bind_eq_ok.mp h
  obtain ⟨_, -, h⟩ := bind_eq_ok.mp h
  rw [hnew] at h
  cases h

/-! ## The slots of the root after a write -/

/-- The position of the first `DIR_ENTRY_NO_MORE`. -/
def terminator (disk : DiskOperations) : Nat := (visited (rootSlots disk)).length

/-- The root has a slot to put an entry in. -/
def HasSlot (disk : DiskOperations) : Prop := terminator disk < 128

@[simp] theorem length_rootSlots (disk : DiskOperations) : (rootSlots disk).length = 128 := by
  simp [rootSlots]

@[simp] theorem getElem_rootSlots (disk : DiskOperations) {t : Nat}
    (ht : t < (rootSlots disk).length) : (rootSlots disk)[t] = blockSlot disk 36 t := by
  simp [rootSlots]

theorem exists_noMore_iff (disk : DiskOperations) :
    (∃ entry ∈ rootSlots disk, entry.isNoMore) ↔ HasSlot disk := by
  rw [exists_noMore_iff_visited, length_rootSlots]
  rfl

-- One slot is changed by a write to its sector.
theorem rootSlots_update {disk disk' : DiskOperations} {t : Nat}
    (f : Ext2DirEntry → Ext2DirEntry)
    (hc : ∀ x, 288 ≤ x → x < 296 → disk'.content x =
      if x = 288 + t / 16 then updateAt asEntries (disk.content x) (t % 16) f
      else disk.content x) :
    rootSlots disk' = (rootSlots disk).set t (f (blockSlot disk 36 t)) := by
  apply List.ext_getElem
  · simp
  · intro i h₁ h₂
    have hi : i < 128 := by simpa using h₁
    have hmod : i % 16 < 16 := Nat.mod_lt _ (by decide)
    have hcontent := hc (288 + i / 16) (by omega) (by omega)
    rw [getElem_rootSlots, List.getElem_set, getElem_rootSlots]
    by_cases hsector : 288 + i / 16 = 288 + t / 16
    · rw [if_pos hsector] at hcontent
      rw [blockSlot_eq hcontent, getElem_updateAt asEntries f hmod]
      by_cases hti : t = i
      · subst hti
        rw [if_pos rfl, if_pos rfl]
        rfl
      · rw [if_neg (by omega), if_neg hti]
        rfl
    · rw [if_neg hsector] at hcontent
      rw [blockSlot_eq hcontent, if_neg (by omega)]
      rfl

theorem rootSlots_congr {disk disk' : DiskOperations}
    (hc : ∀ x, 288 ≤ x → x < 296 → disk'.content x = disk.content x) :
    rootSlots disk' = rootSlots disk := by
  unfold rootSlots
  apply List.map_congr_left
  intro t ht
  have hlt : t < 128 := List.mem_range.mp ht
  unfold blockSlot
  rw [hc _ (by omega) (by omega)]

end Ext2Fs
