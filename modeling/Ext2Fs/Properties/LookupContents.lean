import Ext2Fs.Spec.DirWrites
import Ext2Fs.Properties.BlockMapping

/-!
# The contents of a directory and their lookup

`ext2_lookup` on a directory of any number of blocks.  A search that the first block settles is
answered as it should be.
-/

open Reasoning

namespace Ext2Fs

/-! ## The property -/

/-- The file system stores a directory, or the root, under the number `n`, and all its blocks are
allocated. -/
structure StoresDir (fs : Ext2Filesystem) (n : UInt32) (inode : Ext2Inode) : Prop where
  directory : inode.iMode = attrDirectory ∨ inode.iMode = attrVolumeId
  firstDataBlock : fs.spb.sFirstDataBlock = 0
  onDisk : 262144 * (n.toNat / 1024 + 1) ≤ fs.disk.numberOfSectors.toNat
  table : recordedTable fs n + 32 ≤ 32768
  stored : recordedInode fs n = inode
  few : inode.iBlocks.toNat ≤ maxBlocks
  allocated : ∀ l, l < inode.iBlocks.toNat →
    BlockAllocated fs.disk (standardBlock fs.disk inode.iBlock l)

/-- Slot `q` of a directory: each block holds 128 of them. -/
def dirSlot (disk : DiskOperations) (inode : Ext2Inode) (q : Nat) : Ext2DirEntry :=
  blockSlot disk (standardBlock disk inode.iBlock (q / 128)).toNat (q % 128)

def slotsFrom (disk : DiskOperations) (inode : Ext2Inode) (q n : Nat) : List Ext2DirEntry :=
  (List.range' q n).map (dirSlot disk inode)

/-- The first slot that is searched for is reported, or else an error. -/
def Answers (disk : DiskOperations) (inode : Ext2Inode) (name : List UInt8) (r : LookupResult) :
    Prop :=
  match firstSlot (slotsFrom disk inode 0 (128 * inode.iBlocks.toNat)) name with
  | some q => r.status = some ext2Success ∧
      r.location = some ⟨standardBlock disk inode.iBlock (q / 128), UInt32.ofNat (q % 128)⟩
  | none => r.status = some ext2Error

/-- The lookup of the name is right in every directory of so many blocks under the number `n` whose
first block has these entries. -/
def LookedUp (n blocks : UInt32) (first : List Ext2DirEntry) (name : List UInt8) : Prop :=
  ∀ (fs : Ext2Filesystem) (parent : Ext2Node) (inode : Ext2Inode)
    (location : Option EntryLocation), parent.entry.inode = n → StoresDir fs n inode →
    inode.iBlocks = blocks → (0 < blocks.toNat → slotsFrom fs.disk inode 0 128 = first) →
    ∃ r, ext2Lookup fs parent name location = .ok r ∧ Answers fs.disk inode name r

/-- The inode can be read, there is a first block, and its entries settle the search. -/
structure SettledFirst (n blocks : UInt32) (first : List Ext2DirEntry) (name : List UInt8) : Prop
    where
  group : n.toNat / 1024 < 16
  slot : n.toNat % 1024 < 4
  blocks_pos : 0 < blocks.toNat
  settles : Settles first name

/-! ## Settled searches -/

section Stored

variable {fs : Ext2Filesystem} {n : UInt32} {inode : Ext2Inode} (h : StoresDir fs n inode)

include h

theorem StoresDir.inodeEntry_eq (hgroup : n.toNat / 1024 < 16) (hslot : n.toNat % 1024 < 4) :
    inodeEntry fs n = some inode := by
  rw [inodeEntry_recorded h.firstDataBlock h.onDisk h.table hgroup hslot, h.stored]

-- The first block is the first pointer.
theorem StoresDir.first_block (hpos : 0 < inode.iBlocks.toNat) :
    standardBlock fs.disk inode.iBlock 0 = getElem inode.iBlock 0 pointer_lt ∧
      8 * (getElem inode.iBlock 0 pointer_lt).toNat + 8 ≤ fs.disk.numberOfSectors.toNat := by
  have hfirst : standardBlock fs.disk inode.iBlock 0 = getElem inode.iBlock 0 pointer_lt := by
    simp [standardBlock]
  have hin := (h.allocated 0 hpos).2
  rw [hfirst] at hin
  exact ⟨hfirst, hin⟩

end Stored

/-- The pairs of the blocks `1, …, m`. -/
def laterPairs (m : Nat) : List (Nat × Nat) :=
  ((List.range m).map Nat.succ).flatMap fun i ↦ (List.range 8).map fun j ↦ (i, j)

theorem sectorPairs_succ (m : Nat) :
    sectorPairs (m + 1) = (List.range' 0 8).map (fun j ↦ (0, j)) ++ laterPairs m := by
  have hrange : List.range (m + 1) = 0 :: (List.range m).map Nat.succ := List.range_succ_eq_map
  rw [sectorPairs, hrange, List.flatMap_cons]
  rfl

section First

variable {fs : Ext2Filesystem} {n : UInt32} {inode : Ext2Inode} {parent : Ext2Node}

-- The lookup up to the end of the first block.
theorem StoresDir.ext2Lookup_first (h : StoresDir fs n inode) (hparent : parent.entry.inode = n)
    (hgroup : n.toNat / 1024 < 16) (hslot : n.toNat % 1024 < 4) {m : Nat}
    (hblocks : inode.iBlocks.toNat = m + 1) (name : List UInt8) (location : Option EntryLocation) :
    ∃ buf, ext2Lookup fs parent name location =
      scanEntries name (slotsFrom fs.disk inode 0 128) 0 >>=
        EntryScan.resultOr fs (standardBlock fs.disk inode.iBlock 0) location
          (lookupSectors parent name location fs (ext2FillInode fs InodeVar.uninit n) buf
            (laterPairs m)) := by
  have hfill := ext2FillInode_some (h.inodeEntry_eq hgroup hslot) InodeVar.uninit
  rcases h.first_block (by omega) with ⟨hfirst, hin⟩
  rcases lookupSectors_block_append parent hfill.iBlock hin name 8 0 rfl location none
    (laterPairs m) with ⟨buf, hrun⟩
  have hslots : (List.range' 0 128).map
      (blockSlot fs.disk (getElem inode.iBlock 0 pointer_lt).toNat) =
        slotsFrom fs.disk inode 0 128 := by
    unfold slotsFrom
    apply List.map_congr_left
    intro q hq
    have hlt : q < 128 := by simpa using hq
    rw [dirSlot, Nat.div_eq_of_lt hlt, Nat.mod_eq_of_lt hlt, hfirst]
  refine ⟨buf, ?_⟩
  rw [ext2Lookup, hparent, hfill.iBlocks, determinate_some, ok_bind, hblocks, sectorPairs_succ,
    hrun, hfirst]
  change scanEntries name ((List.range' 0 128).map _) 0 >>= _ = _
  rw [hslots]

theorem slotsFrom_append (disk : DiskOperations) (q a b : Nat) :
    slotsFrom disk inode q (a + b) =
      slotsFrom disk inode q a ++ slotsFrom disk inode (q + a) b := by
  rw [slotsFrom, slotsFrom, slotsFrom, ← List.map_append, List.range'_append_1]

theorem lookedUp_of_settled {blocks : UInt32} {first : List Ext2DirEntry} {name : List UInt8}
    (hname : 0 ∉ name) (hsettled : SettledFirst n blocks first name) :
    LookedUp n blocks first name := by
  intro fs parent inode location hparent h hblocks hfirst
  have hpos := hsettled.blocks_pos
  obtain ⟨m, hm⟩ : ∃ m, inode.iBlocks.toNat = m + 1 := ⟨inode.iBlocks.toNat - 1, by
    rw [hblocks]
    omega⟩
  rcases h.ext2Lookup_first hparent hsettled.group hsettled.slot hm name location with ⟨buf, hrun⟩
  have hslots := hfirst hpos
  rcases scanEntries_settled (k := 0) hname hsettled.settles with ⟨r, hscan, hr⟩
  -- the slots behind the first block are not looked at
  have hall :
      scanEntries name (slotsFrom fs.disk inode 0 (128 * inode.iBlocks.toNat)) 0 = .ok r := by
    rw [hm, Nat.mul_succ, Nat.add_comm, slotsFrom_append, hslots, scanEntries_append, hscan,
      ok_bind]
    cases r with
    | next => exact absurd rfl hr
    | found k => rfl
    | noMore => rfl
  have hbest := scanEntries_firstSlot hname hall hr
  rw [hslots, hscan, ok_bind] at hrun
  unfold Answers
  cases hfound : firstSlot (slotsFrom fs.disk inode 0 (128 * inode.iBlocks.toNat)) name with
  | none =>
    rw [hfound] at hbest
    rw [hbest] at hrun
    exact ⟨_, hrun, rfl⟩
  | some q =>
    rw [hfound, Option.elim_some, Nat.zero_add] at hbest
    rw [hbest] at hrun hscan
    have hq := scanEntries_found_lt hscan
    have hlen := congrArg List.length hslots
    rw [slotsFrom, List.length_map, List.length_range'] at hlen
    rw [← hlen, Nat.zero_add] at hq
    refine ⟨_, hrun, rfl, ?_⟩
    rw [Nat.div_eq_of_lt hq, Nat.mod_eq_of_lt hq]
    rfl

end First

/-! ## A directory that is looked up wrongly -/

-- The code adds the number of a sector within the file to the block, and so it misses the blocks
-- behind the first one.  Here these begin with a terminator, and no other sector holds one.

/-- An entry without a terminator. -/
def fullEntry : Ext2DirEntry := { Ext2DirEntry.zero with name := Vector.replicate 24 0x41 }

/-- Block 3000 and the index blocks that lead to it. -/
def farChain (d : Nat) : UInt32 := if d = 0 then 3000 else UInt32.ofNat (3999 + d)

def farInode (blocks : UInt32) : Ext2Inode :=
  { Ext2Inode.zero with
    iMode := attrDirectory
    iBlocks := blocks
    iBlock := Vector.ofFn fun k ↦
      if k.val = 0 then 2000 else if k.val < 12 then farChain 0 else farChain (k.val - 11) }

/-- Sector `x` of the disk that stores the directory under the number `n`. -/
def farContents (n : Nat) (blocks : UInt32) (first : List Ext2DirEntry) (x : Nat) : Sector :=
  if x = 8 + n / 1024 / 16 then
    asDescs.symm (Vector.replicate 16 { Ext2GroupDesc.zero with bgInodeTable := 4 })
  else if x = 262144 * (n / 1024) + 32 + n % 1024 / 4 then
    asInodes.symm (Vector.replicate 4 (farInode blocks))
  else if x / 8 = 2000 then
    asEntries.symm (Vector.ofFn fun k ↦ first.getD (16 * (x % 8) + k.val) Ext2DirEntry.zero)
  else if x / 8 = 3000 then zeroSector
  else if 4000 ≤ x / 8 ∧ x / 8 ≤ 4002 then
    asWords.symm (Vector.replicate 128 (farChain (x / 8 - 4000)))
  else asEntries.symm (Vector.replicate 16 fullEntry)

def farFs (n blocks : UInt32) (first : List Ext2DirEntry) : Ext2Filesystem where
  spb := Ext2SuperBlock.zero
  disk := DiskOperations.ofContents (UInt32.ofNat (262144 * (n.toNat / 1024 + 1)))
    (farContents n.toNat blocks first)

section Far

variable {n blocks : UInt32} {first : List Ext2DirEntry} (hn : n.toNat / 1024 < 16383)

theorem content_farFs (n blocks : UInt32) (first : List Ext2DirEntry) (x : Nat) :
    (farFs n blocks first).disk.content x = farContents n.toNat blocks first x := rfl

-- Everything but the descriptor and the inode lies between them.
theorem farContents_mid (blocks : UInt32) (first : List Ext2DirEntry) {n x : Nat} (hlo : 16000 ≤ x)
    (hhi : x < 40000) (hn : n / 1024 < 16383) : farContents n blocks first x =
      if x / 8 = 2000 then
        asEntries.symm (Vector.ofFn fun k ↦ first.getD (16 * (x % 8) + k.val) Ext2DirEntry.zero)
      else if x / 8 = 3000 then zeroSector
      else if 4000 ≤ x / 8 ∧ x / 8 ≤ 4002 then
        asWords.symm (Vector.replicate 128 (farChain (x / 8 - 4000)))
      else asEntries.symm (Vector.replicate 16 fullEntry) := by
  rw [farContents, if_neg (by omega), if_neg (by omega)]

theorem farChain_toNat {d : Nat} (hd : d ≤ 3) :
    (farChain d).toNat = if d = 0 then 3000 else 3999 + d := by
  unfold farChain
  split
  · rfl
  · rw [UInt32.toNat_ofNat']
    omega

theorem farInode_pointer (blocks : UInt32) {k : Nat} (hk : k < 15) :
    (farInode blocks).iBlock[k] =
      if k = 0 then 2000 else if k < 12 then farChain 0 else farChain (k - 11) := by
  simp [farInode]

include hn

theorem farFs_sectors : (farFs n blocks first).disk.numberOfSectors.toNat =
    262144 * (n.toNat / 1024 + 1) := by
  change (UInt32.ofNat _).toNat = _
  rw [UInt32.toNat_ofNat']
  omega

theorem indexEntry_far {d e : Nat} (hd : d < 3) (he : e < 1024) :
    indexEntry (farFs n blocks first).disk (farChain (d + 1)) e = farChain d := by
  have hblock := farChain_toNat (show d + 1 ≤ 3 by omega)
  rw [if_neg (by omega)] at hblock
  have hdiv : (8 * (3999 + (d + 1)) + e / 128) / 8 = 4000 + d := by omega
  have hcontent : (farFs n blocks first).disk.content (8 * (3999 + (d + 1)) + e / 128) =
      asWords.symm (Vector.replicate 128 (farChain d)) := by
    rw [content_farFs, farContents_mid blocks first (by omega) (by omega) hn, hdiv,
      if_neg (by omega), if_neg (by omega), if_pos (by omega), Nat.add_sub_cancel_left]
  unfold indexEntry
  rw [hblock, hcontent, Equiv.apply_symm_apply, Vector.getElem_replicate]

theorem standardBlock_far {l : Nat} (hl : l < maxBlocks) :
    standardBlock (farFs n blocks first).disk (farInode blocks).iBlock l =
      if l = 0 then 2000 else 3000 := by
  by_cases hdirect : l < 12
  · have hpointer := farInode_pointer blocks (show l < 15 by omega)
    rw [standardBlock, if_pos hdirect, Vector.getElem?_eq_getElem (by omega), Option.getD_some,
      hpointer, if_pos hdirect]
    rfl
  · rw [if_neg (by omega)]
    exact standardBlock_chain (fun d e hd he ↦ indexEntry_far hn hd he)
      (farInode_pointer blocks (by decide)) (farInode_pointer blocks (by decide))
      (farInode_pointer blocks (by decide)) (Nat.le_of_not_lt hdirect) hl

theorem storesDir_far (hfew : blocks.toNat ≤ maxBlocks) :
    StoresDir (farFs n blocks first) n (farInode blocks) := by
  have hsectors := @farFs_sectors n blocks first hn
  have htable : recordedTable (farFs n blocks first) n = 4 := by
    rw [recordedTable, content_farFs, farContents, if_pos rfl, Equiv.apply_symm_apply,
      Vector.getElem_replicate]
    rfl
  constructor
  case directory => exact Or.inl rfl
  case firstDataBlock => rfl
  case onDisk => exact Nat.le_of_eq hsectors.symm
  case table =>
    rw [htable]
    decide
  case stored =>
    rw [recordedInode, htable, content_farFs, farContents, if_neg (by omega), if_pos (by omega),
      Equiv.apply_symm_apply, Vector.getElem_replicate]
  case few => exact hfew
  case allocated =>
    intro l hl
    rw [standardBlock_far hn (Nat.lt_of_lt_of_le hl hfew)]
    split
    · refine ⟨by decide, ?_⟩
      rw [hsectors]
      change 8 * 2000 + 8 ≤ _
      omega
    · refine ⟨by decide, ?_⟩
      rw [hsectors]
      change 8 * 3000 + 8 ≤ _
      omega

/-! ### What the directory holds -/

theorem slotsFrom_far (hfirst : first.length = 128) :
    slotsFrom (farFs n blocks first).disk (farInode blocks) 0 128 = first := by
  have hmax : maxBlocks = 1074791436 := rfl
  apply List.ext_getElem
  · rw [slotsFrom, List.length_map, List.length_range', hfirst]
  · intro q hq hq'
    have hlt : q < 128 := by omega
    have hdiv : (8 * 2000 + q / 16) / 8 = 2000 := by omega
    have hmod : (8 * 2000 + q / 16) % 8 = q / 16 := by omega
    have hcontent := farContents_mid blocks first (show 16000 ≤ 8 * 2000 + q / 16 by omega)
      (by omega) hn
    rw [hdiv, hmod, if_pos rfl] at hcontent
    have hslot : dirSlot (farFs n blocks first).disk (farInode blocks) q =
        blockSlot (farFs n blocks first).disk 2000 q := by
      rw [dirSlot, Nat.div_eq_of_lt hlt, Nat.mod_eq_of_lt hlt, standardBlock_far hn (by omega),
        if_pos rfl]
      rfl
    simp only [slotsFrom, List.getElem_map, List.getElem_range', Nat.zero_add, Nat.one_mul]
    rw [hslot, blockSlot_eq hcontent, Equiv.apply_symm_apply, Vector.getElem_ofFn]
    rw [Nat.div_add_mod q 16, List.getD_eq_getElem?_getD, List.getElem?_eq_getElem hq',
      Option.getD_some]

-- The second block begins with a terminator.
theorem isNoMore_far : (dirSlot (farFs n blocks first).disk (farInode blocks) 128).isNoMore := by
  have hcontent := farContents_mid blocks first (show 16000 ≤ 8 * 3000 + 0 / 16 by decide)
    (by decide) hn
  rw [if_neg (by decide), if_pos (by decide)] at hcontent
  have hslot : dirSlot (farFs n blocks first).disk (farInode blocks) 128 = Ext2DirEntry.zero := by
    rw [dirSlot, standardBlock_far hn (by decide), if_neg (by decide)]
    change blockSlot (farFs n blocks first).disk 3000 0 = _
    rw [blockSlot_eq hcontent, asEntries_zeroSector, Vector.getElem_replicate]
  rw [hslot]
  rfl

theorem firstSlot_far {name : List UInt8} {m : Nat} (hblocks : blocks.toNat = m + 1)
    (hfirst : first.length = 128) (hne : name ≠ [])
    (hnone : ∀ entry ∈ first, ¬ entry.isNoMore ∧ ¬ entry.holds name) :
    firstSlot (slotsFrom (farFs n blocks first).disk (farInode blocks) 0 (128 * (m + 1))) name =
      none := by
  have hlater : visited (slotsFrom (farFs n blocks first).disk (farInode blocks) (0 + 128)
      (128 * m)) = [] := by
    cases m with
    | zero => rfl
    | succ m =>
      rw [slotsFrom, Nat.mul_succ, List.range'_succ, List.map_cons, visited_cons,
        if_pos (isNoMore_far hn)]
  have hself : visited first = first := by
    unfold visited
    rw [List.takeWhile_eq_self_iff]
    exact fun entry hmem ↦ decide_eq_true (hnone entry hmem).1
  rw [firstSlot, if_neg hne, Nat.mul_succ, Nat.add_comm, slotsFrom_append,
    slotsFrom_far hn hfirst, visited_append, hself, if_pos rfl, hlater, List.append_nil,
    List.findIdx?_eq_none_iff]
  exact fun entry hmem ↦ decide_eq_false (hnone entry hmem).2

end Far

/-! ### What the code reads of it -/

theorem pairOffset_toNat {p : Nat × Nat} (h : p.1 < 15 ∧ p.2 < 8) :
    (pairOffset p).toNat = 512 * (8 * p.1 + p.2) := by
  unfold pairOffset
  simp
  omega

section Unterminated

variable {fs : Ext2Filesystem} {parent : Ext2Node} {inode : InodeVar} {name : List UInt8}
  {location : Option EntryLocation} {r : LookupResult}

-- Where no sector holds a terminator, the loops never return an error, nor a place for an entry.
theorem lookupSectors_unterminated {pairs rest : List (Nat × Nat)} {buf : Option Sector}
    (hpairs : ∀ p ∈ pairs, p.1 < 15 ∧ p.2 < 8) (hrest : rest = [] ∨ ∃ t, rest = (15, 0) :: t)
    (hloads : ∀ p ∈ pairs, ∀ buf out, getDatablock fs parent inode (pairOffset p) buf = .ok out →
      ∃ s, out.2.2.2 = some s ∧ ∀ entry ∈ (asEntries s).toList, ¬ entry.isNoMore)
    (h : lookupSectors parent name location fs inode buf (pairs ++ rest) = .ok r) :
    r.status ≠ some ext2Error ∧ (name = [] → r.status ≠ some ext2Success) := by
  rcases lookupSectors_cases hpairs hrest h with
    rfl | ⟨p, hmem, buf, out, sector, scan, hget, hsector, hscan, hne, rfl⟩
  · exact ⟨(fun herror ↦ by cases herror), fun _ hsuccess ↦ by cases hsuccess⟩
  · rcases hloads p hmem _ _ hget with ⟨s, hs, hentries⟩
    rw [hsector, Option.some.injEq] at hs
    subst hs
    rcases scanEntries_unterminated hentries hscan with ⟨hnever, hnil⟩
    cases scan with
    | found k =>
      refine ⟨fun herror ↦ absurd (Option.some.inj herror) (by decide), fun hname ↦ ?_⟩
      cases hnil hname
    | noMore => exact absurd rfl hnever
    | next => exact absurd rfl hne

end Unterminated

theorem laterPairs_eq (m : Nat) : laterPairs m = pairsFrom 1 m := by
  have hsucc : (List.range m).map Nat.succ = List.range' 1 m := by
    rw [List.range'_eq_map_range]
    exact List.map_congr_left fun i _ ↦ Nat.add_comm i 1
  rw [laterPairs, hsucc, pairsFrom]

theorem ext2FillInode_pointer {fs : Ext2Filesystem} {n : UInt32} {entry : Ext2Inode}
    (h : inodeEntry fs n = some entry) {i : Nat} (hi : i < 15) {block : UInt32}
    (hblock : ((ext2FillInode fs InodeVar.uninit n).iBlock[i]?).join = some block) :
    block = entry.iBlock[i] := by
  rw [ext2FillInode, h, Vector.getElem?_eq_getElem hi] at hblock
  simp only [Vector.getElem_ofFn, Option.join_some] at hblock
  split at hblock
  · rw [Option.some.injEq] at hblock
    exact hblock.symm
  · simp [InodeVar.uninit] at hblock

section Far

variable {n blocks : UInt32} {first : List Ext2DirEntry} (hn : n.toNat / 1024 < 16383)

include hn

theorem loads_far (h : inodeEntry (farFs n blocks first) n = some (farInode blocks))
    (parent : Ext2Node) {p : Nat × Nat} (hlo : 1 ≤ p.1) (hp : p.1 < 15 ∧ p.2 < 8)
    {buf : Option Sector} {out : UInt32 × Ext2Filesystem × InodeVar × Option Sector}
    (hget : getDatablock (farFs n blocks first) parent
      (ext2FillInode (farFs n blocks first) InodeVar.uninit n) (pairOffset p) buf = .ok out) :
    ∃ s, out.2.2.2 = some s ∧ ∀ entry ∈ (asEntries s).toList, ¬ entry.isNoMore := by
  have hoff := pairOffset_toNat hp
  have hblock : (pairOffset p / 4096).toUInt32.toNat = p.1 := by
    simp [hoff]
    omega
  rcases getDatablock_direct hblock (by omega) hget with ⟨hpointer, hread⟩
  -- neither block 3000 nor an index block is reached from a pointer behind the first
  have hnum : out.1.toNat = if p.1 < 12 then 3000 else 3988 + p.1 := by
    rw [ext2FillInode_pointer h hp.1 hpointer, farInode_pointer blocks hp.1, if_neg (by omega)]
    split
    · rfl
    · rw [farChain_toNat (by omega), if_neg (by omega)]
      omega
  have hle : out.1.toNat ≤ 4003 := by
    rw [hnum]
    split <;> omega
  have haddr : ((out.1 * sectorsPerBlock).toUInt64 + pairOffset p / 512).toUInt32.toNat =
      8 * (out.1.toNat + p.1) + p.2 := by
    simp [hoff]
    omega
  have hdiv : (8 * (out.1.toNat + p.1) + p.2) / 8 = out.1.toNat + p.1 := by omega
  have hfar : ¬ out.1.toNat + p.1 = 2000 ∧ ¬ out.1.toNat + p.1 = 3000 ∧
      ¬ (4000 ≤ out.1.toNat + p.1 ∧ out.1.toNat + p.1 ≤ 4002) := by
    rw [hnum]
    split <;> omega
  have hlow : 3000 ≤ out.1.toNat := by
    rw [hnum]
    split <;> omega
  have hcontent := farContents_mid blocks first
    (show 16000 ≤ 8 * (out.1.toNat + p.1) + p.2 by omega) (by omega) hn
  rw [hdiv, if_neg hfar.1, if_neg hfar.2.1, if_neg hfar.2.2] at hcontent
  have hsectors := @farFs_sectors n blocks first hn
  refine ⟨_, hread.trans (DiskOperations.readSector_eq buf haddr (by omega) hcontent), ?_⟩
  rw [Equiv.apply_symm_apply, Vector.toList_replicate]
  intro entry hmem
  rw [List.eq_of_mem_replicate hmem]
  decide

end Far

/-! ## The condition -/

theorem Answers.status {disk : DiskOperations} {inode : Ext2Inode} {name : List UInt8}
    {r : LookupResult} (h : Answers disk inode name r) :
    r.status = some ext2Success ∨ r.status = some ext2Error := by
  unfold Answers at h
  split at h
  · exact Or.inl h.1
  · exact Or.inr h

section Condition

variable {n blocks : UInt32} {first : List Ext2DirEntry} {name : List UInt8}

-- A search that goes on behind the first block.
theorem not_answers_far (hname : 0 ∉ name) (hn : n.toNat / 1024 < 16383)
    (hfew : blocks.toNat ≤ maxBlocks) (hfirst : first.length = 128) (hgroup : n.toNat / 1024 < 16)
    (hslot : n.toNat % 1024 < 4) {m : Nat} (hblocks : blocks.toNat = m + 1)
    (hsettles : ¬ Settles first name) {parent : Ext2Node} (hparent : parent.entry.inode = n)
    {r : LookupResult} (hrun : ext2Lookup (farFs n blocks first) parent name none = .ok r) :
    ¬ Answers (farFs n blocks first).disk (farInode blocks) name r := by
  have hstores := @storesDir_far n blocks first hn hfew
  rcases hstores.ext2Lookup_first hparent hgroup hslot hblocks name none with ⟨buf, hlookup⟩
  rw [hlookup, slotsFrom_far hn hfirst] at hrun
  rcases bind_eq_ok.mp hrun with ⟨scan, hscan, hrun⟩
  have hnext : scan = .next := by
    by_contra hne
    exact hsettles (settles_of_scanEntries hname hscan hne)
  rw [hnext] at hscan hrun
  rcases pairsFrom_split (show 1 ≤ 15 by decide) m with ⟨pairs, rest, hpairs, hbounds, hrest⟩
  have hentry := hstores.inodeEntry_eq hgroup hslot
  simp only [laterPairs_eq, hpairs] at hrun
  have hnever := lookupSectors_unterminated (fun p hp ↦ (hbounds p hp).2) hrest
    (fun p hp buf out hget ↦
      loads_far hn hentry parent (hbounds p hp).1 (hbounds p hp).2 hget) hrun
  intro hanswers
  by_cases hne : name = []
  · rcases hanswers.status with hsuccess | herror
    · exact hnever.2 hne hsuccess
    · exact hnever.1 herror
  · have hnone := firstSlot_far hn hblocks hfirst hne (scanEntries_next hname hscan)
    unfold Answers at hanswers
    rw [show (farInode blocks).iBlocks = blocks from rfl, hblocks, hnone] at hanswers
    exact hnever.1 hanswers

theorem settled_of_lookedUp (hname : 0 ∉ name) (hn : n.toNat / 1024 < 16383)
    (hfew : blocks.toNat ≤ maxBlocks) (hfirst : first.length = 128)
    (h : LookedUp n blocks first name) : SettledFirst n blocks first name := by
  have hstores := @storesDir_far n blocks first hn hfew
  obtain ⟨parent, hparent⟩ : ∃ parent : Ext2Node, parent.entry.inode = n :=
    ⟨⟨{ Ext2DirEntry.zero with inode := n }, 0⟩, rfl⟩
  rcases h (farFs n blocks first) parent (farInode blocks) none hparent hstores rfl
    (fun _ ↦ slotsFrom_far hn hfirst) with ⟨r, hrun, hanswers⟩
  have hreadable : inodeEntry (farFs n blocks first) n ≠ none := by
    intro hnone
    rw [ext2Lookup_unreadable (hparent.symm ▸ hnone)] at hrun
    cases hrun
  have hgroup : n.toNat / 1024 < 16 := by
    by_contra hge
    exact hreadable (inodeEntry_of_ge (Nat.le_of_not_lt hge))
  have hslot : n.toNat % 1024 < 4 := by
    by_contra hge
    apply hreadable
    apply inodeEntry_of_slot
    simpa using hge
  have hpos : 0 < blocks.toNat := by
    by_contra hzero
    have hblocks : (farInode blocks).iBlocks = 0 :=
      UInt32.toNat_inj.mp (show blocks.toNat = 0 by omega)
    have hentry := hstores.inodeEntry_eq hgroup hslot
    rw [ext2Lookup_noBlocks (hparent.symm ▸ hentry) hblocks, Except.ok.injEq] at hrun
    rw [← hrun] at hanswers
    rcases hanswers.status with hsuccess | herror
    · cases hsuccess
    · cases herror
  refine ⟨hgroup, hslot, hpos, ?_⟩
  by_contra hsettles
  obtain ⟨m, hm⟩ : ∃ m, blocks.toNat = m + 1 := ⟨blocks.toNat - 1, by omega⟩
  exact not_answers_far hname hn hfew hfirst hgroup hslot hm hsettles hparent hrun hanswers

/-- The lookup is right exactly for the directories whose inode can be read and whose first block
settles the search. -/
theorem lookedUp_iff (hname : 0 ∉ name) (hn : n.toNat / 1024 < 16383)
    (hfew : blocks.toNat ≤ maxBlocks) (hfirst : first.length = 128) :
    LookedUp n blocks first name ↔ SettledFirst n blocks first name :=
  ⟨settled_of_lookedUp hname hn hfew hfirst, lookedUp_of_settled hname⟩

end Condition

/-- The entries that a format leaves in the root. -/
def rootBlock : List Ext2DirEntry := rootEntries.toList ++ List.replicate 112 Ext2DirEntry.zero

theorem length_rootBlock : rootBlock.length = 128 := by
  rw [rootBlock, List.length_append, Vector.length_toList, List.length_replicate]

/-- The name `".."` in the root. -/
theorem lookedUp_iff_root : 0 ∉ dotdotName ∧ (2 : UInt32).toNat / 1024 < 16383 ∧
    (1 : UInt32).toNat ≤ maxBlocks ∧ rootBlock.length = 128 ∧
    (LookedUp 2 1 rootBlock dotdotName ↔ SettledFirst 2 1 rootBlock dotdotName) :=
  ⟨by decide, by decide, by decide, length_rootBlock,
    lookedUp_iff (by decide) (by decide) (by decide) length_rootBlock⟩

theorem not_settles_full {name : List UInt8} (hname : ¬ fullEntry.holds name) (m : Nat) :
    ¬ Settles (List.replicate m fullEntry) name := by
  induction m with
  | zero => exact fun h ↦ h
  | succ m ih =>
    intro h
    rcases h with hnoMore | hholds | ⟨-, hrest⟩
    · exact absurd hnoMore (by decide)
    · exact hname hholds
    · exact ih hrest

/-- A root of one block that is filled with entries: the search for a free slot does not return. -/
theorem not_lookedUp : ¬ LookedUp 2 1 (List.replicate 128 fullEntry) [] := by
  intro h
  have hsettled := settled_of_lookedUp (by decide) (by decide) (by decide) List.length_replicate h
  exact not_settles_full (by decide) 128 hsettled.settles

end Ext2Fs
