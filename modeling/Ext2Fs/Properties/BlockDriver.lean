import Ext2Fs.Model.BlockDriver
import Ext2Fs.Properties.DiskRefinement

/-!
# The block device drivers as stores

A request moves one range of the device, whatever pieces its buffer lies in.  What is written is read
back as long as nothing else is written there; both drivers are compared, and the one of blk_test.c
with the disk of the file system.
-/

open Reasoning

namespace Ext2Fs

namespace Bio

/-- Where the range of the request starts in the device. -/
def first (bio : Bio) : Nat := bio.biSector.toNat * 512

/-- The pieces of its buffer. -/
def buffer (bio : Bio) : List Segment := bio.segments.map BlkTest.buffer

/-- What the block layer promises of a request: it is for whole sectors, its segments lie in their
pages and make up its size, and its end is a sector number. -/
structure Valid (bio : Bio) : Prop where
  size_eq : totalLength bio.buffer = bio.biSize.toNat
  whole : bio.biSize.toNat % 512 = 0
  within : ∀ s ∈ bio.buffer, s.Within bio.pages
  sector_lt : bio.biSector.toNat + bio.biSize.toNat / 512 < 18446744073709551616

/-- The request leaves `len` bytes of the device from `off` on as they are. -/
def Spares (bio : Bio) (off len : Nat) : Prop :=
  bio.rw ≠ .write ∨ bio.first + bio.biSize.toNat ≤ off ∨ off + len ≤ bio.first

end Bio

namespace BlkTest

section Loop

variable {segments : List BioVec} {area area' bytes : List UInt8} {pages pages' : Pages UInt8}
  {data : Nat}

theorem copySegments_read
    (hload : loadRange area data (totalLength (segments.map buffer)) = .ok bytes)
    (hscatter : scatter pages (segments.map buffer) bytes = .ok pages') :
    copySegments .read ⟨area, pages⟩ data segments = .ok (true, ⟨area, pages'⟩) := by
  induction segments generalizing data bytes pages with
  | nil =>
    rw [List.map_nil, scatter, Except.ok.injEq] at hscatter
    rw [hscatter]
    rfl
  | cons bvec rest ih =>
    rw [List.map_cons, totalLength_cons, loadRange_append] at hload
    rcases bind_eq_ok.mp hload with ⟨front, hfront, hload⟩
    rcases bind_eq_ok.mp hload with ⟨back, hback, hbytes⟩
    rw [Except.ok.injEq] at hbytes
    have hlen : front.length = (buffer bvec).len := length_of_loadRange hfront
    rw [List.map_cons, scatter, ← hbytes, List.take_left' hlen, List.drop_left' hlen] at hscatter
    rcases bind_eq_ok.mp hscatter with ⟨pages₁, hstore, hscatter⟩
    rw [copySegments, Transfer.read, hfront, ok_bind, hstore, ok_bind, pure_eq_ok, ok_bind]
    exact ih hback hscatter

theorem copySegments_write (hgather : gather pages (segments.map buffer) = .ok bytes)
    (hstore : storeRange area data bytes = .ok area') :
    copySegments .write ⟨area, pages⟩ data segments = .ok (true, ⟨area', pages⟩) := by
  induction segments generalizing data bytes area with
  | nil =>
    rw [List.map_nil, gather, Except.ok.injEq] at hgather
    subst hgather
    have hle : data ≤ area.length := le_of_storeRange hstore
    rw [storeRange_nil hle, Except.ok.injEq] at hstore
    rw [hstore]
    rfl
  | cons bvec rest ih =>
    rcases bind_eq_ok.mp hgather with ⟨front, hload, hgather⟩
    rcases bind_eq_ok.mp hgather with ⟨back, hgather, hbytes⟩
    rw [pure_eq_ok, Except.ok.injEq] at hbytes
    rw [← hbytes, storeRange_append] at hstore
    rcases bind_eq_ok.mp hstore with ⟨area₁, hfront, hstore⟩
    have hlen : front.length = bvec.bvLen.toNat := length_of_load hload
    rw [hlen] at hstore
    rw [copySegments, Transfer.write, hload, ok_bind, hfront, ok_bind, pure_eq_ok, ok_bind]
    exact ih hgather hstore

end Loop

section Request

variable {bio : Bio} {area area' bytes : List UInt8} {pages' : Pages UInt8}

theorem toNat_sectors (size : UInt32) : ((size >>> 9).toUInt64).toNat = size.toNat / 512 := by
  rw [UInt32.toNat_toUInt64, UInt32.toNat_shiftRight, Nat.shiftRight_eq_div_pow]
  rfl

-- The test at the start compares the end of the range with that of the device.
theorem sector_gt_iff (h : bio.Valid) :
    bio.biSector + (bio.biSize >>> 9).toUInt64 > mydrvTotalBlk ↔
      mydrvMaxLength < bio.first + bio.biSize.toNat := by
  have hwhole := h.whole
  rw [gt_iff_lt, UInt64.lt_iff_toNat_lt, UInt64.toNat_add, toNat_sectors,
    Nat.mod_eq_of_lt h.sector_lt, Bio.first, mydrvMaxLength,
    show mydrvTotalBlk.toNat = 16384 from rfl]
  omega

theorem toNat_offset (h : bio.first ≤ mydrvMaxLength) :
    (bio.biSector * mydrvBlkSize).toNat = bio.first := by
  rw [Bio.first, mydrvMaxLength] at h
  rw [UInt64.toNat_mul, show mydrvBlkSize.toNat = 512 from rfl, Bio.first,
    Nat.mod_eq_of_lt (by omega)]

theorem request_refused (h : bio.Valid) (hbeyond : mydrvMaxLength < bio.first + bio.biSize.toNat) :
    mydrvMakeRequest area bio = .ok ((-eio, bio.pages), area) := by
  unfold mydrvMakeRequest
  dsimp only
  rw [if_pos ((sector_gt_iff h).mpr hbeyond)]

theorem request_served (h : bio.Valid) (hin : bio.first + bio.biSize.toNat ≤ mydrvMaxLength) :
    mydrvMakeRequest area bio =
      copySegments (if bio.rw = .reada then .read else bio.rw) ⟨area, bio.pages⟩ bio.first
        bio.segments >>= fun r ↦ .ok ((if r.1 then 0 else -eio, r.2.pages), r.2.mydrvData) := by
  unfold mydrvMakeRequest
  dsimp only
  rw [if_neg (fun hgt ↦ Nat.not_lt.mpr hin ((sector_gt_iff h).mp hgt)), toNat_offset (by omega)]
  rfl

theorem read_request (h : bio.Valid) (hrw : bio.rw = .read ∨ bio.rw = .reada)
    (hload : loadRange area bio.first bio.biSize.toNat = .ok bytes)
    (hscatter : scatter bio.pages bio.buffer bytes = .ok pages')
    (hin : bio.first + bio.biSize.toNat ≤ mydrvMaxLength) :
    mydrvMakeRequest area bio = .ok ((0, pages'), area) := by
  have hread : (if bio.rw = .reada then .read else bio.rw) = Rw.read := by
    rcases hrw with hrw | hrw
    · rw [hrw]
      rfl
    · exact if_pos hrw
  rw [← h.size_eq] at hload
  rw [request_served h hin, hread, copySegments_read hload hscatter, ok_bind]
  rfl

theorem write_request (h : bio.Valid) (hrw : bio.rw = .write)
    (hgather : gather bio.pages bio.buffer = .ok bytes)
    (hstore : storeRange area bio.first bytes = .ok area')
    (hin : bio.first + bio.biSize.toNat ≤ mydrvMaxLength) :
    mydrvMakeRequest area bio = .ok ((0, bio.pages), area') := by
  have hwrite : (if bio.rw = .reada then .read else bio.rw) = Rw.write := by
    rw [hrw]
    rfl
  rw [request_served h hin, hwrite, copySegments_write hgather hstore, ok_bind]
  rfl

theorem other_request (h : bio.Valid) (hrw : bio.rw = .other)
    (hin : bio.first + bio.biSize.toNat ≤ mydrvMaxLength) :
    ∃ answer, mydrvMakeRequest area bio = .ok (answer, area) := by
  have hother : (if bio.rw = .reada then .read else bio.rw) = Rw.other := by
    rw [hrw]
    rfl
  rw [request_served h hin, hother]
  cases bio.segments with
  | nil => exact ⟨_, rfl⟩
  | cons bvec rest => exact ⟨_, rfl⟩

-- One request, and the ranges that it spares.
theorem request_spares (harea : area.length = mydrvMaxLength) (h : bio.Valid) :
    ∃ answer area', mydrvMakeRequest area bio = .ok (answer, area') ∧
      area'.length = mydrvMaxLength ∧
      ∀ off len, bio.Spares off len → loadRange area' off len = loadRange area off len := by
  by_cases hin : bio.first + bio.biSize.toNat ≤ mydrvMaxLength
  · have hload : ∃ bytes, loadRange area bio.first bio.biSize.toNat = .ok bytes :=
      ⟨_, loadRange_of_le (harea ▸ hin)⟩
    rcases hload with ⟨bytes, hload⟩
    have hbytes : bytes.length = totalLength bio.buffer := by
      rw [length_of_loadRange hload, h.size_eq]
    rcases scatter_of_within h.within hbytes with ⟨pages', hscatter⟩
    cases hrw : bio.rw with
    | read =>
      exact ⟨_, area, read_request h (Or.inl hrw) hload hscatter hin, harea, fun _ _ _ ↦ rfl⟩
    | reada =>
      exact ⟨_, area, read_request h (Or.inr hrw) hload hscatter hin, harea, fun _ _ _ ↦ rfl⟩
    | other =>
      have hrequest : ∃ answer, mydrvMakeRequest area bio = .ok (answer, area) :=
        other_request h hrw hin
      rcases hrequest with ⟨answer, hrequest⟩
      exact ⟨answer, area, hrequest, harea, fun _ _ _ ↦ rfl⟩
    | write =>
      rcases gather_of_within h.within with ⟨written, hgather⟩
      have hlen : written.length = bio.biSize.toNat := by
        rw [length_of_gather hgather, h.size_eq]
      have hstore : ∃ area', storeRange area bio.first written = .ok area' :=
        ⟨_, storeRange_of_le (by rw [hlen, harea]; exact hin)⟩
      rcases hstore with ⟨area', hstore⟩
      refine ⟨_, area', write_request h hrw hgather hstore hin,
        (length_of_storeRange hstore).trans harea, fun off len hspares ↦ ?_⟩
      apply loadRange_storeRange_disjoint hstore
      rw [hlen]
      exact hspares.resolve_left (fun hne ↦ hne hrw)
  · exact ⟨_, area, request_refused h (Nat.lt_of_not_le hin), harea, fun _ _ _ ↦ rfl⟩

end Request

end BlkTest

def samplePages : Pages UInt8 := fun p ↦ List.replicate 4096 (UInt8.ofNat p)

-- two sectors from pages 1 and 2, one behind them, and the second of the two into page 5
def sampleWrite : Bio := ⟨3, 1024, .write, false, [⟨1, 600, 100⟩, ⟨2, 424, 0⟩], samplePages⟩
def sampleBeside : Bio := ⟨5, 512, .write, false, [⟨4, 512, 0⟩], samplePages⟩
def sampleRead : Bio := ⟨4, 512, .read, false, [⟨5, 256, 512⟩, ⟨5, 256, 2048⟩], samplePages⟩

theorem sample_valid {bio : Bio} (hpages : bio.pages = samplePages)
    (hsize : totalLength bio.buffer = bio.biSize.toNat) (hwhole : bio.biSize.toNat % 512 = 0)
    (hwithin : ∀ s ∈ bio.buffer, s.off + s.len ≤ 4096)
    (hsector : bio.biSector.toNat + bio.biSize.toNat / 512 < 18446744073709551616) :
    bio.Valid where
  size_eq := hsize
  whole := hwhole
  within := by
    intro s hs
    have hlen : (samplePages s.page).length = 4096 := List.length_replicate
    rw [Segment.Within, hpages, hlen]
    exact hwithin s hs
  sector_lt := hsector

/-- What a request has written to the device is what a later request reads of it, though their
buffers may be in different pieces, when every request in between spares the range that is read.
There may be any number of them, and none is undefined. -/
theorem written_read_back {area : List UInt8} (harea : area.length = mydrvMaxLength) {w r : Bio}
    {others : List Bio} (hw : w.Valid) (hwrite : w.rw = .write) (hr : r.Valid)
    (hread : r.rw = .read ∨ r.rw = .reada) (hstart : w.first ≤ r.first)
    (hend : r.first + r.biSize.toNat ≤ w.first + w.biSize.toNat)
    (hin : w.first + w.biSize.toNat ≤ mydrvMaxLength)
    (hbuffer : r.buffer.Pairwise Segment.Disjoint)
    (hothers : ∀ bio ∈ others, bio.Valid ∧ bio.Spares r.first r.biSize.toNat) :
    ∃ answers pages' bytes area',
      serveAll BlkTest.mydrvMakeRequest area (w :: others ++ [r]) =
        .ok (answers ++ [(0, pages')], area') ∧
      gather w.pages w.buffer = .ok bytes ∧
      gather pages' r.buffer = .ok ((bytes.drop (r.first - w.first)).take r.biSize.toNat) := by
  rcases gather_of_within hw.within with ⟨bytes, hgather⟩
  have hlen : bytes.length = w.biSize.toNat := by
    rw [length_of_gather hgather, hw.size_eq]
  have hstore : ∃ area', storeRange area w.first bytes = .ok area' :=
    ⟨_, storeRange_of_le (by rw [hlen, harea]; exact hin)⟩
  rcases hstore with ⟨area₁, hstore⟩
  generalize hpart : (bytes.drop (r.first - w.first)).take r.biSize.toNat = part
  have hloaded : loadRange area₁ r.first r.biSize.toNat = .ok part := by
    have hfirst : r.first = w.first + (r.first - w.first) := by omega
    rw [hfirst, ← hpart]
    exact loadRange_part (loadRange_storeRange_self hstore) (by omega)
  -- the requests in between leave the range alone
  have hbetween : ∃ os a, serveAll BlkTest.mydrvMakeRequest area₁ others = .ok (os, a) ∧
      (a.length = mydrvMaxLength ∧ loadRange a r.first r.biSize.toNat = .ok part) := by
    apply serveAll_invariant
    · intro bio hbio a hinv
      rcases BlkTest.request_spares hinv.1 (hothers bio hbio).1 with ⟨o, a', hreq, hlen', hsame⟩
      exact ⟨o, a', hreq, hlen', (hsame _ _ (hothers bio hbio).2).trans hinv.2⟩
    · exact ⟨(length_of_storeRange hstore).trans harea, hloaded⟩
  rcases hbetween with ⟨os, area₂, hrun, -, hkept⟩
  have hsize : part.length = totalLength r.buffer := by
    rw [length_of_loadRange hkept, hr.size_eq]
  rcases scatter_of_within hr.within hsize with ⟨pages', hscatter⟩
  have hlast := BlkTest.read_request hr hread hkept hscatter (by omega)
  refine ⟨(0, w.pages) :: os, pages', bytes, area₂, ?_, hgather, ?_⟩
  · exact serveAll_append (serveAll_cons (BlkTest.write_request hw hwrite hgather hstore hin) hrun)
      (serveAll_cons hlast rfl)
  · rw [hpart]
    exact gather_scatter hscatter hsize hbuffer

/-- The second of two sectors is read back, after a write behind them. -/
theorem written_read_back_sample : ∃ answers pages' bytes area',
    serveAll BlkTest.mydrvMakeRequest (List.replicate 8388608 0)
        (sampleWrite :: [sampleBeside] ++ [sampleRead]) =
      .ok (answers ++ [(0, pages')], area') ∧
    gather sampleWrite.pages sampleWrite.buffer = .ok bytes ∧
    gather pages' sampleRead.buffer = .ok ((bytes.drop 512).take 512) :=
  written_read_back List.length_replicate
    (sample_valid rfl (by decide) (by decide) (by decide) (by decide)) rfl
    (sample_valid rfl (by decide) (by decide) (by decide) (by decide)) (Or.inl rfl) (by decide)
    (by decide) (by decide) (by decide) (fun bio hbio ↦ by
      rw [List.mem_singleton] at hbio
      subst hbio
      exact ⟨sample_valid rfl (by decide) (by decide) (by decide) (by decide),
        Or.inr (Or.inr (by decide))⟩)

/-! ## The two drivers -/

namespace Bio

/-- The request with the offset of every segment twice as large. -/
def doubled (bio : Bio) : Bio :=
  { bio with
    segments := bio.segments.map fun bvec ↦ { bvec with bvOffset := 2 * bvec.bvOffset } }

/-- A read or a write whose segments have whole sectors. -/
structure WholeSegments (bio : Bio) : Prop where
  segments_ne : bio.segments ≠ []
  rw_ne : bio.rw ≠ .other
  discard_eq : bio.discard = false
  whole : ∀ bvec ∈ bio.segments, bvec.bvLen.toNat % 512 = 0
  offset_lt : ∀ bvec ∈ bio.segments, bvec.bvOffset.toNat < 2147483648

end Bio

section Doubled

variable {rw : Rw} {t t' : Transfer} {data : Nat} {segment : Segment}

theorem length_read (h : t.read data segment = .ok t') :
    t'.mydrvData.length = t.mydrvData.length ∧ data + segment.len ≤ t.mydrvData.length := by
  rcases bind_eq_ok.mp h with ⟨bytes, hload, h⟩
  rcases bind_eq_ok.mp h with ⟨pages, -, h⟩
  rw [pure_eq_ok, Except.ok.injEq] at h
  exact ⟨by rw [← h], le_of_loadRange hload⟩

theorem length_write (h : t.write data segment = .ok t') :
    t'.mydrvData.length = t.mydrvData.length ∧ data + segment.len ≤ t.mydrvData.length := by
  rcases bind_eq_ok.mp h with ⟨bytes, hload, h⟩
  rcases bind_eq_ok.mp h with ⟨area, hstore, h⟩
  rw [pure_eq_ok, Except.ok.injEq] at h
  have hle := le_of_storeRange hstore
  rw [length_of_load hload] at hle
  rw [← h]
  exact ⟨length_of_storeRange hstore, hle⟩

theorem BlkTest.length_copySegments {segments : List BioVec} {copied : Bool}
    (h : BlkTest.copySegments rw t data segments = .ok (copied, t')) :
    t'.mydrvData.length = t.mydrvData.length := by
  induction segments generalizing t data with
  | nil =>
    rw [copySegments, Except.ok.injEq, Prod.mk.injEq] at h
    rw [h.2]
  | cons bvec rest ih =>
    cases rw with
    | read =>
      rcases bind_eq_ok.mp h with ⟨t₁, hread, h⟩
      rw [ih h, (length_read hread).1]
    | write =>
      rcases bind_eq_ok.mp h with ⟨t₁, hwrite, h⟩
      rw [ih h, (length_write hwrite).1]
    | reada =>
      injection h with h
      rw [(Prod.mk.inj h).2]
    | other =>
      injection h with h
      rw [(Prod.mk.inj h).2]

theorem BlkTest.length_mydrvMakeRequest {area area' : List UInt8} {bio : Bio}
    {answer : Int × Pages UInt8}
    (h : BlkTest.mydrvMakeRequest area bio = .ok (answer, area')) : area'.length = area.length := by
  unfold BlkTest.mydrvMakeRequest at h
  dsimp only at h
  split at h
  · rw [Except.ok.injEq, Prod.mk.injEq] at h
    rw [h.2]
  · rcases bind_eq_ok.mp h with ⟨⟨copied, t⟩, hcopy, h⟩
    dsimp only at h
    rw [pure_eq_ok, Except.ok.injEq, Prod.mk.injEq] at h
    rw [← h.2]
    exact length_copySegments hcopy

-- The next segment starts where the last one ended.
theorem toNat_next {sector : UInt64} {len : UInt32} (hwhole : len.toNat % 512 = 0)
    (hin : (sector * mydrvBlkSize).toNat + len.toNat ≤ mydrvMaxLength) :
    ((sector + (len >>> 9).toUInt64) * mydrvBlkSize).toNat =
      (sector * mydrvBlkSize).toNat + len.toNat := by
  rw [mydrvMaxLength] at hin
  rw [UInt64.toNat_mul, show mydrvBlkSize.toNat = 512 from rfl] at hin ⊢
  rw [UInt64.toNat_add, BlkTest.toNat_sectors, UInt64.toNat_mul,
    show mydrvBlkSize.toNat = 512 from rfl]
  omega

theorem buffer_doubled {bvec : BioVec} (h : bvec.bvOffset.toNat < 2147483648) :
    BlkTestError.buffer bvec = BlkTest.buffer { bvec with bvOffset := 2 * bvec.bvOffset } := by
  have htwice : (2 * bvec.bvOffset).toNat = bvec.bvOffset.toNat + bvec.bvOffset.toNat := by
    rw [UInt32.toNat_mul, show (2 : UInt32).toNat = 2 from rfl, Nat.mod_eq_of_lt (by omega),
      Nat.two_mul]
  rw [BlkTestError.buffer, BlkTest.buffer, htwice]

-- The first segment sets `err`, whatever it was.
theorem copySegments_err {sector : UInt64} {err : Int} {bvec : BioVec} {rest : List BioVec} :
    BlkTestError.copySegments rw t sector err (bvec :: rest) =
      BlkTestError.copySegments rw t sector 0 (bvec :: rest) := by
  rw [BlkTestError.copySegments, BlkTestError.copySegments]

-- Both loops copy the same pieces, and the pointer of one is the sector of the other.
theorem copySegments_doubled {segments : List BioVec} {sector : UInt64}
    (hrw : rw = .read ∨ rw = .write) (harea : t.mydrvData.length = mydrvMaxLength)
    (hwhole : ∀ bvec ∈ segments, bvec.bvLen.toNat % 512 = 0)
    (hoffset : ∀ bvec ∈ segments, bvec.bvOffset.toNat < 2147483648) :
    BlkTestError.copySegments rw t sector 0 segments =
      BlkTest.copySegments rw t (sector * mydrvBlkSize).toNat
          (segments.map fun bvec ↦ { bvec with bvOffset := 2 * bvec.bvOffset }) >>=
        fun r ↦ .ok (if r.1 then 0 else -eio, r.2) := by
  induction segments generalizing t sector with
  | nil => rfl
  | cons bvec rest ih =>
    have hrest := fun (t : Transfer) (harea : t.mydrvData.length = mydrvMaxLength)
      (hin : (sector * mydrvBlkSize).toNat + bvec.bvLen.toNat ≤ mydrvMaxLength) ↦ by
        have hnext := @ih t (sector + (bvec.bvLen >>> 9).toUInt64) harea
          (fun b hb ↦ hwhole b (List.mem_cons_of_mem bvec hb))
          (fun b hb ↦ hoffset b (List.mem_cons_of_mem bvec hb))
        rw [toNat_next (hwhole bvec List.mem_cons_self) hin] at hnext
        exact hnext
    have hbuffer := buffer_doubled (hoffset bvec List.mem_cons_self)
    rcases hrw with rfl | rfl
    · rw [BlkTestError.copySegments, List.map_cons, BlkTest.copySegments, if_pos rfl, hbuffer,
        bind_bind]
      apply bind_congr_ok
      intro t' ht'
      have hlen := length_read ht'
      exact hrest t' (hlen.1.trans harea) (harea ▸ hlen.2)
    · rw [BlkTestError.copySegments, List.map_cons, BlkTest.copySegments, if_neg (by decide),
        hbuffer, bind_bind]
      apply bind_congr_ok
      intro t' ht'
      have hlen := length_write ht'
      exact hrest t' (hlen.1.trans harea) (harea ▸ hlen.2)

theorem mydrvMakeRequest_doubled {bioEndSector : Bio → UInt64}
    (hsectors : ∀ bio, bioEndSector bio = bio.biSector + (bio.biSize >>> 9).toUInt64)
    {area : List UInt8} {bio : Bio} (harea : area.length = mydrvMaxLength)
    (h : bio.WholeSegments) :
    BlkTestError.mydrvMakeRequest bioEndSector area bio =
      BlkTest.mydrvMakeRequest area bio.doubled := by
  have hrw : (if bio.rw = .reada then .read else bio.rw) = Rw.read ∨
      (if bio.rw = .reada then .read else bio.rw) = Rw.write := by
    have hother := h.rw_ne
    cases hbio : bio.rw with
    | read => exact Or.inl rfl
    | write => exact Or.inr rfl
    | reada => exact Or.inl rfl
    | other => exact absurd hbio hother
  unfold BlkTestError.mydrvMakeRequest BlkTest.mydrvMakeRequest
  rw [hsectors]
  dsimp only [Bio.doubled]
  split
  · rfl
  · rw [h.discard_eq, if_neg Bool.false_ne_true]
    have hcopy := @copySegments_doubled _ ⟨area, bio.pages⟩ _ bio.biSector hrw harea h.whole
      h.offset_lt
    cases hsegments : bio.segments with
    | nil => exact absurd hsegments h.segments_ne
    | cons bvec rest =>
      rw [hsegments] at hcopy
      rw [copySegments_err, hcopy, bind_bind]
      rfl

end Doubled

theorem doubled_eq {bio : Bio} (h : ∀ bvec ∈ bio.segments, bvec.bvOffset = 0) :
    bio.doubled = bio := by
  have hsame : ∀ bvec ∈ bio.segments, { bvec with bvOffset := 2 * bvec.bvOffset } = id bvec := by
    intro bvec hbvec
    cases bvec with
    | mk page len offset =>
      rw [show offset = 0 from h _ hbvec]
      rfl
  rw [Bio.doubled, List.map_congr_left hsame, List.map_id]

/-- The driver of blk_test_error.c serves any sequence of requests, to the last byte and with the
undefined ones, as that of blk_test.c serves them with the offsets of their segments doubled; the
two agree on the requests whose segments start their pages.  `bio_end_sector` is the sector behind
the last one of a request. -/
theorem errorDriver_doubles {bioEndSector : Bio → UInt64}
    (hsectors : ∀ bio, bioEndSector bio = bio.biSector + (bio.biSize >>> 9).toUInt64)
    {area : List UInt8} (harea : area.length = mydrvMaxLength) {bios : List Bio}
    (h : ∀ bio ∈ bios, bio.WholeSegments) :
    serveAll (BlkTestError.mydrvMakeRequest bioEndSector) area bios =
        serveAll BlkTest.mydrvMakeRequest area (bios.map Bio.doubled) ∧
      ((∀ bio ∈ bios, ∀ bvec ∈ bio.segments, bvec.bvOffset = 0) →
        serveAll (BlkTestError.mydrvMakeRequest bioEndSector) area bios =
          serveAll BlkTest.mydrvMakeRequest area bios) := by
  have hdoubled : serveAll (BlkTestError.mydrvMakeRequest bioEndSector) area bios =
      serveAll BlkTest.mydrvMakeRequest area (bios.map Bio.doubled) := by
    apply serveAll_map Bio.doubled (fun a ↦ a.length = mydrvMaxLength) _ _ harea
    · intro bio hbio a ha
      exact mydrvMakeRequest_doubled hsectors ha (h bio hbio)
    · intro bio a answer a' ha hserve
      exact (BlkTest.length_mydrvMakeRequest hserve).trans ha
  refine ⟨hdoubled, fun hzero ↦ ?_⟩
  have hsame : ∀ bio ∈ bios, bio.doubled = id bio := fun bio hbio ↦ doubled_eq (hzero bio hbio)
  rw [hdoubled, List.map_congr_left hsame, List.map_id]

def sampleInside : Bio := ⟨3, 1024, .write, false, [⟨1, 512, 100⟩, ⟨2, 512, 0⟩], samplePages⟩

theorem sampleInside_whole : sampleInside.WholeSegments :=
  ⟨by decide, by decide, rfl, by decide, by decide⟩

theorem sampleBeside_whole : sampleBeside.WholeSegments :=
  ⟨by decide, by decide, rfl, by decide, by decide⟩

/-- Two writes, of which the first has a segment inside its page, and one that starts its page. -/
theorem errorDriver_doubles_sample :
    serveAll (BlkTestError.mydrvMakeRequest fun bio ↦ bio.biSector + (bio.biSize >>> 9).toUInt64)
        (List.replicate 8388608 0) [sampleInside, sampleBeside] =
      serveAll BlkTest.mydrvMakeRequest (List.replicate 8388608 0)
        [sampleInside.doubled, sampleBeside.doubled] ∧
    serveAll (BlkTestError.mydrvMakeRequest fun bio ↦ bio.biSector + (bio.biSize >>> 9).toUInt64)
        (List.replicate 8388608 0) [sampleBeside] =
      serveAll BlkTest.mydrvMakeRequest (List.replicate 8388608 0) [sampleBeside] := by
  constructor
  · apply (errorDriver_doubles (fun _ ↦ rfl) List.length_replicate _).1
    intro bio hbio
    rcases List.mem_cons.mp hbio with rfl | hbio
    · exact sampleInside_whole
    · exact List.mem_singleton.mp hbio ▸ sampleBeside_whole
  · apply (errorDriver_doubles (fun _ ↦ rfl) List.length_replicate _).2
    · intro bio hbio
      rw [List.mem_singleton.mp hbio]
      decide
    · intro bio hbio
      exact List.mem_singleton.mp hbio ▸ sampleBeside_whole

/-! ## The driver behind the disk interface -/

/-- A request for one sector, whose buffer is a page. -/
def sectorBio (rw : Rw) (sector : UInt32) (buffer : Sector) : Bio :=
  ⟨sector.toUInt64, 512, rw, false, [⟨0, 512, 0⟩], fun _ ↦ buffer.toList⟩

def DiskRequest.bio : DiskRequest → Bio
  | .read sector buffer => sectorBio .read sector buffer
  | .write sector data => sectorBio .write sector data

/-- The answer of the driver, with its failure as that of the interface. -/
def BlkTest.serve (mydrvData : List UInt8) (request : DiskRequest) :
    Exec ((Int × List UInt8) × List UInt8) := do
  let ((err, pages), mydrvData) ← mydrvMakeRequest mydrvData request.bio
  return ((if err = 0 then 0 else -1, pages 0), mydrvData)

section Sectors

variable {area : List UInt8} {sector : UInt32}

theorem sectorBio_valid (rw : Rw) (sector : UInt32) (buffer : Sector) :
    (sectorBio rw sector buffer).Valid := by
  have hsize : (sectorBio rw sector buffer).biSize.toNat = 512 := rfl
  constructor
  case size_eq => rfl
  case whole => rw [hsize]
  case within =>
    intro s hs
    rw [List.mem_singleton.mp hs]
    exact Nat.le_of_eq Vector.length_toList.symm
  case sector_lt =>
    have hlt := sector.toNat_lt
    have hsector : (sectorBio rw sector buffer).biSector.toNat = sector.toNat := rfl
    rw [hsize, hsector]
    omega

theorem scatter_page {page data : List UInt8} (hpage : page.length = 512)
    (hdata : data.length = 512) :
    scatter (fun _ ↦ page) [⟨0, 0, 512⟩] data = .ok (Function.update (fun _ ↦ page) 0 data) := by
  rw [scatter, ← hdata, List.take_length, Segment.store, storeRange_all (hdata.trans hpage.symm)]
  rfl

theorem gather_page {page : List UInt8} (hpage : page.length = 512) :
    gather (fun _ ↦ page) [⟨0, 0, 512⟩] = .ok page := by
  rw [gather, Segment.load, loadRange_all hpage, ok_bind, gather, ok_bind, List.append_nil]
  rfl

theorem BlkTest.serve_areaDisk (harea : area.length = mydrvMaxLength) (request : DiskRequest) :
    ∃ answer area', BlkTest.serve area request = .ok (answer, area') ∧
      (areaDisk 16384 area).serve request = .ok (answer, areaDisk 16384 area') ∧
      area'.length = mydrvMaxLength := by
  cases request with
  | read sector buffer =>
    have hvalid := sectorBio_valid .read sector buffer
    by_cases hsector : sector.toNat < 16384
    · have hin : sector.toNat * 512 + 512 ≤ mydrvMaxLength := by
        rw [mydrvMaxLength]
        omega
      have hbytes := toList_sectorAt (harea ▸ hin)
      have hload : loadRange area (sector.toNat * 512) 512 =
          .ok (sectorAt area sector.toNat).toList := by
        rw [hbytes]
        exact loadRange_of_le (harea ▸ hin)
      have hscatter := @scatter_page buffer.toList (sectorAt area sector.toNat).toList
        Vector.length_toList Vector.length_toList
      refine ⟨(0, (sectorAt area sector.toNat).toList), area, ?_, ?_, harea⟩
      · rw [BlkTest.serve, DiskRequest.bio, read_request hvalid (Or.inl rfl) hload hscatter hin,
          ok_bind]
        rfl
      · rw [DiskOperations.serve, DiskOperations.readSector_of_lt _ (by exact hsector)]
        rfl
    · refine ⟨(-1, buffer.toList), area, ?_, ?_, harea⟩
      · rw [BlkTest.serve, DiskRequest.bio, request_refused hvalid (by
          change 8388608 < sector.toNat * 512 + 512
          omega), ok_bind]
        rfl
      · rw [DiskOperations.serve,
          DiskOperations.readSector_of_ge _ (by exact Nat.le_of_not_lt hsector)]
        rfl
  | write sector data =>
    have hvalid := sectorBio_valid .write sector data
    by_cases hsector : sector.toNat < 16384
    · have hin : sector.toNat * 512 + 512 ≤ mydrvMaxLength := by
        rw [mydrvMaxLength]
        omega
      have hstore : ∃ area', storeRange area (sector.toNat * 512) data.toList = .ok area' :=
        ⟨_, storeRange_of_le (by rw [Vector.length_toList, harea]; exact hin)⟩
      rcases hstore with ⟨area', hstore⟩
      refine ⟨(0, data.toList), area', ?_, ?_, (length_of_storeRange hstore).trans harea⟩
      · rw [BlkTest.serve, DiskRequest.bio,
          write_request hvalid rfl (gather_page Vector.length_toList) hstore hin, ok_bind]
        rfl
      · rw [DiskOperations.serve, areaDisk_storeRange hstore (by exact hsector),
          if_pos (by exact UInt32.lt_iff_toNat_lt.mpr hsector)]
    · refine ⟨(-1, data.toList), area, ?_, ?_, harea⟩
      · rw [BlkTest.serve, DiskRequest.bio, request_refused hvalid (by
          change 8388608 < sector.toNat * 512 + 512
          omega), ok_bind]
        rfl
      · rw [DiskOperations.serve, areaDisk_writeSector_of_ge (by exact Nat.le_of_not_lt hsector),
          if_neg (by exact fun hlt ↦ hsector (UInt32.lt_iff_toNat_lt.mp hlt))]

end Sectors

/-- The driver of blk_test.c answers any sequence of transfers of single sectors as the disk of the
file system does when it has 16384 sectors, which hold what the area of the driver holds. -/
theorem driver_serves_sectors {area : List UInt8} (harea : area.length = mydrvMaxLength)
    (requests : List DiskRequest) :
    ∃ answers area', serveAll BlkTest.serve area requests = .ok (answers, area') ∧
      serveAll DiskOperations.serve (areaDisk 16384 area) requests =
        .ok (answers, areaDisk 16384 area') := by
  have hsim : ∃ answers area' disk', serveAll BlkTest.serve area requests = .ok (answers, area') ∧
      serveAll DiskOperations.serve (areaDisk 16384 area) requests = .ok (answers, disk') ∧
      (area'.length = mydrvMaxLength ∧ disk' = areaDisk 16384 area') := by
    apply serveAll_simulates (fun a disk ↦ a.length = mydrvMaxLength ∧ disk = areaDisk 16384 a)
    · rintro a disk request ⟨ha, rfl⟩
      rcases BlkTest.serve_areaDisk ha request with ⟨answer, a', hserve, hspec, ha'⟩
      exact ⟨answer, a', areaDisk 16384 a', hserve, hspec, ha', rfl⟩
    · exact ⟨harea, rfl⟩
  rcases hsim with ⟨answers, area', disk', hrun, hspec, -, rfl⟩
  exact ⟨answers, area', hrun, hspec⟩

def sampleTransfers : List DiskRequest :=
  [.write 16383 (Vector.replicate 512 7), .read 16383 zeroSector, .write 16384 zeroSector]

/-- The last sector written and read back, and the one behind it refused. -/
theorem driver_serves_sectors_zeroed :
    ∃ answers area',
      serveAll BlkTest.serve (List.replicate 8388608 0) sampleTransfers = .ok (answers, area') ∧
      serveAll DiskOperations.serve (areaDisk 16384 (List.replicate 8388608 0)) sampleTransfers =
        .ok (answers, areaDisk 16384 area') :=
  driver_serves_sectors List.length_replicate sampleTransfers

end Ext2Fs
