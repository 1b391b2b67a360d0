import Ext2Fs.Reasoning.Segments

/-!
# The block device drivers (blk_test.c, blk_test_error.c: mydrv_make_request)

Both modules keep a device of 16384 sectors in an area of memory.  A request comes with the pages
that its segments lie in; `sector_t` and `unsigned long` have 64 bits.
-/

open Reasoning

namespace Ext2Fs

/-- `MYDRV_MAX_LENGTH`, the size of the area behind `mydrv_data`. -/
def mydrvMaxLength : Nat := 8388608

/-- `MYDRV_BLK_SIZE`. -/
def mydrvBlkSize : UInt64 := 512

/-- `MYDRV_TOTAL_BLK`, which is set as the capacity of the disk. -/
def mydrvTotalBlk : UInt64 := 16384

/-- `EIO`. -/
def eio : Int := 5

/-- The values that `rw` is compared with. -/
inductive Rw where
  | read
  | write
  | reada
  | other
  deriving DecidableEq

/-- `struct bio_vec`. -/
structure BioVec where
  bvPage : Nat
  bvLen : UInt32
  bvOffset : UInt32

/-- `struct bio`.  `rw` is what `bio_data_dir` or `bio_rw` makes of its flags, and `discard` is the
flag `REQ_DISCARD`. -/
structure Bio where
  biSector : UInt64
  biSize : UInt32
  rw : Rw
  discard : Bool
  segments : List BioVec
  pages : Pages UInt8

/-- What a request works on. -/
structure Transfer where
  mydrvData : List UInt8
  pages : Pages UInt8

/-- `memcpy(buffer, data, len)`, with `data` as an offset into `mydrv_data`. -/
def Transfer.read (t : Transfer) (data : Nat) (buffer : Segment) : Exec Transfer := do
  let bytes ← loadRange t.mydrvData data buffer.len
  let pages ← buffer.store t.pages bytes
  return { t with pages := pages }

/-- `memcpy(data, buffer, len)`. -/
def Transfer.write (t : Transfer) (data : Nat) (buffer : Segment) : Exec Transfer := do
  let bytes ← buffer.load t.pages
  let mydrvData ← storeRange t.mydrvData data bytes
  return { t with mydrvData := mydrvData }

/-! ## blk_test.c -/

namespace BlkTest

def buffer (bvec : BioVec) : Segment := ⟨bvec.bvPage, bvec.bvOffset.toNat, bvec.bvLen.toNat⟩

/-- `bio_for_each_segment`; `false` when the loop is left for `fail`. -/
def copySegments (rw : Rw) : Transfer → Nat → List BioVec → Exec (Bool × Transfer)
  | t, _, [] => .ok (true, t)
  | t, data, bvec :: rest =>
    match rw with
    | .read => do
      let t ← t.read data (buffer bvec)
      copySegments rw t (data + bvec.bvLen.toNat) rest
    | .write => do
      let t ← t.write data (buffer bvec)
      copySegments rw t (data + bvec.bvLen.toNat) rest
    | _ => .ok (false, t)

/-- `mydrv_make_request`: what `bio_endio` is called with, the pages and the device afterwards. -/
def mydrvMakeRequest (mydrvData : List UInt8) (bio : Bio) :
    Exec ((Int × Pages UInt8) × List UInt8) :=
  let sector := bio.biSector
  let len := (bio.biSize >>> 9).toUInt64
  if sector + len > mydrvTotalBlk then .ok ((-eio, bio.pages), mydrvData)
  else do
    let rw := if bio.rw = .reada then Rw.read else bio.rw
    let data := (sector * mydrvBlkSize).toNat
    let (copied, t) ← copySegments rw ⟨mydrvData, bio.pages⟩ data bio.segments
    return ((if copied then 0 else -eio, t.pages), t.mydrvData)

end BlkTest

/-! ## blk_test_error.c -/

namespace BlkTestError

/-- The offset is added to the address that `kmap_atomic` returns, and once more to `mem`. -/
def buffer (bvec : BioVec) : Segment :=
  ⟨bvec.bvPage, bvec.bvOffset.toNat + bvec.bvOffset.toNat, bvec.bvLen.toNat⟩

/-- `bio_for_each_segment`, from the current `err` on. -/
def copySegments (rw : Rw) : Transfer → UInt64 → Int → List BioVec → Exec (Int × Transfer)
  | t, _, err, [] => .ok (err, t)
  | t, sector, _, bvec :: rest => do
    let data := (sector * mydrvBlkSize).toNat
    let t ← if rw = .read then t.read data (buffer bvec) else t.write data (buffer bvec)
    copySegments rw t (sector + (bvec.bvLen >>> 9).toUInt64) 0 rest

/-- `mydrv_make_request`; `bio_end_sector` is a macro of the kernel. -/
def mydrvMakeRequest (bioEndSector : Bio → UInt64) (mydrvData : List UInt8) (bio : Bio) :
    Exec ((Int × Pages UInt8) × List UInt8) :=
  if bioEndSector bio > mydrvTotalBlk then .ok ((-eio, bio.pages), mydrvData)
  else if bio.discard then .ok ((0, bio.pages), mydrvData)
  else do
    let rw := if bio.rw = .reada then Rw.read else bio.rw
    let (err, t) ← copySegments rw ⟨mydrvData, bio.pages⟩ bio.biSector (-eio) bio.segments
    return ((err, t.pages), t.mydrvData)

end BlkTestError

end Ext2Fs
