import Ext2Fs.Reasoning.Memory

/-!
# The disk simulator (disksim.c)
-/

open Reasoning

namespace Ext2Fs

/-- `DISK_MEMORY`; `none` is a null pointer. -/
structure DiskMemory where
  address : Option (List UInt8)

/-- `DISK_OPERATIONS` as `disksim_init` fills it, with the `DISK_MEMORY` behind `pdata`. -/
structure DiskSim where
  numberOfSectors : UInt32
  bytesPerSector : Int32
  pdata : Option DiskMemory

/-- `sizeof(DISK_MEMORY)`. -/
@[simp] def diskMemorySize : Nat := 8

/-- `disksim_init`: the return code and the object behind `disk`.  `malloc` gives the bytes of a new
area of the size asked for, or `none`. -/
def disksimInit (malloc : Nat → Option (List UInt8)) (numberOfSectors bytesPerSector : UInt32)
    (disk : Option DiskSim) : Int × Option DiskSim :=
  match disk with
  | none => (-1, none)
  | some disk =>
    match malloc diskMemorySize with
    | none => (-1, some { disk with pdata := none })
    | some _ =>
      -- the test behind this call is on `pdata` once more, not on the address it returns
      let address := malloc (bytesPerSector * numberOfSectors).toNat
      (0, some {
        numberOfSectors := numberOfSectors
        bytesPerSector := bytesPerSector.toInt32
        pdata := some ⟨address⟩ })

/-- `sector * this->bytesPerSector`, a product of 32-bit unsigned integers. -/
def DiskSim.offset (this : DiskSim) (sector : UInt32) : Nat :=
  (sector * this.bytesPerSector.toUInt32).toNat

/-- `this->bytesPerSector` where `memcpy` expects a `size_t`. -/
def DiskSim.copySize (this : DiskSim) : Nat := this.bytesPerSector.toInt64.toUInt64.toNat

/-- `disksim_read`: the return code and the buffer afterwards. -/
def disksimRead (this : DiskSim) (sector : UInt32) (data : List UInt8) : Exec (Int × List UInt8) :=
  match this.pdata with
  | none => .error .badPointer
  | some memory =>
    if sector ≥ this.numberOfSectors then .ok (-1, data)
    else
      match memory.address with
      | none => .error .badPointer
      | some disk => do
        let bytes ← loadRange disk (this.offset sector) this.copySize
        let data ← storeRange data 0 bytes
        return (0, data)

/-- `disksim_write`: the return code and the disk afterwards. -/
def disksimWrite (this : DiskSim) (sector : UInt32) (data : List UInt8) : Exec (Int × DiskSim) :=
  match this.pdata with
  | none => .error .badPointer
  | some memory =>
    if sector ≥ this.numberOfSectors then .ok (-1, this)
    else
      match memory.address with
      | none => .error .badPointer
      | some disk => do
        let bytes ← loadRange data 0 this.copySize
        let disk ← storeRange disk (this.offset sector) bytes
        return (0, { this with pdata := some ⟨some disk⟩ })

end Ext2Fs
