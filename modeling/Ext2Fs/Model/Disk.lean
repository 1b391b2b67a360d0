import Ext2Fs.Reasoning.Store
import Ext2Fs.Model.Types

/-!
# The disk interface (disk.h, disksim.c)
-/

open Reasoning

namespace Ext2Fs

/-- `DISK_OPERATIONS`.  Every transfer buffer of the file system has `MAX_SECTOR_SIZE` bytes, and
the shell opens its disk with sectors of that size. -/
structure DiskOperations where
  numberOfSectors : UInt32
  bytesPerSector : UInt32
  sectors : Store Sector
  bytesPerSector_eq : bytesPerSector = maxSectorSize
  size_eq : sectors.size = numberOfSectors.toNat

namespace DiskOperations

/-- A disk with the given contents. -/
def ofContents (numberOfSectors : UInt32) (contents : Nat → Sector) : DiskOperations where
  numberOfSectors := numberOfSectors
  bytesPerSector := maxSectorSize
  sectors := ⟨numberOfSectors.toNat, contents⟩
  bytesPerSector_eq := rfl
  size_eq := rfl

/-- `disk->read_sector(disk, sector, data)`: the return code and the buffer afterwards.  A sector
past the end is refused, and the buffer keeps what it had (`none` when it was never filled). -/
def readSector (disk : DiskOperations) (sector : UInt32) (data : Option Sector) :
    Int × Option Sector :=
  match disk.sectors.read? sector.toNat with
  | some s => (0, some s)
  | none => (-1, data)

/-- `disk->write_sector(disk, sector, data)`; no caller looks at the return code. -/
def writeSector (disk : DiskOperations) (sector : UInt32) (data : Sector) : DiskOperations :=
  { disk with
    sectors := disk.sectors.write sector.toNat data
    size_eq := by rw [Store.size_write, disk.size_eq] }

/-- The quotient that six functions recompute, `numberOfSectors * bytesPerSector /
GROUP_SIZE_IN_BYTES` in 32-bit arithmetic. -/
def groupCount (disk : DiskOperations) : UInt32 :=
  disk.numberOfSectors * disk.bytesPerSector / groupSizeInBytes

end DiskOperations

/-- A disk as `ext2_format` is given it.  Its `write_sector` writes the sector, and may keep a record
of its own. -/
class Disk (δ : Type) where
  operations : δ → DiskOperations
  writeSector : δ → UInt32 → Sector → δ
  operations_writeSector : ∀ disk sector data,
    operations (writeSector disk sector data) = (operations disk).writeSector sector data

instance : Disk DiskOperations where
  operations disk := disk
  writeSector := DiskOperations.writeSector
  operations_writeSector _ _ _ := rfl

@[simp] theorem Disk.operations_eq (disk : DiskOperations) : Disk.operations disk = disk := rfl

@[simp] theorem Disk.writeSector_eq (disk : DiskOperations) (sector : UInt32) (data : Sector) :
    Disk.writeSector disk sector data = disk.writeSector sector data := rfl

/-- `EXT2_FILESYSTEM`. -/
structure Ext2Filesystem where
  spb : Ext2SuperBlock
  disk : DiskOperations

end Ext2Fs
