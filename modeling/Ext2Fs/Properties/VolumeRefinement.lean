import Ext2Fs.Properties.LineOutcomes
import Ext2Fs.Properties.Reformat
import Ext2Fs.Spec.Volume

/-!
# The program and the volume

Behind a format everything that the program does with the superblock, the descriptors, the bitmaps
and the inodes is invisible to whoever types the lines: the program is the machine of the volume.
-/

open Reasoning

namespace Ext2Fs

namespace Program

section Fields

variable {p : Program} {name : List UInt8}

end Fields

/-! ## Names -/

section Names

variable {base : DiskOperations} {s : Session} {p : Program} {op : DirOp} {name : List UInt8}

end Names

/-! ## Commands that leave the volume -/

section Idle

variable {p p' : Program} {stack : StackInode} {args : List (List UInt8)} {r : Int}
  {handler : Handler}

end Idle

section Command

variable {base : DiskOperations} {s : Session} {p p' : Program} {stack : StackInode}
  {args : List (List UInt8)} {r : Int}

end Command

/-! ## One line -/

section Line

variable {base : DiskOperations} {s : Session} {p p' : Program} {typed : TypedLine}
  {str : List UInt8}

end Line

/-! ## Lines -/

section Lines

variable {disk disk' : DiskOperations} {q : Program} {result : Int} (hq : Runs disk q)
  (hfree : q.shell.isMounted = false) (hpos : 1 ≤ q.disk.groups) (hfew : q.disk.groups ≤ 16)
  (hformat : ext2Format q.disk = .ok (result, disk')) {lines : List (TypedLine × List UInt8)}

include hq hfree hpos hfew hformat

end Lines

end Program

end Ext2Fs
