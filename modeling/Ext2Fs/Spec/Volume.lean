import Ext2Fs.Spec.CommandWords

/-!
# What the shell is for

To whoever types the lines, a formatted disk is a row of name fields in the root directory.  A field
whose first byte is zero is blank; the names in front of the first blank field are those that a
lookup finds, and a new name is written over the start of that field.
-/

open Reasoning

namespace Ext2Fs

/-- The root directory of a disk, and the state of the shell. -/
structure Volume where
  fields : List (Bytes 24)
  mounted : Bool
  running : Bool

namespace Volume

/-! ## Names -/

/-- A name field that nothing was written to but the name. -/
def nameField (name : List UInt8) : Bytes 24 := copyName (Vector.replicate 24 0) name

/-- The fields in front of the first blank one. -/
def shown (v : Volume) : List (Bytes 24) :=
  v.fields.takeWhile fun field ↦ ¬ getElem field 0 nameByte_lt = dirEntryNoMore

/-- A lookup finds the name. -/
def Has (v : Volume) (name : List UInt8) : Prop := ∃ field ∈ v.shown, cString field = some name

instance (v : Volume) (name : List UInt8) : Decidable (v.Has name) :=
  inferInstanceAs (Decidable (∃ field ∈ v.shown, cString field = some name))

/-- There is a blank field. -/
def HasRoom (v : Volume) : Prop := v.shown.length < v.fields.length

instance (v : Volume) : Decidable v.HasRoom :=
  inferInstanceAs (Decidable (v.shown.length < v.fields.length))

/-- What was behind the zero byte of the blank field stays behind the name. -/
def enter (v : Volume) (name : List UInt8) : Volume :=
  { v with fields := v.fields.modify v.shown.length fun field ↦ copyName field name }

/-- The name that a call enters, if it enters any. -/
def newName (v : Volume) (op : DirOp) (entryName : List UInt8) : Option (Option (List UInt8)) :=
  match formattedName op entryName with
  | .error _ => none
  | .ok none => some none
  | .ok (some name) =>
    if 24 ≤ name.length then none
    else if v.Has name then some none
    else if v.HasRoom then some (some name)
    else none

def make (v : Volume) (op : DirOp) (entryName : List UInt8) : Option Volume :=
  (v.newName op entryName).map fun name ↦ name.elim v v.enter

/-- The first sixteen fields are written, the others stay. -/
def format (v : Volume) : Volume :=
  { v with
    fields := [nameField slashName, nameField dotName, nameField dotdotName] ++
      List.replicate 13 (nameField []) ++ v.fields.drop 16 }

/-! ## Lines -/

/-- A command that looks at its arguments only when there is one. -/
def one (v : Volume) (args : List (List UInt8)) (f : List UInt8 → Option Volume) :
    Option Volume :=
  match args with
  | [arg] => f arg
  | _ => some v

def two (v : Volume) (args : List (List UInt8)) (f : List UInt8 → List UInt8 → Option Volume) :
    Option Volume :=
  match args with
  | [arg, arg'] => f arg arg'
  | _ => some v

/-- One command; `none` when no state is behind it. -/
def command (v : Volume) (args : List (List UInt8)) : Handler → Option Volume
  | .exit => some { v with running := false }
  | .mount => some { v with mounted := true }
  | .umount => some { v with mounted := false }
  | .format => some v.format
  | .touch => args.head?.elim (some v) (v.make .create)
  | .mkdir => v.one args (v.make .mkdir)
  | .fill => v.two args fun name format ↦
      if 0x25 ∉ format ∧ v.newName .create name = some none then some v else none
  | .cd => v.one args fun name ↦ if v.Has name then some v else none
  | .cat => v.one args fun name ↦ if ¬ v.Has name ∧ v.HasRoom then some v else none
  | .mkdirst => v.one args fun _ ↦ none
  | .dumpfile => v.one args fun _ ↦ none
  | _ => some v

/-- One line. -/
def line (v : Volume) (str : List UInt8) : Option Volume :=
  match calledBy str with
  | some (handler, args) =>
    if v.running = true ∧ checkConditions v.mounted handler.conditions = 0 then
      v.command args handler
    else some v
  | none => some v

/-! ## What a command leaves -/

section Commands

variable {v v' : Volume} {args : List (List UInt8)} {f : List UInt8 → Option Volume}
  {g : List UInt8 → List UInt8 → Option Volume}

end Commands

end Volume

end Ext2Fs
