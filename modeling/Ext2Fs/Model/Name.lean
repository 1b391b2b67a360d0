import Ext2Fs.Reasoning.Bytes
import Ext2Fs.Model.Types

/-!
# Names (ext2.c: upper_string, format_name)

A C string is the list of its characters before the terminator, so it holds no zero byte.
-/

open Reasoning

namespace Ext2Fs

/-! ## C strings and character classes -/

/-- `strlen` and the characters it counts; `none` when the buffer holds no terminator. -/
def cString {n : Nat} (b : Bytes n) : Option (List UInt8) :=
  if 0 ∈ b.toList then some (b.toList.takeWhile (· ≠ 0)) else none

/-- A name buffer of `MAX_NAME_LENGTH` bytes. -/
abbrev NameBuffer := Bytes 256

/-- A string at the start of a buffer that is zero behind it. -/
def NameBuffer.ofString (s : List UInt8) : NameBuffer :=
  Vector.ofFn fun i ↦ s.getD i.val 0

/-- `memcpy(name, src, 11)`. -/
def NameBuffer.overwrite (name : NameBuffer) (src : Bytes 11) : NameBuffer :=
  Vector.ofFn fun i ↦ if h : i.val < 11 then src[i.val] else name[i.val]

def isDigit (c : UInt8) : Bool := 0x30 ≤ c && c ≤ 0x39
def isUpper (c : UInt8) : Bool := 0x41 ≤ c && c ≤ 0x5a
def isLower (c : UInt8) : Bool := 0x61 ≤ c && c ≤ 0x7a
def isAlpha (c : UInt8) : Bool := isUpper c || isLower c

/-- `toupper` in the C locale. -/
def toUpper (c : UInt8) : UInt8 := if isLower c then c - 0x20 else c

/-- The characters `upper_string` visits: it stops at the terminator or after `length` of them. -/
def upperString (s : List UInt8) (length : Nat) : List UInt8 :=
  (s.take length).map toUpper ++ s.drop length

/-! ## format_name -/

/-- The local variables of the loop of `format_name`. -/
structure NameScan where
  extender : Bool
  nameLength : Nat
  extenderCurrent : Nat
  regularName : Bytes 11

def NameScan.start : NameScan := ⟨false, 0, 8, Vector.replicate 11 0x20⟩

/-- `regularName[k] = c`. -/
def storeRegular (regularName : Bytes 11) (k : Nat) (c : UInt8) : Exec (Bytes 11) :=
  if h : k < 11 then .ok (regularName.set k c) else .error .outOfBounds

/-- The loop of `format_name` over the rest of the name; `none` is a return of `EXT2_ERROR`. -/
def scanName : NameScan → List UInt8 → Exec (Option NameScan)
  | st, [] => .ok (some st)
  | st, c :: cs =>
    if c ≠ 0x2e ∧ ¬ isDigit c ∧ ¬ isAlpha c then .ok none
    else if c = 0x2e then
      if st.extender then .ok none      -- dot character is allowed only once
      else scanName { st with extender := true } cs
    else if st.extender then do
      let regularName ← storeRegular st.regularName st.extenderCurrent c
      scanName { st with regularName := regularName, extenderCurrent := st.extenderCurrent + 1 } cs
    else do
      let regularName ← storeRegular st.regularName st.nameLength c
      scanName { st with regularName := regularName, nameLength := st.nameLength + 1 } cs

/-- `"..         "`. -/
def dotdotRegular : Bytes 11 :=
  #v[0x2e, 0x2e, 0x20, 0x20, 0x20, 0x20, 0x20, 0x20, 0x20, 0x20, 0x20]
/-- `".          "`. -/
def dotRegular : Bytes 11 :=
  #v[0x2e, 0x20, 0x20, 0x20, 0x20, 0x20, 0x20, 0x20, 0x20, 0x20, 0x20]

/-- `format_name`: the return code and the buffer afterwards. -/
def formatName (name : NameBuffer) : Exec (Int × NameBuffer) :=
  match cString name with
  | none => .error .outOfBounds
  | some s =>
    if s.take 2 = [0x2e, 0x2e] then .ok (ext2Success, name.overwrite dotdotRegular)
    else if s.take 1 = [0x2e] then .ok (ext2Success, name.overwrite dotRegular)
    else do
      let s := upperString s 11
      let name := NameBuffer.ofString s
      match ← scanName NameScan.start s with
      | none => return (ext2Error, name)
      | some st =>
        if st.nameLength > 8 ∨ st.nameLength = 0 ∨ st.extenderCurrent > 11 then
          return (ext2Error, name)
        else
          return (ext2Success, name.overwrite st.regularName)

end Ext2Fs
