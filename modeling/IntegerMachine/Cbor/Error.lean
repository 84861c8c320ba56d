import IntegerMachine.Text.Basic

/-!
# Errors of CBOR

Why bytes are not a data item, and why a data item is not the value that is wanted.
-/
namespace IntegerMachine.Cbor

/-- The name of a major type. -/
def majorName : Nat → Text
  | 0 => "positive integer"
  | 1 => "negative integer"
  | 2 => "byte string"
  | 3 => "UTF-8 text string"
  | 4 => "array"
  | 5 => "map"
  | 6 => "tag"
  | _ => "primitives"

/-- The number of levels to which items may be nested. -/
def levelLimit : Nat := 32

/-- The number of elements of an array and of entries of a map. -/
def sizeLimit : Nat := 131072

/-- What is wrong. -/
inductive Error where
  /-- There are no bytes. -/
  | empty
  /-- The bytes end within the item. -/
  | ended
  | badInfo (info major : Nat)
  | badSimple (value : Nat)
  | strayBreak
  /-- A chunk of a string has another type than the string. -/
  | wrongChunk (found major : Nat)
  /-- A chunk of a string has an indefinite length itself. -/
  | openChunk (major : Nat)
  | hugeString (major length : Nat)
  | hugeList (major length : Nat)
  | tooDeep
  | tooManyElements
  | tooManyEntries
  /-- A text is not UTF-8. -/
  | badText
  /-- The item behind a tag does not fit the tag. -/
  | badTag (number found : Nat)
  /-- An item of the found major type stands where another type of value is wanted, in the named field if it is in
  one. -/
  | mismatch (found : Nat) (wanted field detail : Text)
  deriving DecidableEq, Repr

namespace Error

/-- The error as it is seen from a field around it. -/
def within (field : Text) : Error → Error
  | mismatch found wanted _ detail => mismatch found wanted field detail
  | error => error

/-- What has to stand behind a tag. -/
def tagContent : Nat → Text
  | 0 => "tag number 0 must be followed by text string"
  | 1 => "tag number 1 must be followed by integer or floating-point number"
  | _ => "tag number 2 or 3 must be followed by byte string"

/-- The wording of the error. -/
def message : Error → Text
  | empty => "EOF"
  | ended => "unexpected EOF"
  | badInfo info major =>
    .concat ["cbor: invalid additional information ", .ofNat info, " for type ", majorName major]
  | badSimple value =>
    .concat ["cbor: invalid simple value ", .ofNat value, " for type ", majorName 7]
  | strayBreak => "cbor: unexpected \"break\" code"
  | wrongChunk found major =>
    .concat ["cbor: wrong element type ", majorName found, " for indefinite-length ", majorName major]
  | openChunk major =>
    .concat ["cbor: indefinite-length ", majorName major, " chunk is not definite-length"]
  | hugeString major length =>
    .concat ["cbor: ", majorName major, " length ", .ofNat length,
      " is too large, causing integer overflow"]
  | hugeList major length =>
    .concat ["cbor: ", majorName major, " length ", .ofNat length,
      " is too large, it would cause integer overflow"]
  | tooDeep => .concat ["cbor: exceeded max nested level ", .ofNat levelLimit]
  | tooManyElements =>
    .concat ["cbor: exceeded max number of elements ", .ofNat sizeLimit, " for CBOR array"]
  | tooManyEntries =>
    .concat ["cbor: exceeded max number of key-value pairs ", .ofNat sizeLimit, " for CBOR map"]
  | badText => "cbor: invalid UTF-8 string"
  | badTag number found => .concat ["cbor: ", tagContent number, ", got ", majorName found]
  | mismatch found wanted field detail =>
    .concat ["cbor: cannot unmarshal ", majorName found,
      if field.isEmpty then " into Go value of type " else .concat [" into Go struct field ", field, " of type "],
      wanted, if detail.isEmpty then [] else .concat [" (", detail, ")"]]

end Error

end IntegerMachine.Cbor
