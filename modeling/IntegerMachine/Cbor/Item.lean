import IntegerMachine.Text.Basic

/-!
# CBOR data items

A data item as it is stored in an image. Items are written with definite lengths and the shortest heads.
Texts are kept as the chunks they were stored in; a text that is written has one chunk.

Of the forms that the format allows, the one that is written here is the choice of a general package for CBOR
with its default options, to which the machine leaves the storing of its images. The package is not part of
the machine: its rules are definitions of this library, and that it keeps to them is not a theorem here.
-/
namespace IntegerMachine.Cbor

/-- A data item. -/
inductive Item where
  | unsigned (value : Nat)
  /-- The number -1 - `value`. -/
  | negative (value : Nat)
  | bytes (content : Text)
  | text (chunks : List Text)
  | array (items : List Item)
  | map (entries : List (Item × Item))
  | tag (number : Nat) (content : Item)
  /-- A simple value: 20 and 21 are the truth values, 22 is null and 23 is undefined. -/
  | simple (value : Nat)
  | float (bits : Nat)
  deriving Repr, Inhabited

namespace Item

/-- The item that stands for nothing. -/
def null : Item := simple 22

/-- The item of an integer. -/
def ofInt (number : Int) : Item :=
  if number < 0 then negative (number.natAbs - 1) else unsigned number.natAbs

/-- The item of a text. -/
def ofText (content : Text) : Item := text [content]

/-- The item of a list; nothing if the list is empty. -/
def ofListOrNull (items : List Item) : Item := if items.isEmpty then null else array items

end Item

/-- The last `count` bytes of a number, the most significant first. -/
def bigEndian : Nat → Nat → Text
  | 0, _ => []
  | count + 1, number => bigEndian count (number / 256) ++ [(number % 256).toUInt8]

/-- The first byte of an item: its major type and the additional information. -/
def initial (major info : Nat) : UInt8 := (major * 32 + info).toUInt8

/-- The shortest head of a major type with a number below 2^64. -/
def head (major number : Nat) : Text :=
  if number < 24 then [initial major number]
  else if number < 0x100 then initial major 24 :: bigEndian 1 number
  else if number < 0x10000 then initial major 25 :: bigEndian 2 number
  else if number < 0x100000000 then initial major 26 :: bigEndian 4 number
  else initial major 27 :: bigEndian 8 number

mutual

/-- The bytes of an item. -/
def Item.encode : Item → Text
  | .unsigned value => head 0 value
  | .negative value => head 1 value
  | .bytes content => head 2 content.length ++ content
  | .text chunks => head 3 chunks.flatten.length ++ chunks.flatten
  | .array items => head 4 items.length ++ encodeItems items
  | .map entries => head 5 entries.length ++ encodeEntries entries
  | .tag number content => head 6 number ++ content.encode
  | .simple value => head 7 value
  | .float bits => initial 7 27 :: bigEndian 8 bits

/-- The bytes of items one after the other. -/
def encodeItems : List Item → Text
  | [] => []
  | item :: rest => item.encode ++ encodeItems rest

/-- The bytes of the entries of a map. -/
def encodeEntries : List (Item × Item) → Text
  | [] => []
  | (key, value) :: rest => key.encode ++ value.encode ++ encodeEntries rest

end

end IntegerMachine.Cbor
