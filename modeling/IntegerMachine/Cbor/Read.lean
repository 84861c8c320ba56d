import IntegerMachine.Cbor.Error
import IntegerMachine.Cbor.Item

/-!
# Reading CBOR

Reads the first data item of a byte string and gives back the rest. Heads longer than needed and indefinite
lengths are accepted. Arrays and maps may be nested up to 32 levels, where a tag on a tag counts as a level too,
and have up to 131072 elements or entries.

The format itself sets no such limits. They are the default options of the package that reads images, which lies
outside of the machine, and so are the order of the checks and the errors that tell which of them failed.
-/
namespace IntegerMachine.Cbor

/-- The major type of an item whose first byte is given. -/
def majorOf (first : UInt8) : Nat := first.toNat / 32

/-- The additional information in the first byte of an item. -/
def infoOf (first : UInt8) : Nat := first.toNat % 32

/-- The additional information that announces an indefinite length. -/
def openInfo : Nat := 31

/-- The byte that ends an item of indefinite length. -/
def breakByte : UInt8 := 0xFF

/-- The number written by bytes, the most significant first. -/
def ofBigEndian (bytes : Text) : Nat := bytes.foldl (fun number byte => number * 256 + byte.toNat) 0

/-- Takes a number of bytes. -/
def takeBytes (count : Nat) (bytes : Text) : Except Error (Text × Text) :=
  let taken := bytes.take count
  if taken.length = count then .ok (taken, bytes.drop count) else .error .ended

/-- The major type, the additional information and the number in front of an item. The number is absent for
an indefinite length. -/
structure Head where
  major : Nat
  info : Nat
  number : Option Nat
  deriving DecidableEq, Repr

/-- The head of the given first byte with a number of the given count of bytes. -/
def longHead (first : UInt8) (count : Nat) (bytes : Text) : Except Error (Head × Text) := do
  let (taken, rest) ← takeBytes count bytes
  return ({ major := majorOf first, info := infoOf first, number := some (ofBigEndian taken) }, rest)

/-- The head of the given first byte with a number of one byte. Simple values that fit the first byte are
refused. -/
def byteHead (first : UInt8) (bytes : Text) : Except Error (Head × Text) := do
  let (head, rest) ← longHead first 1 bytes
  let value := head.number.getD 0
  if head.major = 7 ∧ value < 32 then throw (.badSimple value)
  return (head, rest)

/-- Reads a head. The break byte is not one, and only strings, arrays and maps have indefinite lengths. -/
def readHead : Text → Except Error (Head × Text)
  | [] => .error .ended
  | first :: rest =>
    let major := majorOf first
    let info := infoOf first
    if info < 24 then .ok ({ major, info, number := some info }, rest)
    else if info = 24 then byteHead first rest
    else if info = 25 then longHead first 2 rest
    else if info = 26 then longHead first 4 rest
    else if info = 27 then longHead first 8 rest
    else if info = openInfo ∧ 2 ≤ major ∧ major ≤ 5 then .ok ({ major, info, number := none }, rest)
    else if info = openInfo ∧ major = 7 then .error .strayBreak
    else .error (.badInfo info major)

/-- A function that reads an item and gives back the rest. -/
abbrev Reader := Text → Except Error (Item × Text)

/-- Reads a number of items. -/
def readMany (reader : Reader) : Nat → Text → Except Error (List Item × Text)
  | 0, bytes => .ok ([], bytes)
  | count + 1, bytes => do
    let (item, bytes) ← reader bytes
    let (items, bytes) ← readMany reader count bytes
    return (item :: items, bytes)

/-- Reads items up to the break byte. Every item has a byte, so the number of bytes is fuel enough. -/
def readUntilBreak (reader : Reader) : Nat → Text → Except Error (List Item × Text)
  | 0, _ => .error .ended
  | _ + 1, [] => .error .ended
  | fuel + 1, first :: rest =>
    if first = breakByte then .ok ([], rest)
    else do
      let (item, bytes) ← reader (first :: rest)
      let (items, bytes) ← readUntilBreak reader fuel bytes
      return (item :: items, bytes)

/-- Reads the content of a string of the given length. -/
def readContent (major length : Nat) (bytes : Text) : Except Error (Text × Text) :=
  if 0x8000000000000000 ≤ length then .error (.hugeString major length) else takeBytes length bytes

/-- Reads the chunks of a string of indefinite length: strings of the same type with definite lengths. -/
def readChunks (major : Nat) : Nat → Text → Except Error (List Text × Text)
  | 0, _ => .error .ended
  | _ + 1, [] => .error .ended
  | fuel + 1, first :: rest =>
    if first = breakByte then .ok ([], rest)
    else if majorOf first ≠ major then .error (.wrongChunk (majorOf first) major)
    else if infoOf first = openInfo then .error (.openChunk major)
    else do
      let (head, bytes) ← readHead (first :: rest)
      let (chunk, bytes) ← readContent major (head.number.getD 0) bytes
      let (chunks, bytes) ← readChunks major fuel bytes
      return (chunk :: chunks, bytes)

/-- Reads the chunks of a string with the given head. -/
def readString (head : Head) (bytes : Text) : Except Error (List Text × Text) :=
  match head.number with
  | some length => do
    let (chunk, rest) ← readContent head.major length bytes
    return ([chunk], rest)
  | none => readChunks head.major (bytes.length + 1) bytes

/-- Refuses more elements or entries than there may be. -/
def checkSize (major count : Nat) : Except Error Unit :=
  if sizeLimit < count then .error (if major = 4 then .tooManyElements else .tooManyEntries)
  else .ok ()

/-- Reads the items of an array or a map with the given head, which has `width` items for each element. -/
def readElements (nested : Reader) (width : Nat) (head : Head) (bytes : Text) :
    Except Error (List Item × Text) :=
  match head.number with
  | some count => do
    if 0x8000000000000000 ≤ count then throw (.hugeList head.major count)
    checkSize head.major count
    readMany nested (width * count) bytes
  | none => do
    let (items, rest) ← readUntilBreak nested (bytes.length + 1) bytes
    checkSize head.major (items.length / width)
    return (items, rest)

/-- The entries of a map whose keys and values follow each other. The last value must not be missing. -/
def pairUp : List Item → Except Error (List (Item × Item))
  | [] => .ok []
  | [_] => .error .strayBreak
  | key :: value :: rest => do return (key, value) :: (← pairUp rest)

/-- The reader for what is nested in an item, if there may be another level. -/
def deeper (nested : Option Reader) : Except Error Reader :=
  match nested with
  | some reader => .ok reader
  | none => .error .tooDeep

/-- Reads an item that is not a tag. Arrays and maps need a reader for what is nested in them. -/
def readPlain (nested : Option Reader) : Reader := fun bytes => do
  let (head, bytes) ← readHead bytes
  match head.major with
  | 0 => return (.unsigned (head.number.getD 0), bytes)
  | 1 => return (.negative (head.number.getD 0), bytes)
  | 2 =>
    let (chunks, bytes) ← readString head bytes
    return (.bytes chunks.flatten, bytes)
  | 3 =>
    let (chunks, bytes) ← readString head bytes
    return (.text chunks, bytes)
  | 4 =>
    let (items, bytes) ← readElements (← deeper nested) 1 head bytes
    return (.array items, bytes)
  | 5 =>
    let (items, bytes) ← readElements (← deeper nested) 2 head bytes
    return (.map (← pairUp items), bytes)
  | _ =>
    let number := head.number.getD 0
    return (if head.info ≤ 24 then .simple number else .float number, bytes)

/-- Whether the next item is a tag. -/
def startsWithTag : Text → Bool
  | [] => false
  | first :: _ => majorOf first == 6

/-- Reads an item. A tag belongs to the level of what it is on, unless that is a tag itself. -/
def readItem (nested : Option Reader) : Reader := fun bytes =>
  if startsWithTag bytes then do
    let (head, bytes) ← readHead bytes
    let (content, bytes) ←
      if startsWithTag bytes then (← deeper nested) bytes else readPlain nested bytes
    return (.tag (head.number.getD 0) content, bytes)
  else readPlain nested bytes

/-- Reads an item that has the given number of levels below it. -/
def readWithin : Nat → Reader
  | 0 => readItem none
  | levels + 1 => readItem (some (readWithin levels))

/-- Reads the first item of a byte string. -/
def read (bytes : Text) : Except Error (Item × Text) :=
  if bytes.isEmpty then .error .empty else readWithin levelLimit bytes

end IntegerMachine.Cbor
