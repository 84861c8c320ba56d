import IntegerMachine.Cbor.Read
import IntegerMachine.Text.Utf8

/-!
# Values in CBOR

Texts, numbers, lists and records as data items. Reading them is lenient: the null item stands for what is empty
or zero; tags are looked through, and numbers given by bytes count as numbers; the keys of a record match without
regard to case, the first entry of a key counts, and numeric keys are skipped. Whatever else has the wrong type
cannot be read; the error is that of the first such item in the order of the bytes.

None of this leniency is asked for by images. It is how the package outside of the machine that reads them fills
in records with its default options, and it is stated here because it decides which images are accepted.
-/
namespace IntegerMachine.Cbor.Item

/-! ## Writing -/

/-- An entry of a map with a text for its key, unless it is to be left out. -/
def entry (key : String) (value : Item) (present : Bool := true) : List (Item × Item) :=
  if present then [(ofText key, value)] else []

/-- The array of texts. -/
def ofTexts (texts : List Text) : Item := array (texts.map ofText)

/-! ## Reading -/

/-- The major type of an item. -/
def major : Item → Nat
  | unsigned _ => 0
  | negative _ => 1
  | bytes _ => 2
  | text _ => 3
  | array _ => 4
  | map _ => 5
  | tag _ _ => 6
  | simple _ | float _ => 7

/-- The number of the tag that says nothing but that what follows is CBOR. -/
def selfDescribedTag : Nat := 55799

/-- Whether an item may stand behind a tag: texts behind 0, numbers behind 1, bytes behind 2 and 3. -/
def fitsTag (number : Nat) (content : Item) : Bool :=
  match number, content with
  | 0, text _ => true
  | 0, _ => false
  | 1, unsigned _ | 1, negative _ | 1, float _ => true
  | 1, _ => false
  | 2, bytes _ | 3, bytes _ => true
  | 2, _ | 3, _ => false
  | _, _ => true

/-- The content of an item without its tags, and its major type. Numbers given by bytes become numbers, but their
major type stays that of tags. -/
def untagged : Item → Except Error (Nat × Item)
  | tag number content =>
    if number = selfDescribedTag then content.untagged
    else if !fitsTag number content then .error (.badTag number content.major)
    else match number, content with
      | 2, bytes digits => .ok (6, unsigned (ofBigEndian digits))
      | 3, bytes digits => .ok (6, negative (ofBigEndian digits))
      | _, _ => content.untagged
  | item => .ok (item.major, item)

/-- Whether an item without tags stands for nothing. -/
def isNull : Item → Bool
  | simple value => value == 22 || value == 23
  | _ => false

/-- The text of chunks, each of which must be UTF-8. -/
def chunksText (chunks : List Text) : Except Error Text :=
  if chunks.all Text.isUtf8 then .ok chunks.flatten else .error .badText

/-- That a number does not fit a type. -/
def overflow (number : Int) (wanted : Text) : Text :=
  .concat [.ofInt number, " overflows ", wanted]

/-- Why an item is not of the wanted type. Texts are checked first, and numbers that no type can hold are shown. -/
def refusal (found : Nat) (item : Item) (wanted : Text) : Error :=
  match item with
  | text chunks => if chunks.all Text.isUtf8 then .mismatch found wanted [] [] else .badText
  | unsigned value =>
    .mismatch found wanted [] (if found = 6 ∧ 0x10000000000000000 ≤ value then overflow value wanted else [])
  | negative value =>
    .mismatch found wanted [] (if 0x8000000000000000 ≤ value then overflow (-1 - (value : Int)) wanted else [])
  | _ => .mismatch found wanted [] []

/-- What an item that must stand for nothing stands for, if it does. -/
def orNothing {α : Type} (nothing : α) (found : Nat) (item : Item) (wanted : Text) : Except Error α :=
  if item.isNull then .ok nothing else .error (refusal found item wanted)

/-- A text, or the given one where there is nothing. -/
def textOr (missing : Text) (item : Item) : Except Error Text := do
  match ← item.untagged with
  | (_, text chunks) => chunksText chunks
  | (found, plain) => orNothing missing found plain "string"

/-- The value of a number; simple values other than truth values count as numbers. -/
def number? : Item → Option Int
  | unsigned value => some value
  | negative value => some (-1 - (value : Int))
  | simple value => if value = 20 ∨ value = 21 then none else some value
  | _ => none

/-- A number of the given count of bits, or the given one where there is nothing. -/
def intOr (missing : Int) (bits : Nat) (wanted : Text) (item : Item) : Except Error Int := do
  let (found, plain) ← item.untagged
  if plain.isNull then return missing
  match plain.number? with
  | none => throw (refusal found plain wanted)
  | some value =>
    if -(Nat.pow 2 (bits - 1) : Int) ≤ value ∧ value < (Nat.pow 2 (bits - 1) : Int) then return value
    else throw (.mismatch found wanted [] (overflow value wanted))

/-- The elements of an array, each read by the given function; none where there is nothing. -/
def listOf {α : Type} (wanted : Text) (element : Item → Except Error α) (item : Item) :
    Except Error (List α) := do
  match ← item.untagged with
  | (_, array items) => items.mapM element
  | (found, plain) =>
    if found = 6 then throw (.mismatch found wanted [] []) else orNothing [] found plain wanted

/-- A field of a record: its lower-case name, and how its value is put into the record. -/
structure Field (α : Type) where
  name : String
  read : α → Item → Except Error α

/-- An ASCII letter in lower case; other bytes as they are. -/
def lowerByte (byte : UInt8) : UInt8 := if 0x41 ≤ byte ∧ byte ≤ 0x5A then byte + 0x20 else byte

/-- The field that a key names. -/
def fieldOf? {α : Type} (fields : List (Field α)) (key : Text) : Option (Field α) :=
  fields.find? fun field => key.map lowerByte == Text.ofString field.name

/-- Why a key cannot name a field. -/
def keyRefusal (key : Item) : Error :=
  match key with
  | negative value =>
    .mismatch 1 "int64" [] (.concat ["-1-", .ofNat value, " overflows Go's int64"])
  | _ =>
    .mismatch key.major "string" []
      (.concat ["map key is of type ", majorName key.major,
        " and cannot be used to match struct field name"])

/-- Puts the entries of a map into a record, given the names of the fields that were met before. -/
def readFields {α : Type} (kind : Text) (fields : List (Field α)) (met : List String) (record : α) :
    List (Item × Item) → Except Error α
  | [] => .ok record
  | (key, value) :: rest =>
    match key with
    | text chunks => do
      let name ← chunksText chunks
      match fieldOf? fields name with
      | none => readFields kind fields met record rest
      | some field =>
        if field.name ∈ met then readFields kind fields met record rest
        else match field.read record value with
          | .error error => throw (error.within (.concat [kind, ".", field.name]))
          | .ok record => readFields kind fields (field.name :: met) record rest
    | unsigned _ => readFields kind fields met record rest
    | negative number =>
      if number < 0x8000000000000000 then readFields kind fields met record rest else .error (keyRefusal key)
    | _ => .error (keyRefusal key)

/-- A record of the named kind, which starts as given. -/
def recordOf {α : Type} (kind : Text) (fields : List (Field α)) (start : α) (item : Item) :
    Except Error α := do
  match ← item.untagged with
  | (_, map entries) => readFields kind fields [] start entries
  | (found, array _) =>
    throw (.mismatch found kind [] "cannot decode CBOR array to struct without toarray option")
  | (found, plain) => orNothing start found plain kind

end IntegerMachine.Cbor.Item
