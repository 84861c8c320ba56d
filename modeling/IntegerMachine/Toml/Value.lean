import IntegerMachine.Text.Utf8

/-!
# TOML values

The statements of a TOML document. Floats, and dates and times, are only recognised: no setting has such a value.
-/
namespace IntegerMachine.Toml

/-- A key: its parts, the outermost first. -/
abbrev Key := List Text

/-- A value. -/
inductive Value where
  | string (content : Text)
  | integer (number : Int)
  | boolean (truth : Bool)
  | float
  | moment
  | array (items : List Value)
  | table (entries : List (Key × Value))
  deriving Repr, Inhabited

/-- A statement of a document. -/
inductive Statement where
  | table (key : Key)
  /-- Adds a table to an array of tables. -/
  | element (key : Key)
  | assign (key : Key) (value : Value)
  deriving Repr, Inhabited

/-- Whether a character can stand in a part of a key without quotes. -/
def isBareKey (character : Char) : Bool :=
  character.isAlphanum || character == '_' || character == '-'

/-- A character between double quotes in messages. -/
def quotedCharacter (character : Char) : Text :=
  match character with
  | '"' => "\\\""
  | '\\' => "\\\\"
  | '\n' => "\\n"
  | '\t' => "\\t"
  | '\r' => "\\r"
  | _ =>
    let point := character.toNat
    if point = 8 then "\\b"
    else if point = 12 then "\\f"
    else if point < 0x20 ∨ point = 0x7F then
      .concat ["\\u00", [Text.byte (Nat.digitChar (point / 16)), Text.byte (Nat.digitChar (point % 16))]]
    else .ofChar character

/-- A part of a key in messages. -/
def showPart (part : Text) : Text :=
  if !part.isEmpty && part.characters.all isBareKey then part
  else .concat ["\"", part.characters.flatMap quotedCharacter, "\""]

/-- A key in messages. -/
def showKey (key : Key) : Text := .join "." (key.map showPart)

end IntegerMachine.Toml
