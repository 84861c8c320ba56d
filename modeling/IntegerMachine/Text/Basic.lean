/-!
# Texts

Names, literals, messages and files are byte strings: most are UTF-8, but a source file may hold any
bytes, and what it holds is shown unchanged in listings and messages. A text is therefore a list of
bytes. String constants are read as texts by their UTF-8 encoding.
-/
namespace IntegerMachine

/-- A byte string. -/
abbrev Text := List UInt8

namespace Text

instance (text : Text) (texts : List Text) : Decidable (text ∈ texts) := List.instDecidableMemOfLawfulBEq text texts

instance (path : List Text) (paths : List (List Text)) : Decidable (path ∈ paths) :=
  List.instDecidableMemOfLawfulBEq path paths

/-- The UTF-8 encoding of a string. -/
def ofString (string : String) : Text := string.toList.flatMap String.utf8EncodeChar

instance : Coe String Text := ⟨ofString⟩

/-- The texts one after the other. -/
def concat (parts : List Text) : Text := parts.flatten

/-- The texts one after the other, with a separator between neighbours. -/
def join (separator : Text) : List Text → Text
  | [] => []
  | [last] => last
  | first :: rest => first ++ separator ++ join separator rest

/-- The byte of an ASCII character. -/
def byte (character : Char) : UInt8 := character.toNat.toUInt8

/-- The decimal digits of a natural number, without leading zeros. -/
def ofNat (number : Nat) : Text := (Nat.toDigits 10 number).map byte

/-- The decimal digits of an integer, after a minus sign where it is negative. -/
def ofInt (number : Int) : Text :=
  if number < 0 then byte '-' :: ofNat number.natAbs else ofNat number.natAbs

/-- The decimal digits of a 32-bit integer. -/
def ofInt32 (number : Int32) : Text := ofInt number.toInt

/-- Blanks before the text, up to the given width. -/
def padLeft (width : Nat) (text : Text) : Text :=
  List.replicate (width - text.length) (byte ' ') ++ text

/-- The order of byte strings: the first difference decides, and a proper beginning comes first. -/
def compare : Text → Text → Ordering
  | [], [] => .eq
  | [], _ :: _ => .lt
  | _ :: _, [] => .gt
  | first :: rest, first' :: rest' =>
    if first < first' then .lt else if first' < first then .gt else compare rest rest'

/-- Whether the first text is not after the second one in the order of byte strings. -/
def le (first second : Text) : Bool := (compare first second).isLE

/-- The text without the bytes that satisfy a test at its end. -/
def trimRight (unwanted : UInt8 → Bool) (text : Text) : Text :=
  (text.reverse.dropWhile unwanted).reverse

/-- The text cut at each byte equal to the separator: always one piece more than separators. -/
def split (separator : UInt8) : Text → List Text
  | [] => [[]]
  | first :: rest =>
    match split separator rest with
    | [] => [[]]
    | piece :: pieces =>
      if first = separator then [] :: piece :: pieces else (first :: piece) :: pieces

end Text

end IntegerMachine
