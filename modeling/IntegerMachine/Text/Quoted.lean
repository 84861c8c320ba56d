import IntegerMachine.Text.Utf8
import IntegerMachine.Text.Printable

/-!
# Quoted texts

A text between double quotes on one line of printable characters. The quote and the backslash are
written after a backslash, seven control characters by a letter, and whatever else cannot be shown by
the hexadecimal number of its byte or code point.
-/
namespace IntegerMachine.Text

/-- The lower-case hexadecimal digit of a number below sixteen. -/
def hexDigit (value : Nat) : UInt8 := byte (Nat.digitChar value)

/-- The last `width` hexadecimal digits of a number. -/
def hexDigits : Nat → Nat → Text
  | 0, _ => []
  | width + 1, number => hexDigits width (number / 16) ++ [hexDigit (number % 16)]

/-- The letter that stands for a control character after a backslash. -/
def controlLetter (character : Char) : Option Char :=
  match character.toNat with
  | 0x07 => some 'a'
  | 0x08 => some 'b'
  | 0x09 => some 't'
  | 0x0A => some 'n'
  | 0x0B => some 'v'
  | 0x0C => some 'f'
  | 0x0D => some 'r'
  | _ => none

/-- A glyph as it is written between double quotes. -/
def quotedGlyph : Glyph → Text
  | .stray stray _ => concat ["\\x", hexDigits 2 stray.toNat]
  | .char character =>
    if character = '"' || character = '\\' then byte '\\' :: ofChar character
    else if isPrintable character then ofChar character
    else match controlLetter character with
      | some letter => [byte '\\', byte letter]
      | none =>
        let point := character.toNat
        if point < 0x80 then concat ["\\x", hexDigits 2 point]
        else if point < 0x10000 then concat ["\\u", hexDigits 4 point]
        else concat ["\\U", hexDigits 8 point]

/-- The text between double quotes. -/
def quoted (text : Text) : Text :=
  concat ["\"", text.glyphs.flatMap quotedGlyph, "\""]

end IntegerMachine.Text
