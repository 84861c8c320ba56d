import IntegerMachine.Text.Utf8

/-!
# Literals

A literal is the text of an integer operand or of a constant's value. It is one of

* a character between single quotes, plain or by an escape;
* a single character other than a digit, a sign and U+FFFD, which stands for its code point;
* an optional sign and decimal digits, whose signed value must fit a cell;
* an optional sign, `0x`, and hexadecimal digits, or `0o` or `o` and octal digits, whose unsigned value
  must fit 32 bits; it wraps around to a negative cell as in a register, and the sign negates the cell.

Digits are read from the left: the first digit that does not belong to the base, or that makes the
value too large for 32 bits, decides which error is reported.
-/
namespace IntegerMachine

/-- A 32-bit integer as operand stacks, locals and constants hold it; arithmetic wraps around. -/
abbrev Cell := Int32

namespace Literal

/-- Why a text is not a literal. -/
inductive Error where
  | badCharacter (literal : Text)
  | outOfRange (literal : Text)
  | malformed (literal : Text)
  deriving DecidableEq, Repr

/-- The wording of the error. -/
def Error.message : Error → Text
  | badCharacter literal => .concat ["invalid character literal ", literal]
  | outOfRange literal => .concat ["literal ", literal, " out of range"]
  | malformed literal => .concat ["invalid literal ", literal]

/-- The value of a hexadecimal digit of either case. -/
def digitValue (byte : UInt8) : Option Nat :=
  if 0x30 ≤ byte ∧ byte ≤ 0x39 then some (byte.toNat - 0x30)
  else if 0x41 ≤ byte ∧ byte ≤ 0x46 then some (byte.toNat - 0x41 + 10)
  else if 0x61 ≤ byte ∧ byte ≤ 0x66 then some (byte.toNat - 0x61 + 10)
  else none

/-- The value of a digit of the given base, which is at most sixteen. -/
def digitIn (base : Nat) (byte : UInt8) : Option Nat :=
  (digitValue byte).filter (· < base)

/-- The number written by exactly these digits, continuing the number read before them. -/
def fixedDigits (base : Nat) (value : Nat) : Text → Option Nat
  | [] => some value
  | byte :: rest =>
    match digitIn base byte with
    | none => none
    | some digit => fixedDigits base (value * base + digit) rest

/-- Whether a number is a code point: not above U+10FFFF and no surrogate. -/
def isCodePoint (value : Nat) : Bool := value < 0xD800 || (0xDFFF < value && value ≤ 0x10FFFF)

/-- The value of an escape that consists of exactly the given bytes after its backslash. -/
def escape : Text → Option Nat
  | [] => none
  | 0x78 :: digits => if digits.length = 2 then fixedDigits 16 0 digits else none
  | 0x75 :: digits =>
    if digits.length = 4 then (fixedDigits 16 0 digits).filter isCodePoint else none
  | 0x55 :: digits =>
    if digits.length = 8 then (fixedDigits 16 0 digits).filter isCodePoint else none
  | [letter] =>
    match Char.ofNat letter.toNat with
    | 'a' => some 7
    | 'b' => some 8
    | 't' => some 9
    | 'n' => some 10
    | 'v' => some 11
    | 'f' => some 12
    | 'r' => some 13
    | '\\' => some 0x5C
    | '\'' => some 0x27
    | _ => none
  | digits =>
    if digits.length = 3 then (fixedDigits 8 0 digits).filter (· ≤ 255) else none

/-- The code point of the text between single quotes: one character, or one escape. The quote itself
must be escaped, and a stray byte stands for U+FFFD. -/
def character (inside : Text) : Option Nat :=
  match inside with
  | [] => none
  | first :: rest =>
    if first = 0x27 then none
    else if first = 0x5C then escape rest
    else match inside.glyphs with
      | [glyph] => some glyph.value.toNat
      | _ => none

/-- The text between the single quotes that a text starts and ends with, when it has at least one byte
there. -/
def unquote? (text : Text) : Option Text :=
  match text with
  | 0x27 :: rest =>
    if 2 ≤ rest.length ∧ rest.getLast? = some 0x27 then some rest.dropLast else none
  | _ => none

/-- The code point of a text that is a single character and not the beginning of a number. -/
def single? (text : Text) : Option Nat :=
  match text.glyphs with
  | [.char character] =>
    if character = replacement ∨ character.isDigit ∨ character = '-' ∨ character = '+' then none
    else some character.toNat
  | _ => none

/-- How the digits of a number fail. -/
inductive NumberError where
  | badDigit
  | tooLarge
  deriving DecidableEq, Repr

/-- Reads the digits of an unsigned 32-bit number, continuing the number read before them. -/
def moreDigits (base : Nat) (value : Nat) : Text → Except NumberError Nat
  | [] => .ok value
  | byte :: rest =>
    match digitIn base byte with
    | none => .error .badDigit
    | some digit =>
      let next := value * base + digit
      if 0x100000000 ≤ next then .error .tooLarge else moreDigits base next rest

/-- Reads one or more digits of an unsigned 32-bit number. -/
def number (base : Nat) (digits : Text) : Except NumberError Nat :=
  if digits.isEmpty then .error .badDigit else moreDigits base 0 digits

/-- Whether a byte is an ASCII letter, in either case. -/
def isLetterByte (letter : Char) (byte : UInt8) : Bool :=
  byte == Text.byte letter || byte == Text.byte letter.toUpper

/-- The base of an unsigned number and the digits after the mark of the base. -/
def splitBase (text : Text) : Nat × Text :=
  match text with
  | 0x30 :: mark :: first :: rest =>
    if isLetterByte 'x' mark then (16, first :: rest)
    else if isLetterByte 'o' mark then (8, first :: rest)
    else (10, text)
  | mark :: first :: rest => if isLetterByte 'o' mark then (8, first :: rest) else (10, text)
  | _ => (10, text)

/-- Whether a number is negative, and the text after its sign. -/
def splitSign (text : Text) : Bool × Text :=
  match text with
  | 0x2D :: rest => (true, rest)
  | 0x2B :: rest => (false, rest)
  | _ => (false, text)

/-- Whether the magnitude of a signed decimal number is within the range of a cell. -/
def fitsCell (negative : Bool) (magnitude : Nat) : Bool :=
  if negative then magnitude ≤ 0x80000000 else magnitude < 0x80000000

/-- The value of a signed number. -/
def signed (negative : Bool) (magnitude : Nat) : Int :=
  if negative then -(magnitude : Int) else magnitude

/-- Reads an integer with its optional sign and base mark. -/
def integer (text : Text) : Except Error Cell :=
  let (negative, unsigned) := splitSign text
  let (base, digits) := splitBase unsigned
  match number base digits with
  | .error .badDigit => .error (.malformed text)
  | .error .tooLarge => .error (.outOfRange text)
  | .ok magnitude =>
    if base = 10 ∧ ¬ fitsCell negative magnitude then .error (.outOfRange text)
    else .ok (Int32.ofInt (signed negative magnitude))

/-- Reads a literal. -/
def parse (text : Text) : Except Error Cell :=
  match unquote? text with
  | some inside =>
    match character inside with
    | some value => .ok (Int32.ofInt value)
    | none => .error (.badCharacter text)
  | none =>
    match single? text with
    | some value => .ok (Int32.ofInt value)
    | none => integer text

end Literal

end IntegerMachine
