import IntegerMachine.Decimal

/-!
# Numbers in YAML

Which plain scalars read as numbers. Integers are decimal, or binary, octal or hexadecimal after a mark, or
octal after a zero; underscores between their digits do not count. They must fit 64 bits. Floats are
decimal; one that is beyond the range of double precision is a string.
-/
namespace IntegerMachine.Yaml

open Decimal (isDigit)

/-- Whether a text has a sign in front. -/
def hasSign : Text → Bool
  | 0x2B :: _ | 0x2D :: _ => true
  | _ => false

/-- Whether a number fits 64 bits. A number without a sign may use them all. -/
def fitsWord (signed negative : Bool) (magnitude : Nat) : Bool :=
  if negative then magnitude ≤ 0x8000000000000000
  else if signed then magnitude < 0x8000000000000000
  else magnitude < 0x10000000000000000

/-- The magnitude of digits whose base is given by the mark in front of them. -/
def magnitude? : Text → Option Nat
  | [] => none
  | 0x30 :: mark :: first :: rest =>
    if Literal.isLetterByte 'b' mark then Literal.fixedDigits 2 0 (first :: rest)
    else if Literal.isLetterByte 'o' mark then Literal.fixedDigits 8 0 (first :: rest)
    else if Literal.isLetterByte 'x' mark then Literal.fixedDigits 16 0 (first :: rest)
    else Literal.fixedDigits 8 0 (mark :: first :: rest)
  | 0x30 :: rest => Literal.fixedDigits 8 0 rest
  | digits => Literal.fixedDigits 10 0 digits

/-- Whether a text is an optional sign and an unsigned number that fits. -/
def isSigned (unsigned? : Text → Option Nat) (text : Text) : Bool :=
  let (negative, unsigned) := Literal.splitSign text
  match unsigned? unsigned with
  | some magnitude => fitsWord (hasSign text) negative magnitude
  | none => false

/-- Whether a text without underscores is an integer. After `0b` and `0o` there may be a sign. -/
def isInteger (text : Text) : Bool :=
  isSigned magnitude? text ||
    match text with
    | 0x30 :: 0x62 :: rest => isSigned (Decimal.digits? 2) rest
    | 0x30 :: 0x6F :: rest => isSigned (Decimal.digits? 8) rest
    | _ => false

/-- Whether a text without underscores is a float. -/
def isFloat (text : Text) : Bool :=
  match Decimal.read? (Literal.splitSign text).2 with
  | some decimal => !decimal.overflows
  | none => false

/-- The byte that may separate digits. -/
def underscore : UInt8 := 0x5F

/-- A text without its underscores. -/
def withoutUnderscores (text : Text) : Text := text.filter (· != underscore)

/-- Whether every underscore has a digit on both sides, given the byte before the text. -/
def separatesDigits (before : UInt8) : Text → Bool
  | [] => before != underscore
  | byte :: rest =>
    (byte != underscore || isDigit before) && (before != underscore || isDigit byte) &&
      separatesDigits byte rest

/-- Whether a text that starts with a digit or a sign reads as a number. -/
def isNumber (text : Text) : Bool :=
  let plain := withoutUnderscores text
  isInteger plain || isFloat plain

/-- Whether a text that starts with a point reads as a number. Underscores may only stand between
digits. -/
def isPointNumber (text : Text) : Bool :=
  separatesDigits 0 text && isFloat (withoutUnderscores text)

/-- Whether a text is a number below sixty, of one or two digits. -/
def isSixtieth : Text → Bool
  | [digit] => isDigit digit
  | [tens, digit] => 0x30 ≤ tens && tens ≤ 0x35 && isDigit digit
  | _ => false

/-- Whether a text consists of digits and underscores. -/
def isSpacedDigits (text : Text) : Bool :=
  text.all fun byte => isDigit byte || byte == underscore

/-- Whether a text is the last place of a number in base sixty, which may have a fraction. -/
def isLastSixtieth (text : Text) : Bool :=
  match text.split (Text.byte '.') with
  | [whole] => isSixtieth whole
  | [whole, fraction] => isSixtieth whole && isSpacedDigits fraction
  | _ => false

/-- Whether a text is a number in base sixty, with colons between its places, which older readers of YAML
know. -/
def isSexagesimal (text : Text) : Bool :=
  match (Literal.splitSign text).2.split (Text.byte ':') with
  | whole :: place :: places =>
    whole.head?.any isDigit && isSpacedDigits whole &&
      (place :: places).dropLast.all isSixtieth && isLastSixtieth ((place :: places).getLastD [])
  | _ => false

end IntegerMachine.Yaml
