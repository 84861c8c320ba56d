import IntegerMachine.Literal

/-!
# Numbers on the command line

A number has an optional sign and digits, which are decimal, or binary, octal or hexadecimal after a mark, or octal
after a zero. Underscores may stand between digits and behind a mark. A number must fit 64 bits; the first digit
that is wrong, or that makes the number too large, decides how it is refused.
-/
namespace IntegerMachine.CommandLine

/-- How a number is refused. -/
inductive NumberError where
  | malformed
  | outOfRange
  deriving DecidableEq, Repr

/-- The wording of the refusal. -/
def NumberError.message : NumberError → Text
  | malformed => "parse error"
  | outOfRange => "value out of range"

/-- The byte that may separate digits. -/
def separator : UInt8 := 0x5F

/-- Reads digits of a 64-bit number, continuing the number read before them. -/
def moreDigits (base number : Nat) : Text → Except NumberError Nat
  | [] => .ok number
  | byte :: rest =>
    if byte = separator then moreDigits base number rest
    else match Literal.digitIn base byte with
      | none => .error .malformed
      | some digit =>
        let next := number * base + digit
        if 0x10000000000000000 ≤ next then .error .outOfRange else moreDigits base next rest

/-- The base of an unsigned number, and the digits after its mark. -/
def splitBase (text : Text) : Nat × Text :=
  match text with
  | 0x30 :: mark :: first :: rest =>
    if Literal.isLetterByte 'b' mark then (2, first :: rest)
    else if Literal.isLetterByte 'o' mark then (8, first :: rest)
    else if Literal.isLetterByte 'x' mark then (16, first :: rest)
    else (8, mark :: first :: rest)
  | 0x30 :: rest => (8, rest)
  | _ => (10, text)

/-- Whether every separator has a digit on both sides; the flag says whether there is one in front. -/
def separatesDigits (afterDigit : Bool) : Text → Bool
  | [] => true
  | byte :: rest =>
    if byte = separator then
      afterDigit && rest.head?.any (· != separator) && separatesDigits false rest
    else separatesDigits true rest

/-- Reads an unsigned number. A mark counts as a digit in front of a separator. -/
def unsigned (text : Text) : Except NumberError Nat := do
  if text.isEmpty then throw .malformed
  let (base, digits) := splitBase text
  let number ← moreDigits base 0 digits
  if separatesDigits (digits.length < text.length) digits then return number else throw .malformed

/-- Reads a number. -/
def integer (text : Text) : Except NumberError Int := do
  let (negative, digits) := Literal.splitSign text
  let magnitude ← unsigned digits
  if negative then
    if 0x8000000000000000 < magnitude then throw .outOfRange else return -(magnitude : Int)
  else if 0x8000000000000000 ≤ magnitude then throw .outOfRange
  else return magnitude

/-- Reads a truth value. -/
def truth? (text : Text) : Option Bool :=
  if text ∈ (["1", "t", "T", "TRUE", "true", "True"] : List Text) then some true
  else if text ∈ (["0", "f", "F", "FALSE", "false", "False"] : List Text) then some false
  else none

end IntegerMachine.CommandLine
