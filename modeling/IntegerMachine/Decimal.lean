import IntegerMachine.Literal

/-!
# Decimal numbers

Numbers with a fraction and an exponent, as text formats write them, and whether they are in the range of double
precision. The value is compared exactly; nothing is rounded here.
-/
namespace IntegerMachine

/-- A decimal number without its sign: the digits of its mantissa, and the power of ten of the last of
them. -/
structure Decimal where
  digits : Text
  exponent : Int
  deriving DecidableEq, Repr

namespace Decimal

/-- Whether a byte is a decimal digit. -/
def isDigit (byte : UInt8) : Bool := 0x30 ≤ byte && byte ≤ 0x39

/-- The magnitude of one or more digits of a base. -/
def digits? (base : Nat) (digits : Text) : Option Nat :=
  if digits.isEmpty then none else Literal.fixedDigits base 0 digits

/-- The exponent in the rest of a decimal number; zero if there is none. -/
def exponent? : Text → Option Int
  | [] => some 0
  | mark :: rest =>
    if Literal.isLetterByte 'e' mark then
      let (negative, digits) := Literal.splitSign rest
      (digits? 10 digits).map (Literal.signed negative)
    else none

/-- Reads a decimal number without its sign: digits, an optional point among them or around them, and an
optional exponent. -/
def read? (text : Text) : Option Decimal :=
  let whole := text.takeWhile isDigit
  let rest := text.dropWhile isDigit
  let (fraction, rest) := match rest with
    | 0x2E :: after => (after.takeWhile isDigit, after.dropWhile isDigit)
    | _ => ([], rest)
  if whole.isEmpty && fraction.isEmpty then none
  else (exponent? rest).map fun exponent =>
    { digits := whole ++ fraction, exponent := exponent - fraction.length }

/-- The least number that rounds to infinity in double precision. -/
def overflowThreshold : Nat := Nat.pow 2 1024 - Nat.pow 2 970

/-- Whether a decimal number is beyond the range of double precision. Only numbers of 309 and 310 digits
need to be compared with the threshold. -/
def overflows (decimal : Decimal) : Bool :=
  let significant := decimal.digits.dropWhile (· == 0x30)
  let size : Int := significant.length + decimal.exponent
  let mantissa := (Literal.fixedDigits 10 0 significant).getD 0
  if significant.isEmpty || size < 309 then false
  else if 310 < size then true
  else if 0 ≤ decimal.exponent then
    overflowThreshold ≤ mantissa * Nat.pow 10 decimal.exponent.toNat
  else overflowThreshold * Nat.pow 10 (-decimal.exponent).toNat ≤ mantissa

end Decimal

end IntegerMachine
