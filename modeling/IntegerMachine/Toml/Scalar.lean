import IntegerMachine.Calendar
import IntegerMachine.Decimal
import IntegerMachine.Toml.Value

/-!
# TOML numbers, dates and times

A word that starts like a number is an integer, a float, or a date or time. Underscores must stand between
digits, and decimal numbers have no leading zeros. Integers must fit 64 bits, and floats double precision.
-/
namespace IntegerMachine.Toml

/-- The value of a digit of a base. -/
def digit? (base : Nat) (character : Char) : Option Nat :=
  let value :=
    if '0' ≤ character ∧ character ≤ '9' then some (character.toNat - '0'.toNat)
    else if 'a' ≤ character ∧ character ≤ 'f' then some (character.toNat - 'a'.toNat + 10)
    else if 'A' ≤ character ∧ character ≤ 'F' then some (character.toNat - 'A'.toNat + 10)
    else none
  value.filter (· < base)

/-- The number written by digits with underscores between them. The flag says whether a digit stands in front. -/
def digitsAfter (base : Nat) (number : Nat) (afterDigit : Bool) : List Char → Option Nat
  | [] => if afterDigit then some number else none
  | character :: rest =>
    if character = '_' then if afterDigit then digitsAfter base number false rest else none
    else match digit? base character with
      | none => none
      | some digit => digitsAfter base (number * base + digit) true rest

/-- The number written by one or more digits with underscores between them. -/
def digits? (base : Nat) (word : List Char) : Option Nat := digitsAfter base 0 false word

/-- Whether a decimal number starts with a zero that it does not need. -/
def hasLeadingZero : List Char → Bool
  | '0' :: _ :: _ => true
  | _ => false

/-- The number of decimal digits without leading zeros. -/
def decimal? (word : List Char) : Option Nat :=
  if hasLeadingZero word then none else digits? 10 word

/-- A word without its sign, and whether the sign is negative. -/
def splitSign : List Char → Bool × List Char
  | '-' :: rest => (true, rest)
  | '+' :: rest => (false, rest)
  | word => (false, word)

/-- Whether a number fits 64 bits with its sign. -/
def fitsWord (negative : Bool) (magnitude : Nat) : Bool :=
  if negative then magnitude ≤ 0x8000000000000000 else magnitude < 0x8000000000000000

/-- An integer: decimal with an optional sign, or hexadecimal, octal or binary after its mark. -/
def integer? (word : List Char) : Option Int :=
  match word with
  | '0' :: 'x' :: rest => ((digits? 16 rest).filter (fitsWord false)).map Int.ofNat
  | '0' :: 'o' :: rest => ((digits? 8 rest).filter (fitsWord false)).map Int.ofNat
  | '0' :: 'b' :: rest => ((digits? 2 rest).filter (fitsWord false)).map Int.ofNat
  | _ =>
    let (negative, unsigned) := splitSign word
    ((decimal? unsigned).filter (fitsWord negative)).map fun magnitude =>
      if negative then -(magnitude : Int) else magnitude

/-- Whether a character may start an exponent. -/
def isExponentMark (character : Char) : Bool := character == 'e' || character == 'E'

/-- Whether a decimal number without its sign is in the range of double precision. Underscores do not count. -/
def isInRange (unsigned : List Char) : Bool :=
  match Decimal.read? (.ofCharacters (unsigned.filter (· != '_'))) with
  | some decimal => !decimal.overflows
  | none => false

/-- Whether a word is a float: a special one, or decimal digits with a fraction or an exponent. -/
def isFloat (word : List Char) : Bool :=
  let unsigned := (splitSign word).2
  if unsigned == "inf".toList || unsigned == "nan".toList then true
  else
    let mantissa := unsigned.takeWhile fun character => !isExponentMark character
    let exponent := unsigned.drop mantissa.length
    let whole := mantissa.takeWhile (· != '.')
    let fraction := mantissa.drop whole.length
    (decimal? whole).isSome && (!fraction.isEmpty || !exponent.isEmpty) &&
      (fraction.isEmpty || (digits? 10 fraction.tail).isSome) &&
      (exponent.isEmpty || (digits? 10 (splitSign exponent.tail).2).isSome) && isInRange unsigned

/-- The number of exactly two digits that is at most a limit. -/
def twoDigits? (limit : Nat) (word : List Char) : Option Nat :=
  if word.length = 2 ∧ word.all Char.isDigit then (digits? 10 word).filter (· ≤ limit) else none

/-- A word cut at each occurrence of a character. -/
def cutAt (mark : Char) : List Char → List (List Char)
  | [] => [[]]
  | character :: rest =>
    match cutAt mark rest with
    | [] => [[]]
    | piece :: pieces =>
      if character = mark then [] :: piece :: pieces else (character :: piece) :: pieces

/-- Whether a word is seconds, which may have a fraction. -/
def isSeconds (word : List Char) : Bool :=
  match cutAt '.' word with
  | [whole] => (twoDigits? 59 whole).isSome
  | [whole, fraction] =>
    (twoDigits? 59 whole).isSome && !fraction.isEmpty && fraction.all Char.isDigit
  | _ => false

/-- Whether a word is a time of day; seconds may be left out. -/
def isClock (word : List Char) : Bool :=
  match cutAt ':' word with
  | [hour, minute] => (twoDigits? 23 hour).isSome && (twoDigits? 59 minute).isSome
  | [hour, minute, second] =>
    (twoDigits? 23 hour).isSome && (twoDigits? 59 minute).isSome && isSeconds second
  | _ => false

/-- Whether a word is a date. -/
def isDay (word : List Char) : Bool :=
  match cutAt '-' word with
  | [year, month, day] =>
    match digits? 10 year, twoDigits? 12 month, twoDigits? 31 day with
    | some yearNumber, some monthNumber, some dayNumber =>
      year.length == 4 && year.all Char.isDigit && isDate yearNumber monthNumber dayNumber
    | _, _, _ => false
  | _ => false

/-- Whether a word is a time of day with an offset, or without one. -/
def isZonedClock (word : List Char) : Bool :=
  match word.getLast? with
  | some 'Z' | some 'z' => isClock word.dropLast
  | _ =>
    let offset := word.drop (word.length - 6)
    match offset with
    | [sign, hour, hour', ':', minute, minute'] =>
      if sign = '+' ∨ sign = '-' then
        isClock (word.take (word.length - 6)) && (twoDigits? 24 [hour, hour']).isSome &&
          (twoDigits? 60 [minute, minute']).isSome
      else isClock word
    | _ => isClock word

/-- Whether a word is a date, a time of day, or both with a letter or a blank between them. -/
def isMoment (word : List Char) : Bool :=
  isDay word || isClock word ||
    (isDay (word.take 10) &&
      match word.drop 10 with
      | mark :: clock => (mark == 'T' || mark == 't' || mark == ' ') && isZonedClock clock
      | [] => false)

/-- The value of a word that starts with a digit, a sign, or like a special float. -/
def scalar? (word : List Char) : Option Value :=
  match integer? word with
  | some number => some (.integer number)
  | none =>
    if isFloat word then some .float
    else if isMoment word then some .moment
    else if word == "true".toList then some (.boolean true)
    else if word == "false".toList then some (.boolean false)
    else none

end IntegerMachine.Toml
