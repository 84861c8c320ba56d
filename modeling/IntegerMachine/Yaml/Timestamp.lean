import IntegerMachine.Calendar
import IntegerMachine.Yaml.Number

/-!
# Timestamps in YAML

Which plain scalars read as points in time: a date, or a date and a time of day, either after `T` or `t` with
a time zone, or after blanks without one. All numbers but the year have one or two digits.
-/
namespace IntegerMachine.Yaml

open Decimal (isDigit digits?)

/-- Reads a number of one or two digits. -/
def short? : Text → Option (Nat × Text)
  | [] => none
  | first :: rest =>
    if !isDigit first then none
    else match rest with
      | second :: rest =>
        if isDigit second then some ((first.toNat - 0x30) * 10 + (second.toNat - 0x30), rest)
        else some (first.toNat - 0x30, second :: rest)
      | [] => some (first.toNat - 0x30, [])

/-- Reads a number of one or two digits that is below a limit. -/
def shortBelow? (limit : Nat) (text : Text) : Option (Nat × Text) :=
  (short? text).filter fun read => read.1 < limit

/-- Reads a byte. -/
def mark? (mark : Char) : Text → Option Text
  | [] => none
  | first :: rest => if first = Text.byte mark then some rest else none

/-- Reads a date: four digits of the year, the month and the day. -/
def date? (text : Text) : Option Text := do
  let year ← if 4 ≤ text.length then digits? 10 (text.take 4) else none
  let rest ← mark? '-' (text.drop 4)
  let (month, rest) ← short? rest
  let rest ← mark? '-' rest
  let (day, rest) ← short? rest
  if isDate year month day then some rest else none

/-- Skips a fraction of a second. -/
def skipFraction : Text → Text
  | point :: first :: rest =>
    if (point == 0x2E || point == 0x2C) && isDigit first then rest.dropWhile isDigit
    else point :: first :: rest
  | text => text

/-- Reads a time of day. -/
def clock? (text : Text) : Option Text := do
  let (_, rest) ← shortBelow? 24 text
  let rest ← mark? ':' rest
  let (_, rest) ← shortBelow? 60 rest
  let rest ← mark? ':' rest
  let (_, rest) ← shortBelow? 60 rest
  return skipFraction rest

/-- Whether a text is a time zone: `Z`, or a sign and hours and minutes of two digits each. -/
def isZone (text : Text) : Bool :=
  match text with
  | [0x5A] => true
  | [sign, hour, hour', 0x3A, minute, minute'] =>
    hasSign [sign] && ((digits? 10 [hour, hour']).any (· ≤ 24)) &&
      ((digits? 10 [minute, minute']).any (· ≤ 60))
  | _ => false

/-- Whether a text reads as a point in time. -/
def isTimestamp (text : Text) : Bool :=
  match date? text with
  | none => false
  | some [] => true
  | some (first :: rest) =>
    if first == Text.byte 'T' || first == Text.byte 't' then (clock? rest).any isZone
    else first == Text.byte ' ' &&
      (clock? (rest.dropWhile (· == Text.byte ' '))).any List.isEmpty

end IntegerMachine.Yaml
