import IntegerMachine.Text.Basic

/-!
# Base 64

Three bytes are written as four letters of six bits each; `=` fills up the last group.
-/
namespace IntegerMachine.Text

/-- The letter of a number below 64. -/
def base64Letter (value : Nat) : UInt8 :=
  if value < 26 then (0x41 + value).toUInt8
  else if value < 52 then (0x61 + (value - 26)).toUInt8
  else if value < 62 then (0x30 + (value - 52)).toUInt8
  else if value = 62 then byte '+'
  else byte '/'

/-- The letter at a place of a group of 24 bits, counted from the right. -/
def base64At (group place : Nat) : UInt8 := base64Letter (group / Nat.pow 64 place % 64)

/-- The letters of the bytes of a text. -/
def base64 : Text → Text
  | [] => []
  | [first] =>
    let group := first.toNat * 0x10000
    [base64At group 3, base64At group 2, byte '=', byte '=']
  | [first, second] =>
    let group := first.toNat * 0x10000 + second.toNat * 0x100
    [base64At group 3, base64At group 2, base64At group 1, byte '=']
  | first :: second :: third :: rest =>
    let group := first.toNat * 0x10000 + second.toNat * 0x100 + third.toNat
    base64At group 3 :: base64At group 2 :: base64At group 1 :: base64At group 0 :: base64 rest

/-- Cuts a text after every `width` bytes and ends each piece with a line feed, given how many bytes the
current line has. -/
def wrapAfter (width : Nat) (count : Nat) : Text → Text
  | [] => if count = 0 then [] else "\n"
  | first :: rest =>
    if count = width then byte '\n' :: first :: wrapAfter width 1 rest
    else first :: wrapAfter width (count + 1) rest

end IntegerMachine.Text
