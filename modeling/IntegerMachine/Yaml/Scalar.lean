import IntegerMachine.Text.Base64
import IntegerMachine.Text.Quoted
import IntegerMachine.Yaml.Timestamp

/-!
# Strings in YAML

A string is written plain if that reads back as the same string, else between quotes. Double quotes are for
strings that would read as something else and for characters that have to be escaped; single quotes are for
strings that YAML's own marks would break up. Strings with line feeds are written as blocks of lines, and
strings that are not UTF-8 in base 64. No line is ever wrapped.
-/
namespace IntegerMachine.Yaml

/-- The words that read as a truth value, as nothing, or as a special float. -/
def specialWords : List Text :=
  ["true", "True", "TRUE", "false", "False", "FALSE", "", "~", "null", "Null", "NULL", ".nan", ".NaN",
    ".NAN", ".inf", ".Inf", ".INF", "+.inf", "+.Inf", "+.INF", "-.inf", "-.Inf", "-.INF"]

/-- The words that older readers of YAML take for truth values. -/
def olderTruths : List Text :=
  ["y", "Y", "yes", "Yes", "YES", "on", "On", "ON", "n", "N", "no", "No", "NO", "off", "Off", "OFF"]

/-- Whether a plain scalar reads as a string. -/
def readsAsString (text : Text) : Bool :=
  if text ∈ specialWords || text ∈ olderTruths then false
  else match text with
    | [] => false
    | first :: _ =>
      if first == Text.byte '.' then !isPointNumber text
      else if Decimal.isDigit first || hasSign [first] then
        !(isTimestamp text || isNumber text || isSexagesimal text)
      else true

/-! ## Characters -/

/-- Whether a character can stand outside of an escape. -/
def isPlainCharacter (character : Char) : Bool :=
  let point := character.toNat
  point == 0x0A || (0x20 ≤ point && point ≤ 0x7E) || (0xA0 ≤ point && point ≤ 0xFFFD && point != 0xFEFF)

/-- Whether a character ends a line. -/
def isBreak (character : Char) : Bool :=
  character.toNat ∈ [0x0A, 0x0D, 0x85, 0x2028, 0x2029]

/-- Whether a character is a space or a tab. -/
def isBlank (character : Char) : Bool := character == ' ' || character == '\t'

/-- Whether a character separates words: a blank, a break or a null. -/
def isSeparator (character : Char) : Bool :=
  isBlank character || isBreak character || character.toNat == 0

/-- Whether two neighbouring characters pass a test. -/
def anyNeighbours (test : Char → Char → Bool) (characters : List Char) : Bool :=
  (characters.zip characters.tail).any fun pair => test pair.1 pair.2

/-- Whether a character is one that no string can start with without quotes. -/
def isIndicator (character : Char) : Bool :=
  character ∈ ['#', ',', '[', ']', '\x7b', '\x7d', '&', '*', '!', '|', '>', '\'', '"', '%', '@', '\x60']

/-- Whether a string would be broken up by the marks of YAML: those it starts with, a colon in front of a
blank or at the end, and a number sign behind a blank. -/
def hasMarks (characters : List Char) : Bool :=
  let start := characters.take 3
  start == ['-', '-', '-'] || start == ['.', '.', '.'] ||
    (match characters with
      | [] => false
      | first :: rest =>
        isIndicator first ||
          ((first == '?' || first == '-') && (rest.head?.map isBlank).getD true)) ||
    characters.getLast? == some ':' ||
    anyNeighbours (fun left right => left == ':' && isBlank right) characters ||
    anyNeighbours (fun left right => isSeparator left && right == '#') characters

/-- Whether a character has to be escaped; a tab has not, but it is not plain either. -/
def isSpecial (character : Char) : Bool := character != '\t' && !isPlainCharacter character

/-- Whether a space stands in front of a break. -/
def hasSpaceBreak (characters : List Char) : Bool :=
  anyNeighbours (fun left right => left == ' ' && isBreak right) characters

/-- Whether a space stands behind a break. -/
def hasBreakSpace (characters : List Char) : Bool :=
  anyNeighbours (fun left right => isBreak left && right == ' ') characters

/-- Whether a string can be written between single quotes. -/
def singleAllowed (characters : List Char) : Bool :=
  !(hasSpaceBreak characters || hasBreakSpace characters ||
    characters.any fun character => character == '\t' || isSpecial character)

/-- Whether a string that reads as a string can be written without quotes. -/
def plainAllowed (characters : List Char) : Bool :=
  singleAllowed characters && !characters.any isBreak && characters.head? != some ' ' &&
    characters.getLast? != some ' ' && !hasMarks characters

/-- Whether a string can be written as a block of lines. -/
def blockAllowed (characters : List Char) : Bool :=
  !(characters.getLast? == some ' ' || hasSpaceBreak characters || characters.any isSpecial)

/-! ## Styles -/

/-- The ways of writing a string. -/
inductive Style where
  | plain
  | single
  | double
  | block
  deriving DecidableEq, Repr

/-- The way of writing a string. -/
def styleOf (text : Text) : Style :=
  let characters := text.characters
  if '\n' ∈ characters then if blockAllowed characters then .block else .double
  else if !readsAsString text then .double
  else if plainAllowed characters then .plain
  else if singleAllowed characters then .single
  else .double

/-- The letter that stands for a character after a backslash. -/
def escapeLetter (character : Char) : Option Char :=
  match character.toNat with
  | 0x00 => some '0'
  | 0x07 => some 'a'
  | 0x08 => some 'b'
  | 0x09 => some 't'
  | 0x0A => some 'n'
  | 0x0B => some 'v'
  | 0x0C => some 'f'
  | 0x0D => some 'r'
  | 0x1B => some 'e'
  | 0x22 => some '"'
  | 0x5C => some '\\'
  | 0x85 => some 'N'
  | 0xA0 => some '_'
  | 0x2028 => some 'L'
  | 0x2029 => some 'P'
  | _ => none

/-- Hexadecimal digits with capital letters. -/
def capitalHex (width number : Nat) : Text :=
  (Text.hexDigits width number).map fun byte => if 0x61 ≤ byte then byte - 0x20 else byte

/-- A character by its escape. -/
def escaped (character : Char) : Text :=
  match escapeLetter character with
  | some letter => [Text.byte '\\', Text.byte letter]
  | none =>
    let point := character.toNat
    if point ≤ 0xFF then .concat ["\\x", capitalHex 2 point]
    else if point ≤ 0xFFFF then .concat ["\\u", capitalHex 4 point]
    else .concat ["\\U", capitalHex 8 point]

/-- Whether a character is escaped between double quotes. -/
def needsEscape (character : Char) : Bool :=
  !isPlainCharacter character || isBreak character || character == '"' || character == '\\'

/-- The mark of the byte order, which makes a string that starts with it be escaped as a whole. -/
def byteOrderMark : Char := '\uFEFF'

/-- A string between double quotes. -/
def doubleQuoted (characters : List Char) : Text :=
  let all := characters.head? == some byteOrderMark
  .concat ["\"",
    characters.flatMap fun character =>
      if all || needsEscape character then escaped character else Text.ofChar character,
    "\""]

/-- Blanks at the start of a line. -/
def margin (indent : Nat) : Text := List.replicate indent (Text.byte ' ')

/-- The inside of single quotes: quotes are doubled, and a line that follows a break is indented. -/
def singleInside (indent : Nat) (afterBreak : Bool) : List Char → Text
  | [] => []
  | character :: rest =>
    if isBreak character then Text.ofChar character ++ singleInside indent true rest
    else .concat [if afterBreak then margin indent else [],
      if character = '\'' then "''" else Text.ofChar character, singleInside indent false rest]

/-- A string between single quotes. -/
def singleQuoted (indent : Nat) (characters : List Char) : Text :=
  .concat ["'", singleInside indent false characters, "'"]

/-- What the first line of a block says about the lines: the indentation if it cannot be seen, and whether
line feeds at the end are dropped or kept. -/
def blockHints (characters : List Char) : Text :=
  .concat [
    if characters.head?.any fun first => first == ' ' || isBreak first then "2" else "",
    match characters.reverse with
    | [] => "-"
    | last :: before =>
      if !isBreak last then "-"
      else if (before.head?.map isBreak).getD true then "+"
      else ""]

/-- The lines of a block. The first line that is not empty also ends the first line of the block, unless a
break has done so. -/
def blockLines (indent : Nat) (first afterBreak : Bool) : List Char → Text
  | [] => []
  | character :: rest =>
    if isBreak character then Text.ofChar character ++ blockLines indent false true rest
    else .concat [if first then "\n" else [], if afterBreak then margin indent else [],
      Text.ofChar character, blockLines indent false false rest]

/-- A string as a block of lines. Any break at its end also ends the last line. -/
def blockScalar (indent : Nat) (characters : List Char) : Text :=
  .concat ["|", blockHints characters, blockLines indent true true characters,
    if characters.getLast?.any isBreak then [] else "\n"]

/-- The number of letters in a line of base 64. -/
def binaryWidth : Nat := 70

/-- A string that is not UTF-8. -/
def binary (indent : Nat) (text : Text) : Text :=
  let letters := text.base64
  .concat ["!!binary ",
    if letters.length < binaryWidth then .concat [letters, "\n"]
    else blockScalar indent (Text.characters (letters.wrapAfter binaryWidth 0))]

/-- A string and the end of its line, in a place whose lines are indented as given. -/
def string (indent : Nat) (text : Text) : Text :=
  if !text.isUtf8 then binary indent text
  else match styleOf text with
    | .plain => .concat [text, "\n"]
    | .single => .concat [singleQuoted indent text.characters, "\n"]
    | .double => .concat [doubleQuoted text.characters, "\n"]
    | .block => blockScalar indent text.characters

end IntegerMachine.Yaml
