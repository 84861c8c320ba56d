import IntegerMachine.Text.Utf8

/-!
# Line input

Input comes from a stack of sources. A read takes the next line of the newest source; a source whose
lines are used up is dropped and the one below it is read, unless it ends in a failure, which is then
reported by every further read.

The stack is one list. It stands for the three forms that such an input may have: none at all, a single
reader, and a reader that goes on to the next of several readers when one is used up. A source that is
pushed goes in front of whatever is there, in each of these forms. How a reader fetches and keeps the bytes
of its lines lies outside of this module: a source has its lines from the start, and what it ends in.
-/
namespace IntegerMachine

namespace Text

/-- The byte that ends a line. -/
def lineFeed : UInt8 := 0x0A

/-- Whether a byte is a line feed or a carriage return. -/
def isLineEnd (byte : UInt8) : Bool := byte == 0x0A || byte == 0x0D

/-- The pieces of a text cut after each line feed; a last piece without one counts if it is not
empty. -/
def pieces : Text → List Text
  | [] => []
  | first :: rest =>
    if first = lineFeed then [first] :: pieces rest
    else match pieces rest with
      | [] => [[first]]
      | piece :: others => (first :: piece) :: others

/-- The lines of a text: its pieces without the line feeds and carriage returns at their ends. -/
def lines (text : Text) : List Text := text.pieces.map (trimRight isLineEnd)

end Text

/-- Lines, and how reading goes on after the last one: by the end of the input, or by a failure. -/
structure LineSource where
  lines : List Text
  failure : Option Text := none
  deriving DecidableEq, Repr

/-- The source of the lines of a text. -/
def LineSource.ofText (text : Text) (failure : Option Text := none) : LineSource :=
  { lines := text.lines, failure }

/-- A stack of sources, the newest first. -/
abbrev Input := List LineSource

namespace Input

/-- Reads a line: nothing at the end of all sources, or the failure that a source ends in. -/
def readLine : Input → Except Text (Option Text) × Input
  | [] => (.ok none, [])
  | source :: older =>
    match source.lines, source.failure with
    | line :: rest, _ => (.ok (some line), { source with lines := rest } :: older)
    | [], some failure => (.error failure, source :: older)
    | [], none => readLine older

/-- The value of a line: the code point of its first character, and zero for the empty line. -/
def firstCharacter (line : Text) : Int :=
  match line.glyphs with
  | [] => 0
  | glyph :: _ => glyph.value.toNat

/-- Reads the value of the next line, which is zero at the end of the input. -/
def readValue (input : Input) : Except Text Int × Input :=
  match input.readLine with
  | (.ok line, rest) => (.ok (firstCharacter (line.getD [])), rest)
  | (.error failure, rest) => (.error failure, rest)

end Input

end IntegerMachine
