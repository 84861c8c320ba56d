import IntegerMachine.Input
import IntegerMachine.Sink

/-!
# Line trackers

A line tracker is buffered output that remembers the line it is in: the text after the last line feed,
of which it keeps at most 256 bytes, cut in front of a byte that does not continue a character. A
prompt is that line without its control characters.
-/
namespace IntegerMachine

/-- Buffered output with the line it is in. -/
structure LineTracker where
  buffer : Buffer := {}
  /-- The end of the text since the last line feed. -/
  partialLine : Text := []
  deriving DecidableEq, Repr

namespace LineTracker

/-- The number of bytes that are kept of a line. -/
def lineLimit : Nat := 256

/-- The text after the last line feed, or `none` if there is no line feed. -/
def afterLineFeed? : Text → Option Text
  | [] => none
  | first :: rest =>
    match afterLineFeed? rest with
    | some line => some line
    | none => if first = Text.lineFeed then some rest else none

/-- The end of a line that is kept. -/
def keep (line : Text) : Text :=
  if line.length ≤ lineLimit then line
  else (line.drop (line.length - lineLimit)).dropWhile Text.continues

/-- The line after some output. -/
def follow (line output : Text) : Text :=
  match afterLineFeed? output with
  | some rest => keep rest
  | none => keep (line ++ output)

/-- Writes a text. -/
def write (tracker : LineTracker) (sink : Sink) (text : Text) : Buffer.Taken × LineTracker × Sink :=
  let (taken, buffer, sink) := tracker.buffer.write sink text
  (taken, { buffer, partialLine := follow tracker.partialLine text }, sink)

/-- Passes on what is pending. -/
def flush (tracker : LineTracker) (sink : Sink) : Option Text × LineTracker × Sink :=
  let (failure, buffer, sink) := tracker.buffer.flush sink
  (failure, { tracker with buffer }, sink)

/-- The line without its control characters. -/
def prompt (tracker : LineTracker) : Text :=
  .ofCharacters (tracker.partialLine.characters.filter fun character =>
    0x20 ≤ character.toNat && character.toNat ≠ 0x7F)

end LineTracker

end IntegerMachine
