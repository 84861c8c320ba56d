import IntegerMachine.Literal
import IntegerMachine.LineTracker

/-!
# Character output

Cells are written as characters to a device in front of a sink. Devices that know characters write
U+FFFD for a cell that is no code point. The other devices receive bytes: for them every cell below
128, negative ones included, is its low byte.
-/
namespace IntegerMachine

/-- The way from the machine to the sink. -/
inductive Device where
  /-- Nothing is written. -/
  | none
  /-- Characters go to the sink one by one. -/
  | characters
  /-- Characters are collected in a buffer. -/
  | buffered (buffer : Buffer)
  /-- Bytes go to the sink at once; flushing may fail. -/
  | bytes (flushFailure : Option Text)
  /-- Bytes go to a line tracker. -/
  | tracked (tracker : LineTracker)
  deriving DecidableEq, Repr

/-- A device and the sink behind it. -/
structure Output where
  device : Device := .none
  sink : Sink := {}
  deriving DecidableEq, Repr

namespace Output

/-- A cell for a device that knows characters. -/
def encodeCharacter (cell : Cell) : Text := .ofCodePoint cell.toInt

/-- A cell for a device that receives bytes. -/
def encodeBytes (cell : Cell) : Text :=
  if cell < 128 then [cell.toUInt32.toUInt8] else .ofCodePoint cell.toInt

/-- Writes a cell; gives the failure of the device if there is one. -/
def put (output : Output) (cell : Cell) : Option Text × Output :=
  match output.device with
  | .none => (none, output)
  | .characters =>
    let (failure, sink) := output.sink.write (encodeCharacter cell)
    (failure, { output with sink })
  | .buffered buffer =>
    let room := if 0 ≤ cell ∧ cell < 128 then 1 else 4
    let (failure, buffer, sink) := buffer.writeWithin output.sink room (encodeCharacter cell)
    (failure, { device := .buffered buffer, sink })
  | .bytes _ =>
    let (failure, sink) := output.sink.write (encodeBytes cell)
    (failure, { output with sink })
  | .tracked tracker =>
    let (taken, tracker, sink) := tracker.write output.sink (encodeBytes cell)
    (taken.failure, { device := .tracked tracker, sink })

/-- Passes on what a device holds back; gives the failure of the device if there is one. -/
def flush (output : Output) : Option Text × Output :=
  match output.device with
  | .none | .characters => (none, output)
  | .buffered buffer =>
    let (failure, buffer, sink) := buffer.flush output.sink
    (failure, { device := .buffered buffer, sink })
  | .bytes flushFailure => (flushFailure, output)
  | .tracked tracker =>
    let (failure, tracker, sink) := tracker.flush output.sink
    (failure, { device := .tracked tracker, sink })

end Output

end IntegerMachine
