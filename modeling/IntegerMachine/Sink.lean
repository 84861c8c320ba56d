import IntegerMachine.Text.Basic

/-!
# Sinks and buffers

A sink receives bytes. It may have a capacity: a write that would bring its contents above it is
refused as a whole. A buffer collects bytes in front of a sink and passes them on when it is full or
flushed. After a refused write a buffer takes nothing more and keeps reporting that failure.
-/
namespace IntegerMachine

/-- The receiver of bytes. -/
structure Sink where
  received : Array UInt8 := #[]
  /-- The number of bytes it takes, and the failure it reports beyond; unlimited when absent. -/
  capacity : Option (Nat × Text) := none
  deriving DecidableEq, Repr

namespace Sink

/-- What the sink has received. -/
def text (sink : Sink) : Text := sink.received.toList

/-- Passes a text on as one write; gives the failure if the sink refuses it. -/
def write (sink : Sink) (text : Text) : Option Text × Sink :=
  match sink.capacity with
  | some (size, failure) =>
    if size < sink.received.size + text.length then (some failure, sink)
    else (none, { sink with received := sink.received.appendList text })
  | none => (none, { sink with received := sink.received.appendList text })

end Sink

/-- Bytes on their way to a sink. -/
structure Buffer where
  pending : Array UInt8 := #[]
  /-- The failure of a write to the sink, which every later operation reports. -/
  failure : Option Text := none
  deriving DecidableEq, Repr

namespace Buffer

/-- The number of bytes that a buffer holds at most. -/
def size : Nat := 4096

/-- The number of bytes for which there is room. -/
def available (buffer : Buffer) : Nat := size - buffer.pending.size

/-- The buffer with a text added at its end. -/
def append (buffer : Buffer) (text : Text) : Buffer :=
  { buffer with pending := buffer.pending.appendList text }

/-- Passes on what is pending; gives the failure of the buffer if there is one. -/
def flush (buffer : Buffer) (sink : Sink) : Option Text × Buffer × Sink :=
  if buffer.failure.isSome then (buffer.failure, buffer, sink)
  else if buffer.pending.isEmpty then (none, buffer, sink)
  else match sink.write buffer.pending.toList with
    | (none, sink) => (none, { buffer with pending := #[] }, sink)
    | (some failure, sink) => (some failure, { buffer with failure := some failure }, sink)

/-- The result of a write: the number of bytes taken, and the failure if there is one. -/
structure Taken where
  count : Nat
  failure : Option Text := none
  deriving DecidableEq, Repr

/-- Writes a text into a buffer with no pending bytes: a text that does not fit into the buffer goes
to the sink at once. -/
def writeEmpty (buffer : Buffer) (sink : Sink) (text : Text) : Taken × Buffer × Sink :=
  if text.length ≤ size then ({ count := text.length }, buffer.append text, sink)
  else match sink.write text with
    | (none, sink) => ({ count := text.length }, buffer, sink)
    | (some failure, sink) =>
      ({ count := 0, failure := some failure }, { buffer with failure := some failure }, sink)

/-- Writes a text. If it does not fit, the buffer is filled up and flushed, and the rest follows. -/
def write (buffer : Buffer) (sink : Sink) (text : Text) : Taken × Buffer × Sink :=
  if buffer.failure.isSome then ({ count := 0, failure := buffer.failure }, buffer, sink)
  else if text.length ≤ buffer.available then
    ({ count := text.length }, buffer.append text, sink)
  else if buffer.pending.isEmpty then buffer.writeEmpty sink text
  else
    let room := buffer.available
    match (buffer.append (text.take room)).flush sink with
    | (some failure, buffer, sink) => ({ count := room, failure := some failure }, buffer, sink)
    | (none, buffer, sink) =>
      let (taken, rest) := buffer.writeEmpty sink (text.drop room)
      ({ taken with count := room + taken.count }, rest)

/-- Writes a text after making room for `room` bytes, at least as many as the text has. -/
def writeWithin (buffer : Buffer) (sink : Sink) (room : Nat) (text : Text) :
    Option Text × Buffer × Sink :=
  if buffer.failure.isSome then (buffer.failure, buffer, sink)
  else if room ≤ buffer.available then (none, buffer.append text, sink)
  else match buffer.flush sink with
    | (none, buffer, sink) => (none, buffer.append text, sink)
    | failed => failed

end Buffer

end IntegerMachine
