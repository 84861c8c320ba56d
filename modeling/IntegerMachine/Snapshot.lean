import IntegerMachine.Machine.Basic
import IntegerMachine.Yaml.Scalar

/-!
# Snapshots

A snapshot is the state of a machine as it is shown: the frames from the main block inwards, the pending
value, and how far the run has come. After the main block was left its final state is shown, marked as done.
-/
namespace IntegerMachine

/-- The state of a frame as it is shown. -/
structure FrameState where
  scope : Text
  pc : Int
  returnPc : Int
  /-- The text of the current instruction; empty before the first one. -/
  instruction : Text
  /-- The operand stack, the bottom first. -/
  stack : List Cell
  locals : List (Text × Option Cell)
  done : Bool := false
  deriving DecidableEq, Repr

/-- The state of a frame. -/
def Frame.state (frame : Frame) : FrameState :=
  { scope := frame.blueprint.name
    pc := frame.pc
    returnPc := frame.returnPc
    instruction :=
      if frame.pc < 0 then []
      else ((frame.blueprint.code[frame.pc.toNat]?).map Instruction.text).getD []
    stack := frame.stack.reverse
    locals := frame.blueprint.locals.zip frame.locals }

/-- The state of a machine as it is shown. -/
structure Snapshot where
  /-- The frames, the main block first. -/
  frames : List FrameState
  pending : Option Cell
  executed : Nat
  halted : Bool
  deriving DecidableEq, Repr

/-- The state of a machine. -/
def Machine.snapshot (machine : Machine) : Snapshot :=
  { frames :=
      if machine.frames.isEmpty then
        machine.final.toList.map fun main => { main.state with done := true }
      else machine.frames.reverse.map Frame.state
    pending := machine.pending
    executed := machine.executed
    halted := machine.halted }

namespace Snapshot

/-- An entry of a mapping on a line of its own. -/
def entry (key value : Text) : Text := .concat [key, ": ", value, "\n"]

/-- A list of values on one line. -/
def flow (values : List Cell) : Text :=
  .concat ["[", .join ", " (values.map Text.ofInt32), "]"]

/-- A string on the rest of the line, or in indented lines. -/
def stringEntry (indent : Nat) (key value : Text) : Text :=
  .concat [key, ": ", Yaml.string indent value]

/-- A local variable in the list of them. -/
def localEntry (named : Text × Option Cell) : Text :=
  .concat [
    stringEntry 10 "      - name" named.1,
    entry "        value" ((named.2.map Text.ofInt32).getD "null")]

/-- A frame in the list of them. -/
def frameEntry (frame : FrameState) : Text :=
  .concat [
    stringEntry 6 "  - scope" frame.scope,
    entry "    pc" (.ofInt frame.pc),
    entry "    return_pc" (.ofInt frame.returnPc),
    if frame.instruction.isEmpty then [] else stringEntry 6 "    instruction" frame.instruction,
    entry "    stack" (flow frame.stack),
    if frame.locals.isEmpty then []
    else .concat ["    locals:\n", frame.locals.flatMap localEntry],
    if frame.done then entry "    done" "true" else []]

/-- The snapshot as a YAML document. -/
def dump (snapshot : Snapshot) : Text :=
  .concat [
    if snapshot.frames.isEmpty then entry "frames" "[]"
    else .concat ["frames:\n", snapshot.frames.flatMap frameEntry],
    (snapshot.pending.map fun value => entry "pending_return" (.ofInt32 value)).getD [],
    entry "instructions" (.ofNat snapshot.executed),
    if snapshot.halted then entry "halted" "true" else []]

end Snapshot

end IntegerMachine
