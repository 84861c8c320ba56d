import IntegerMachine.Machine.Run
import IntegerMachine.Snapshot

/-!
# The debugger

The debugger is a hook that pauses before each instruction. It shows the state of the machine and reads a line
from the same input as the program. The first byte of the line is the command: `c` goes on without pauses, `q` or
the byte 4 ends the run, and everything else executes one instruction. The end of the input ends the run too.
-/
namespace IntegerMachine

/-- The state of the debugger. -/
structure Debugger where
  /-- What was shown, the latest first. -/
  shown : List Text := []
  /-- Whether the run goes on without pauses. -/
  continued : Bool := false
  /-- The number of pauses so far. -/
  steps : Nat := 0
  deriving DecidableEq, Repr

namespace Debugger

/-- Everything that was shown. -/
def transcript (debugger : Debugger) : Text := .concat debugger.shown.reverse

/-- What the line read at a pause asks for. -/
inductive Command where
  | step
  | continue
  | quit
  deriving DecidableEq, Repr

/-- The command of a line, which is its first byte. -/
def Command.ofLine : Text → Command
  | [] => step
  | first :: _ =>
    if first = Text.byte 'c' ∨ first = Text.byte 'C' then .continue
    else if first = Text.byte 'q' ∨ first = Text.byte 'Q' ∨ first = 4 then .quit
    else .step

/-- What is shown at a pause. -/
def pauseText (steps : Nat) (machine : Machine) : Text :=
  .concat ["\n--- step ", .ofNat steps, "\n", machine.snapshot.dump,
    "[space/s] step  [c] continue  [q] quit: "]

/-- The debugger after a pause. -/
def pause (debugger : Debugger) (machine : Machine) : Debugger :=
  let steps := debugger.steps + 1
  { debugger with steps, shown := "\n" :: pauseText steps machine :: debugger.shown }

/-- Reads a command and carries it out. -/
def obey (debugger : Debugger) (machine : Machine) : Reply Debugger :=
  let (line, input) := machine.input.readLine
  let machine := { machine with input }
  match line with
  | .error failure => { state := debugger, machine, verdict := .stop (.failed failure) }
  | .ok none => { state := debugger, machine, verdict := .stop .requested }
  | .ok (some line) =>
    match Command.ofLine line with
    | .step => { state := debugger, machine }
    | .continue => { state := { debugger with continued := true }, machine }
    | .quit => { state := debugger, machine, verdict := .stop .requested }

/-- Pauses before an instruction, after passing on the output so far. -/
def hook : Hook Debugger := fun debugger machine =>
  if debugger.continued then { state := debugger, machine }
  else
    let (failure, output) := machine.output.flush
    let machine := { machine with output }
    match failure with
    | some failure =>
      { state := { debugger with steps := debugger.steps + 1 }
        machine
        verdict := .stop (.failed failure) }
    | none => (debugger.pause machine).obey machine

end Debugger

end IntegerMachine
