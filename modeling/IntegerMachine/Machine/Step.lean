import IntegerMachine.Machine.Basic

/-!
# One step of the machine

A machine that is not halted looks at its innermost frame. If the frame has run past its last
instruction it is left: a pending value goes to the caller's stack, and the caller resumes at its call.
Otherwise the frame advances to its next instruction, which is then executed.

Returning a value does not leave the method: the value stays pending until the frame runs past its end.
-/
namespace IntegerMachine.Machine

/-- What a machine is about to do. -/
inductive Phase where
  /-- The run is over: the machine is halted or has no frames. -/
  | over
  /-- The innermost frame was left. -/
  | left (machine : Machine)
  /-- The innermost frame has advanced to an instruction. -/
  | ready (machine : Machine) (instruction : Instruction)
  deriving DecidableEq, Repr

/-- Leaves the innermost frame. -/
def leave (machine : Machine) (frame : Frame) : List Frame → Machine
  | [] => { machine with frames := [], final := machine.final.or (some frame) }
  | caller :: callers =>
    let resumed := { caller with
      stack := machine.pending.toList ++ caller.stack
      pc := frame.returnPc }
    { machine with
      frames := resumed :: callers
      pending := none
      journal := machine.journal.record
        (.returned frame.blueprint.name resumed.blueprint.name resumed.pc) }

/-- Leaves a frame that is at its end, or advances to the next instruction. -/
def next (machine : Machine) : Phase :=
  match machine.halted, machine.frames with
  | true, _ => .over
  | false, [] => .over
  | false, frame :: callers =>
    let pc := frame.pc + 1
    match frame.blueprint.code[pc.toNat]? with
    | none => .left (machine.leave frame callers)
    | some instruction =>
      .ready { machine with frames := { frame with pc } :: callers } instruction

/-- The machine with another innermost frame. -/
def continueWith (machine : Machine) (callers : List Frame) (outcome : Outcome Frame) :
    Outcome Machine :=
  { state := { machine with frames := outcome.state :: callers }, trap := outcome.trap }

/-- Calls a method: its arguments and the reference below them are popped, the deepest argument goes to
the first parameter, and a frame for the method becomes the innermost one. -/
def invoke (machine : Machine) (frame : Frame) (callers : List Frame) (name : Text) :
    Outcome Machine :=
  match machine.program.method? name with
  | none => machine.continueWith callers (frame.trapped (frame.fault .missingMethod name))
  | some method =>
    if machine.depthLimit ≤ machine.frames.length then
      machine.continueWith callers (frame.trapped (frame.fault .callOverflow name))
    else
      let count := method.params.length
      if frame.stack.length ≤ count then machine.continueWith callers frame.underflow
      else
        let caller := { frame with stack := frame.stack.drop (count + 1) }
        let arguments := (frame.stack.take count).reverse
        { state := { machine with
            frames := Frame.enter method frame.pc arguments :: caller :: callers
            journal := machine.journal.record
              (.called method.name frame.blueprint.name frame.pc (machine.frames.length + 1)) } }

/-- Executes an instruction in the innermost frame. -/
def executeIn (machine : Machine) (frame : Frame) (callers : List Frame)
    (instruction : Instruction) : Outcome Machine :=
  match instruction.opcode with
  | .invokevirtual =>
    match instruction.operands with
    | [] => machine.continueWith callers (frame.trapped (.badIndex 0 0))
    | name :: _ => machine.invoke frame callers name
  | .ireturn =>
    match frame.stack with
    | [] => machine.continueWith callers frame.underflow
    | value :: rest =>
      { machine with pending := some value }.continueWith callers { frame with stack := rest }.done
  | .input =>
    match machine.input.readValue with
    | (.error failure, input) =>
      { machine with input }.continueWith callers
        (frame.trapped (frame.fault .inputError [] (some failure)))
    | (.ok value, input) =>
      { machine with input }.continueWith callers (frame.push (Int32.ofInt value)).done
  | .output =>
    match frame.stack with
    | [] => machine.continueWith callers frame.underflow
    | value :: rest =>
      let frame := { frame with stack := rest }
      let (failure, output) := machine.output.put value
      { machine with output }.continueWith callers
        { state := frame, trap := failure.map fun text => frame.fault .outputError [] (some text) }
  | .halt =>
    { machine with
      halted := true
      journal := machine.journal.record (.halted frame.blueprint.name frame.pc) }.continueWith
        callers frame.done
  | _ => machine.continueWith callers (frame.perform machine.program instruction)

/-- Records an instruction if tracing is on. -/
def trace (machine : Machine) (frame : Frame) (instruction : Instruction) : Machine :=
  if machine.journal.tracing then
    { machine with
      journal := machine.journal.record
        (.traced frame.blueprint.name frame.pc instruction frame.stack) }
  else machine

/-- Counts an instruction if it is completed. -/
def count (outcome : Outcome Machine) : Outcome Machine :=
  match outcome.trap with
  | some _ => outcome
  | none => { state := { outcome.state with executed := outcome.state.executed + 1 } }

/-- Executes an instruction, and counts it if it is completed. -/
def execute (machine : Machine) (instruction : Instruction) : Outcome Machine :=
  match machine.frames with
  | [] => { state := machine }
  | frame :: callers =>
    count ((machine.trace frame instruction).executeIn frame callers instruction)

/-- Executes an instruction in a frame that is none of the machine's. The frame is gone afterwards, but a method
that it has called becomes the innermost frame. -/
def executeApart (machine : Machine) (frame : Frame) (instruction : Instruction) : Outcome Machine :=
  let outcome := (machine.trace frame instruction).executeIn frame machine.frames instruction
  let frames := outcome.state.frames
  count { outcome with
    state := { outcome.state with
      frames := frames.eraseIdx (frames.length - machine.frames.length - 1) } }

end IntegerMachine.Machine
