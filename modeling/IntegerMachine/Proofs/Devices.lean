import IntegerMachine.Machine.Run
import IntegerMachine.Proofs.Effects

/-!
# Machines and their devices

One instruction reads a line and one writes a character. All others, and leaving a frame, neither ask a device nor
change one. An instruction therefore does the same on a machine that is connected to other devices, provided that these
give the same answers; what it makes of the devices is a function of the devices alone.

Two runs on different devices are compared along the instructions that they dispatch. The list of these is a function
of the run, as long as its fuel allows.
-/
namespace IntegerMachine

/-- The value that an instruction takes from a frame and writes. -/
def Frame.written (frame : Frame) (instruction : Instruction) : Option Cell :=
  if instruction.opcode = .output then frame.stack.head? else none

/-- The input after an instruction. -/
def Input.after (input : Input) (instruction : Instruction) : Input :=
  if instruction.opcode = .input then input.readValue.2 else input

/-- The output after a value was written, if there was one. -/
def Output.after (output : Output) : Option Cell → Output
  | none => output
  | some value => (output.put value).2

namespace Machine

/-- The value that an instruction takes from the innermost frame and writes. -/
def written (machine : Machine) (instruction : Instruction) : Option Cell :=
  machine.current?.bind fun frame => frame.written instruction

/-- The machine with other devices. -/
def connect (machine : Machine) (input : Input) (output : Output) : Machine := { machine with input, output }

/-- What a machine with other devices is about to do. -/
def Phase.connect (input : Input) (output : Output) : Phase → Phase
  | .over => .over
  | .left machine => .left (machine.connect input output)
  | .ready machine instruction => .ready (machine.connect input output) instruction

end Machine

/-- An outcome of a machine with other devices. -/
def Outcome.connect (outcome : Outcome Machine) (input : Input) (output : Output) : Outcome Machine :=
  { outcome with state := outcome.state.connect input output }

namespace Machine

section Steps

variable (machine : Machine) (input : Input) (output : Output) (frame : Frame) (callers : List Frame)

/-- Leaving a frame and advancing to an instruction do not depend on devices. All cases of what may come next are
decided by frames and code. -/
theorem next_connect : (machine.connect input output).next = machine.next.connect input output := by
  obtain ⟨program, frames, final, pending, halted, executed, depthLimit, ownInput, ownOutput, journal⟩ := machine
  cases halted with
  | true => rfl
  | false =>
    cases frames with
    | nil => rfl
    | cons frame callers =>
      simp only [next, connect]
      cases frame.blueprint.code[(frame.pc + 1).toNat]? with
      | none => cases callers <;> rfl
      | some instruction => rfl

/-- Recording an instruction does not depend on devices, whether or not the machine keeps a record. -/
theorem trace_connect (instruction : Instruction) :
    (machine.connect input output).trace frame instruction = (machine.trace frame instruction).connect input output := by
  have journal : (machine.connect input output).journal = machine.journal := rfl
  rw [trace, trace, journal]
  by_cases tracing : machine.journal.tracing = true
  · rw [if_pos tracing, if_pos tracing]
    rfl
  · rw [if_neg tracing, if_neg tracing]

/-- Counting an instruction does not depend on devices. -/
theorem count_connect (outcome : Outcome Machine) : count (outcome.connect input output) =
    (count outcome).connect input output := by
  obtain ⟨state, trap⟩ := outcome
  cases trap <;> rfl

/-- A call does not depend on devices: it asks for the method, for the values on the stack and for the limit. -/
theorem invoke_connect (name : Text) :
    (machine.connect input output).invoke frame callers name =
      (machine.invoke frame callers name).connect input output := by
  have program : (machine.connect input output).program = machine.program := rfl
  have depthLimit : (machine.connect input output).depthLimit = machine.depthLimit := rfl
  have frames : (machine.connect input output).frames = machine.frames := rfl
  rw [invoke, invoke, program, depthLimit, frames]
  cases machine.program.method? name with
  | none => rfl
  | some method =>
    dsimp only
    by_cases full : machine.depthLimit ≤ machine.frames.length
    · rw [if_pos full, if_pos full]
      rfl
    · rw [if_neg full, if_neg full]
      by_cases short : frame.stack.length ≤ method.params.length
      · rw [if_pos short, if_pos short]
        rfl
      · rw [if_neg short, if_neg short]
        rfl

/-- Reading does the same where the input gives the same answer. The answer may be a value or a failure, and what is
left of the input is the other input's own. -/
theorem read_connect (answer : input.readValue.1 = machine.input.readValue.1) {instruction : Instruction}
    (reads : instruction.opcode = .input) :
    (machine.connect input output).executeIn frame callers instruction =
      (machine.executeIn frame callers instruction).connect input.readValue.2 output := by
  have own : (machine.connect input output).input = input := rfl
  rw [executeIn, executeIn, reads]
  dsimp only
  rw [own]
  generalize input.readValue = given at answer ⊢
  generalize machine.input.readValue = expected at answer ⊢
  obtain ⟨result, rest⟩ := given
  obtain ⟨_, _⟩ := expected
  cases answer
  cases result <;> rfl

/-- Writing does the same where the output gives the same answer. The output is given the value that the instruction
takes from the stack, and nothing if there is none. -/
theorem write_connect (answer : ∀ value, (output.put value).1 = (machine.output.put value).1) {instruction : Instruction}
    (writes : instruction.opcode = .output) :
    (machine.connect input output).executeIn frame callers instruction =
      (machine.executeIn frame callers instruction).connect input (output.after (frame.written instruction)) := by
  rw [executeIn, executeIn, Frame.written, if_pos writes, writes]
  dsimp only
  cases frame.stack with
  | nil => rfl
  | cons value rest =>
    have own : (machine.connect input output).output = output := rfl
    dsimp only
    rw [own, answer value]
    rfl

/-- An instruction does the same in the innermost frame of a machine with other devices that give the same answers.
Each device is asked for the same answer only if the instruction asks it. -/
theorem execute_in_connect {instruction : Instruction}
    (sameInput : instruction.opcode = .input → input.readValue.1 = machine.input.readValue.1)
    (sameOutput : instruction.opcode = .output → ∀ value, (output.put value).1 = (machine.output.put value).1) :
    (machine.connect input output).executeIn frame callers instruction =
      (machine.executeIn frame callers instruction).connect (input.after instruction)
        (output.after (frame.written instruction)) := by
  by_cases reads : instruction.opcode = .input
  · have silent : frame.written instruction = none := by
      rw [Frame.written, reads]
      rfl
    rw [Input.after, if_pos reads, silent]
    exact read_connect machine input output frame callers (sameInput reads) reads
  · rw [Input.after, if_neg reads]
    by_cases writes : instruction.opcode = .output
    · exact write_connect machine input output frame callers (sameOutput writes) writes
    · rw [Frame.written, if_neg writes]
      obtain ⟨opcode, operands, line⟩ := instruction
      cases opcode with
      | input => exact absurd rfl reads
      | output => exact absurd rfl writes
      | invokevirtual =>
        cases operands with
        | nil => rfl
        | cons name rest => exact invoke_connect machine input output frame callers name
      | ireturn =>
        obtain ⟨blueprint, pc, returnPc, stack, locals⟩ := frame
        cases stack <;> rfl
      | _ => rfl

variable {machine frame callers} (frames : machine.frames = frame :: callers) (instruction : Instruction)

include frames

/-- An instruction does the same on a machine with other devices that give the same answers. Recording and counting
are included here, which happen around the instruction. -/
theorem execute_connect (sameInput : instruction.opcode = .input → input.readValue.1 = machine.input.readValue.1)
    (sameOutput : instruction.opcode = .output → ∀ value, (output.put value).1 = (machine.output.put value).1) :
    (machine.connect input output).execute instruction =
      (machine.execute instruction).connect (input.after instruction) (output.after (machine.written instruction)) := by
  obtain ⟨journal, traced⟩ := machine.trace_eq frame instruction
  have others : (machine.connect input output).frames = frame :: callers := frames
  have writes : machine.written instruction = frame.written instruction := by
    rw [written, current?, frames]
    rfl
  rw [execute, execute, others, frames, writes]
  dsimp only
  rw [trace_connect, traced,
    execute_in_connect { machine with journal } input output frame callers sameInput sameOutput, count_connect]

/-- What an instruction makes of the devices of its machine. It is the law above for the machine's own devices, which
trivially give the same answers. -/
theorem execute_devices : (machine.execute instruction).state.input = machine.input.after instruction ∧
    (machine.execute instruction).state.output = machine.output.after (machine.written instruction) := by
  have same : machine.execute instruction = (machine.execute instruction).connect (machine.input.after instruction)
      (machine.output.after (machine.written instruction)) :=
    execute_connect machine.input machine.output frames instruction (fun _ => rfl) (fun _ _ => rfl)
  rw [same]
  exact ⟨rfl, rfl⟩

end Steps

section Next

variable {machine : Machine}

/-- Leaving a frame leaves the devices as they are, also when the last frame is left. -/
theorem left_devices {after : Machine} (isLeft : machine.next = .left after) :
    after.input = machine.input ∧ after.output = machine.output := by
  obtain ⟨frame, callers, _, _, rfl⟩ := next_eq_left isLeft
  cases callers <;> exact ⟨rfl, rfl⟩

/-- Advancing to an instruction leaves the devices as they are, and there is a frame then, from which the instruction
was taken. -/
theorem ready_devices {reached : Machine} {instruction : Instruction} (isReady : machine.next = .ready reached instruction) :
    reached.input = machine.input ∧ reached.output = machine.output ∧
      ∃ frame callers, reached.frames = frame :: callers := by
  obtain ⟨frame, callers, _, _, rfl⟩ := next_eq_ready isReady
  exact ⟨rfl, rfl, _, callers, rfl⟩

end Next

/-! ## The instructions of a run -/

/-- An instruction that a run dispatches, with the machine and the state of the hook before the hook is asked. -/
structure Dispatch (State : Type) where
  state : State
  machine : Machine
  instruction : Instruction

/-- The instructions that a run dispatches. The cases are those of the run. -/
def dispatched {State : Type} (hook : Hook State) : Nat → State → Machine → List (Dispatch State)
  | 0, _, _ => []
  | fuel + 1, state, machine =>
    match machine.next with
    | .over => []
    | .left machine => dispatched hook fuel state machine
    | .ready machine instruction =>
      let reply := hook state machine
      { state, machine, instruction } ::
        match reply.verdict with
        | .stop _ | .trap _ => []
        | .skip => dispatched hook fuel reply.state reply.machine
        | .proceed =>
          let outcome := reply.machine.execute instruction
          match outcome.trap with
          | some _ => []
          | none => dispatched hook fuel reply.state outcome.state

/-- A program without a main block dispatches nothing, as there is no frame to start with. The hook is not asked
either. -/
theorem no_main_dispatched {machine : Machine} (absent : ¬ machine.program.main?.isSome = true) {State : Type}
    (hook : Hook State) (fuel : Nat) (state : State) : dispatched hook fuel state machine.restart = [] := by
  have isOver : machine.restart.next = .over := by
    rw [restart, Option.not_isSome_iff_eq_none.mp absent]
    rfl
  cases fuel with
  | zero => rfl
  | succ fuel => rw [dispatched, isOver]

end Machine

end IntegerMachine
