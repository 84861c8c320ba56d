import IntegerMachine.Machine.Run
import IntegerMachine.Proofs.Linking

/-!
# The reference interpreter

An interpreter that computes nothing in advance. A jump goes through the code of its block for the label, a literal is
read each time its instruction is executed, a call goes through the list of methods, and the values of locals are kept
under their folded names; a declared local without an entry is unset. Values are popped one at a time.

It works on programs without tables, and on states of its own. Devices, traps and endings are those of the machine,
so that runs can be compared.
-/
namespace IntegerMachine.Reference

/-- A block as it was given: its name, its locals and its code. -/
structure Routine where
  name : Text
  params : List Text
  vars : List Text
  code : List Instruction

/-- A program as it was given: named values, the main block and the methods. -/
structure Outline where
  constants : Constants
  /-- The main block, then the methods. -/
  routines : List Routine

/-- The values of locals under their folded names. -/
abbrev Values := Text → Option Cell

namespace Values

/-- No local is set. -/
def none : Values := fun _ => Option.none

/-- The values with the named local set. -/
def set (values : Values) (name : Text) (value : Cell) : Values :=
  fun key => if key = name.fold then some value else values key

/-- The first locals of the names are set to the values, in their order. -/
def bind : List Text → List Cell → Values
  | name :: names, value :: rest => (bind names rest).set name value
  | _, _ => none

/-- Without values nothing is set, whatever the names are. -/
theorem bind_nil (names : List Text) : bind names [] = none := by
  cases names with
  | nil => rfl
  | cons name rest => rfl

end Values

/-- An activation record. -/
structure Record where
  routine : Routine
  pc : Int := -1
  returnPc : Int
  /-- The operand stack, the top first. -/
  stack : List Cell := []
  values : Values := .none

/-- The state of a run. -/
structure State where
  outline : Outline
  /-- The calls in progress, the innermost first. -/
  records : List Record
  /-- The record of the main block after it was left. -/
  final : Option Record := none
  pending : Option Cell := none
  halted : Bool := false
  executed : Nat := 0
  depthLimit : Nat
  input : Input
  output : Output

/-- What an instruction does: it changes the state until it is completed or traps. -/
abbrev Action := EStateM Trap State

/-! ## Instructions -/

/-- The innermost record. -/
def current : Action Record := do
  match (← get).records with
  | [] => throw .missing
  | record :: _ => return record

/-- Changes the innermost record. -/
def change (update : Record → Record) : Action Unit :=
  modify fun state => { state with records := match state.records with
    | [] => []
    | record :: callers => update record :: callers }

/-- Raises a fault at the current instruction. -/
def fault {Result : Type} (kind : FaultKind) (subject : Text := []) (device : Option Text := none) : Action Result := do
  let record ← current
  throw (.fault { kind, scope := record.routine.name, pc := record.pc, subject, device })

/-- Pushes a value. -/
def push (value : Cell) : Action Unit := change fun record => { record with stack := value :: record.stack }

/-- Pops a value. -/
def pop : Action Cell := do
  match (← current).stack with
  | [] => fault .stackUnderflow
  | value :: rest =>
    change fun record => { record with stack := rest }
    return value

/-- Pops a number of values and gives them with the deepest one first. -/
def popMany : Nat → Action (List Cell)
  | 0 => return []
  | count + 1 => do
    let value ← pop
    return (← popMany count) ++ [value]

/-- The operand of an instruction at an index. -/
def operand (instruction : Instruction) (index : Nat) : Action Text :=
  match instruction.operands[index]? with
  | none => throw .missing
  | some text => return text

/-- Reads a literal. -/
def literal (text : Text) : Action Cell :=
  match Literal.parse text with
  | .error _ => throw .missing
  | .ok value => return value

/-- Makes sure that a local is declared in the current block. -/
def declared (name : Text) : Action Unit := do
  let routine := (← current).routine
  if name.fold ∉ (routine.params ++ routine.vars).map Text.fold then fault .missingLocal name

/-- The value of a local. -/
def load (name : Text) : Action Cell := do
  declared name
  match (← current).values name.fold with
  | none => fault .unsetLocal name
  | some value => return value

/-- Sets a local. -/
def store (name : Text) (value : Cell) : Action Unit := do
  declared name
  change fun record => { record with values := record.values.set name value }

/-- Continues at the label that is found by going through the code. -/
def jump (name : Text) : Action Unit := do
  match (← current).routine.code.findIdx? (Blueprint.isLabel name) with
  | none => fault .missingLabel name
  | some index => change fun record => { record with pc := index }

/-- Continues at the label that an instruction names if a condition holds. -/
def branch (instruction : Instruction) (holds : Bool) : Action Unit := do
  if holds then jump (← operand instruction 0)

/-- The value of a constant. -/
def constant (name : Text) : Action Cell := do
  match (← get).outline.constants.lookup name.fold with
  | none => fault .missingConstant name
  | some value => return value

/-- Replaces the two uppermost values by their combination. -/
def combine (operation : Cell → Cell → Cell) : Action Unit := do
  let upper ← pop
  let lower ← pop
  push (operation lower upper)

/-- Opens an activation of a method: the arguments and the reference below them are popped, and the deepest argument
goes to the first parameter. -/
def enter (method : Routine) : Action Unit := do
  let arguments ← popMany method.params.length
  let _reference ← pop
  let caller ← current
  let record : Record := { routine := method, returnPc := caller.pc, values := .bind method.params arguments }
  modify fun state => { state with records := record :: state.records }

/-- Calls a method unless there are too many calls in progress. -/
def call (name : Text) (method : Routine) : Action Unit := do
  let state ← get
  if state.depthLimit ≤ state.records.length then fault .callOverflow name else enter method

/-- Calls the method that is found by going through the blocks behind the main one. -/
def invoke (name : Text) : Action Unit := do
  match (← get).outline.routines.tail.find? fun method => method.name.fold = name.fold with
  | none => fault .missingMethod name
  | some method => call name method

/-- Pushes a value that was read. -/
def receive : Except Text Int → Action Unit
  | .error failure => fault .inputError [] (some failure)
  | .ok value => push (Int32.ofInt value)

/-- Reads a value from the input. -/
def input : Action Unit := do
  let read := (← get).input.readValue
  modify fun state => { state with input := read.2 }
  receive read.1

/-- Raises the failure of the output, if there is one. -/
def report : Option Text → Action Unit
  | some failure => fault .outputError [] (some failure)
  | none => return

/-- Writes a value to the output. -/
def output (value : Cell) : Action Unit := do
  let written := (← get).output.put value
  modify fun state => { state with output := written.2 }
  report written.1

/-- Executes an instruction. -/
def dispatch (instruction : Instruction) : Action Unit :=
  match instruction.opcode with
  | .label | .nop => return
  | .bipush => do
    let text ← operand instruction 0
    push (← literal text)
  | .dup => do
    let value ← pop
    push value
    push value
  | .pop => do
    let _value ← pop
  | .swap => do
    let upper ← pop
    let lower ← pop
    push upper
    push lower
  | .iadd => combine (· + ·)
  | .isub => combine (· - ·)
  | .iand => combine (· &&& ·)
  | .ior => combine (· ||| ·)
  | .iload => do
    let name ← operand instruction 0
    push (← load name)
  | .istore => do
    let value ← pop
    store (← operand instruction 0) value
  | .iinc => do
    let name ← operand instruction 0
    let value ← load name
    let text ← operand instruction 1
    store name (value + (← literal text))
  | .ldcw => do
    let name ← operand instruction 0
    push (← constant name)
  | .goto => branch instruction true
  | .ifeq => do branch instruction ((← pop) = 0)
  | .iflt => do branch instruction ((← pop) < 0)
  | .ificmpeq => do
    let upper ← pop
    let lower ← pop
    branch instruction (lower = upper)
  | .invokevirtual => do invoke (← operand instruction 0)
  | .ireturn => do
    let value ← pop
    modify fun state => { state with pending := some value }
  | .input => input
  | .output => do output (← pop)
  | .halt => modify fun state => { state with halted := true }
  | opcode => fault .unknownOpcode opcode.name

/-! ## Runs -/

/-- Executes an instruction, and counts it if it is completed. -/
def execute (instruction : Instruction) (state : State) : Outcome State :=
  match dispatch instruction state with
  | .ok _ after => { state := { after with executed := after.executed + 1 } }
  | .error trap after => { state := after, trap := some trap }

/-- Leaves the innermost record: its caller, if there is one, receives what is pending and goes on behind its call. -/
def leave (state : State) (record : Record) : List Record → State
  | [] => { state with records := [], final := state.final.or (some record) }
  | caller :: callers =>
    let resumed := { caller with stack := state.pending.toList ++ caller.stack, pc := record.returnPc }
    { state with records := resumed :: callers, pending := none }

/-- One iteration: a record that is at its end is left, or the next instruction is executed. There is none when the
program has halted or no record is left. -/
def step (state : State) : Option (Outcome State) :=
  match state.halted, state.records with
  | true, _ => none
  | false, [] => none
  | false, record :: callers =>
    let pc := record.pc + 1
    match record.routine.code[pc.toNat]? with
    | none => some { state := leave state record callers }
    | some instruction => some (execute instruction { state with records := { record with pc } :: callers })

/-- Goes on until the run ends or a number of iterations was made. -/
def loop : Nat → State → State × Ending
  | 0, state => (state, .suspended)
  | count + 1, state =>
    match step state with
    | none => (state, .completed)
    | some outcome =>
      match outcome.trap with
      | some trap => (outcome.state, .trapped trap)
      | none => loop count outcome.state

/-- The state at the start of a run: a record of the main block. -/
def start (outline : Outline) (depthLimit : Nat) (input : Input) (output : Output) : State :=
  { outline, depthLimit, input, output
    records := (outline.routines.head?.map fun main => { routine := main, returnPc := -1 }).toList }

/-- Runs a program and flushes the output. A failure of that counts only if the run was completed. -/
def run (outline : Outline) (depthLimit : Nat) (input : Input) (output : Output) (count : Nat) : State × Ending :=
  let (state, ending) := loop count (start outline depthLimit input output)
  let (failure, flushed) := state.output.flush
  ({ state with output := flushed },
    match ending, failure with
    | .completed, some text => .flushFailed text
    | ending, _ => ending)

end IntegerMachine.Reference
