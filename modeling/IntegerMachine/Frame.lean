import IntegerMachine.Fault
import IntegerMachine.Program

/-!
# Frames

A frame is one activation of a block: the index of its current instruction, the index to which its
caller returns, an operand stack, and a value or nothing for each local.

`perform` executes the instructions that touch nothing but their frame. An instruction that traps
leaves the frame as far as it got: the operands it has popped are gone, everything else is as before.

The locals are one list of optional cells. It stands for the two sequences that a frame is usually stored
as: a cell for each local, and a flag that tells whether the cell was ever set. These are written together
only, and the cell of an unset local is zero and never read. That the two sequences stay in step lies
outside of this module, where a local without a value has no cell.
-/
namespace IntegerMachine

/-- What ends a run in the middle of an instruction: a fault of the program, a look-up outside of a
table, which only blueprints that were not linked can cause, or the use of a block or a frame that is missing. -/
inductive Trap where
  | fault (fault : Fault)
  | badIndex (index length : Nat)
  | missing
  deriving DecidableEq, Repr

/-- The failure that a trap is. -/
def Trap.failure : Trap → Failure
  | fault cause => { message := cause.message }
  | badIndex index length => .badIndex index length
  | missing => .missing

/-- A state, and the trap that was met on the way to it. -/
structure Outcome (State : Type) where
  state : State
  trap : Option Trap := none
  deriving DecidableEq, Repr

/-- One activation of a block. -/
structure Frame where
  blueprint : Blueprint
  /-- The index of the instruction being executed; -1 before the first one. -/
  pc : Int := -1
  /-- The index of the caller's instruction; -1 in the main block. -/
  returnPc : Int
  /-- The operand stack, the top first. -/
  stack : List Cell := []
  /-- The value of each local; nothing while it is unset. -/
  locals : List (Option Cell)
  deriving DecidableEq, Repr

namespace Frame

/-- A new activation: the arguments are bound to the first locals and all others are unset. -/
def enter (blueprint : Blueprint) (returnPc : Int) (arguments : List Cell) : Frame :=
  { blueprint, returnPc
    locals := arguments.map some ++ List.replicate (blueprint.locals.length - arguments.length) none }

/-- A fault at the current instruction. -/
def fault (frame : Frame) (kind : FaultKind) (subject : Text := []) (device : Option Text := none) :
    Trap :=
  .fault { kind, scope := frame.blueprint.name, pc := frame.pc, subject, device }

/-- The frame after an instruction that went well. -/
def done (frame : Frame) : Outcome Frame := { state := frame }

/-- The frame that an instruction leaves when it traps. -/
def trapped (frame : Frame) (trap : Trap) : Outcome Frame := { state := frame, trap := some trap }

/-- The outcome of an instruction that wants more operands than there are: all are popped. -/
def underflow (frame : Frame) : Outcome Frame :=
  { frame with stack := [] }.trapped (frame.fault .stackUnderflow)

/-- The frame with a value on top of its stack. -/
def push (frame : Frame) (value : Cell) : Frame := { frame with stack := value :: frame.stack }

/-- Replaces a value on the stack, given its place from the bottom. -/
def poke (frame : Frame) (index : Int) (value : Cell) : Except Failure Frame :=
  if 0 ≤ index ∧ index < frame.stack.length then
    .ok { frame with stack := (frame.stack.reverse.set index.toNat value).reverse }
  else .error (.badIndex index frame.stack.length)

/-- The value of the named local; nothing if it is unset or does not exist. -/
def local? (frame : Frame) (name : Text) : Option Cell :=
  (frame.blueprint.slot? name).bind fun slot => (frame.locals[slot]?).bind id

/-- Goes on with the first operand of an instruction. -/
def withOperand (frame : Frame) (instruction : Instruction) (next : Text → Outcome Frame) :
    Outcome Frame :=
  match instruction.operands with
  | [] => frame.trapped (.badIndex 0 0)
  | operand :: _ => next operand

/-- Goes on with the literal operand of the current instruction. -/
def withImmediate (frame : Frame) (next : Cell → Outcome Frame) : Outcome Frame :=
  match frame.blueprint.immediates[frame.pc.toNat]? with
  | none => frame.trapped (.badIndex frame.pc.toNat frame.blueprint.immediates.size)
  | some value => next value

/-- Goes on with the slot of a local. -/
def withSlot (frame : Frame) (name : Text) (next : Nat → Outcome Frame) : Outcome Frame :=
  match frame.blueprint.slot? name with
  | none => frame.trapped (frame.fault .missingLocal name)
  | some slot => next slot

/-- Goes on with the value of a local. -/
def withLocal (frame : Frame) (name : Text) (next : Cell → Outcome Frame) : Outcome Frame :=
  frame.withSlot name fun slot =>
    match frame.locals[slot]? with
    | none => frame.trapped (.badIndex slot frame.locals.length)
    | some none => frame.trapped (frame.fault .unsetLocal name)
    | some (some value) => next value

/-- Sets a local. -/
def store (frame : Frame) (name : Text) (value : Cell) : Outcome Frame :=
  frame.withSlot name fun slot =>
    if slot < frame.locals.length then
      { frame with locals := frame.locals.set slot (some value) }.done
    else frame.trapped (.badIndex slot frame.locals.length)

/-- Continues at a label. -/
def jump (frame : Frame) (name : Text) : Outcome Frame :=
  match frame.blueprint.label? name with
  | none => frame.trapped (frame.fault .missingLabel name)
  | some index => { frame with pc := index }.done

/-- Replaces the two uppermost values by their combination. -/
def combine (frame : Frame) (operation : Cell → Cell → Cell) : Outcome Frame :=
  match frame.stack with
  | upper :: lower :: rest => { frame with stack := operation lower upper :: rest }.done
  | _ => frame.underflow

/-- Pops a value and continues at the label that the instruction names if the value passes a test. -/
def branch (frame : Frame) (instruction : Instruction) (test : Cell → Bool) : Outcome Frame :=
  match frame.stack with
  | [] => frame.underflow
  | value :: rest =>
    let frame := { frame with stack := rest }
    if test value then frame.withOperand instruction frame.jump else frame.done

/-- Executes an instruction that touches nothing but its frame. All others are unknown here. -/
def perform (program : Program) (instruction : Instruction) (frame : Frame) : Outcome Frame :=
  match instruction.opcode with
  | .label | .nop => frame.done
  | .bipush => frame.withImmediate fun value => (frame.push value).done
  | .dup =>
    match frame.stack with
    | [] => frame.underflow
    | top :: _ => (frame.push top).done
  | .pop =>
    match frame.stack with
    | [] => frame.underflow
    | _ :: rest => { frame with stack := rest }.done
  | .swap =>
    match frame.stack with
    | upper :: lower :: rest => { frame with stack := lower :: upper :: rest }.done
    | _ => frame.underflow
  | .iadd => frame.combine (· + ·)
  | .isub => frame.combine (· - ·)
  | .iand => frame.combine (· &&& ·)
  | .ior => frame.combine (· ||| ·)
  | .iload =>
    frame.withOperand instruction fun name =>
      frame.withLocal name fun value => (frame.push value).done
  | .istore =>
    match frame.stack with
    | [] => frame.underflow
    | value :: rest =>
      let frame := { frame with stack := rest }
      frame.withOperand instruction fun name => frame.store name value
  | .iinc =>
    frame.withOperand instruction fun name =>
      frame.withLocal name fun value =>
        frame.withImmediate fun increment => frame.store name (value + increment)
  | .ldcw =>
    frame.withOperand instruction fun name =>
      match program.constant? name with
      | none => frame.trapped (frame.fault .missingConstant name)
      | some value => (frame.push value).done
  | .goto => frame.withOperand instruction frame.jump
  | .ifeq => frame.branch instruction (· == 0)
  | .iflt => frame.branch instruction (· < 0)
  | .ificmpeq =>
    match frame.stack with
    | upper :: lower :: rest =>
      let frame := { frame with stack := rest }
      if lower = upper then frame.withOperand instruction frame.jump else frame.done
    | _ => frame.underflow
  | opcode => frame.trapped (frame.fault .unknownOpcode opcode.name)

end Frame

end IntegerMachine
