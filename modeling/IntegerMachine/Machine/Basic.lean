import IntegerMachine.Frame
import IntegerMachine.Output

/-!
# The machine

The state of a run: the frames of the calls in progress, the value that a method has returned and its
caller has not yet received, and the devices. The frame of the main block stays available after it was
left, so that its final state can be shown.

The journal of a run records calls, returns and halts, and every instruction while tracing is on.
-/
namespace IntegerMachine

/-- Something that a run records. -/
inductive Event where
  | traced (block : Text) (pc : Int) (instruction : Instruction) (stack : List Cell)
  | called (method caller : Text) (pc : Int) (depth : Nat)
  | returned (method caller : Text) (pc : Int)
  | halted (block : Text) (pc : Int)
  deriving DecidableEq, Repr

/-- Values in brackets, the bottom of the stack first. -/
def showStack (stack : List Cell) : Text :=
  .concat ["[", .join " " (stack.reverse.map Text.ofInt32), "]"]

/-- The wording of an event. -/
def Event.message : Event → Text
  | traced block pc instruction stack =>
    .concat [block, ":", .ofInt pc, "\t", instruction.text, "\t", showStack stack]
  | called method caller pc depth =>
    .concat ["call ", method, " from ", caller, ":", .ofInt pc, ", depth ", .ofNat depth]
  | returned method caller pc =>
    .concat ["return from ", method, " to ", caller, ":", .ofInt pc]
  | halted block pc => .concat ["halt in ", block, ":", .ofInt pc]

/-- The record of a run. -/
structure Journal where
  /-- Whether anything is recorded. -/
  active : Bool := false
  /-- Whether instructions are recorded too. -/
  tracing : Bool := false
  /-- The events, the latest first. -/
  events : List Event := []
  deriving DecidableEq, Repr

/-- The journal with an event added if it is active. -/
def Journal.record (journal : Journal) (event : Event) : Journal :=
  if journal.active then { journal with events := event :: journal.events } else journal

/-- The state of a run. -/
structure Machine where
  program : Program
  /-- The calls in progress, the innermost first and the main block last. -/
  frames : List Frame := []
  /-- The frame of the main block while it is not among the frames. -/
  final : Option Frame := none
  /-- The value on its way from a method to its caller. -/
  pending : Option Cell := none
  halted : Bool := false
  /-- The number of instructions completed. -/
  executed : Nat := 0
  /-- The number of frames that there may be at most. -/
  depthLimit : Nat := 10000
  input : Input := []
  output : Output := {}
  journal : Journal := {}
  deriving DecidableEq, Repr

namespace Machine

/-- The number of frames that there may be at most unless another limit is set. -/
def defaultDepthLimit : Nat := 10000

/-- A machine for a program, before its first run. A program without blocks has none. -/
def create? (program : Program) : Option Machine :=
  if program.blueprints.isEmpty && !program.lacking then none else some { program }

/-- The innermost frame. -/
def current? (machine : Machine) : Option Frame := machine.frames.head?

/-- The frame of the main block, also after it was left. -/
def main? (machine : Machine) : Option Frame := machine.final.or machine.frames.getLast?

/-- Changes the innermost frame. -/
def modifyCurrent (machine : Machine) (change : Frame → Frame) : Machine :=
  match machine.frames with
  | [] => machine
  | frame :: callers => { machine with frames := change frame :: callers }

/-- Changes the frame of the main block. -/
def modifyMain (machine : Machine) (change : Frame → Frame) : Machine :=
  match machine.final with
  | some main => { machine with final := some (change main) }
  | none =>
    { machine with
      frames := machine.frames.dropLast ++ (machine.frames.getLast?.map change).toList }

/-- Adds a source of input, which is read before the older ones. -/
def pushInput (machine : Machine) (source : LineSource) : Machine :=
  { machine with input := source :: machine.input }

/-- Sets the number of frames that there may be at most, which must be positive. -/
def limitDepth (machine : Machine) (limit : Int) : Except Failure Machine :=
  if limit ≤ 0 then .error { message := .concat ["invalid call depth ", .ofInt limit] }
  else .ok { machine with depthLimit := limit.toNat }

end Machine

end IntegerMachine
