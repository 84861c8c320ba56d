import IntegerMachine.Machine.Step

/-!
# Runs

A run starts in the main block and goes on until the machine is over, an instruction traps, or a hook
stops it. The hook is asked before each instruction; it has a state of its own, and it may change the
machine. Whatever ends the run, the output is flushed afterwards.

A run is given fuel, one unit for each frame left and each instruction. A run that uses it up is
suspended.
-/
namespace IntegerMachine

/-- Why a hook stops a run. -/
inductive Stop where
  | requested
  | failed (message : Text)
  deriving DecidableEq, Repr

/-- The wording of the reason. -/
def Stop.message : Stop → Text
  | requested => "execution stopped"
  | failed message => message

/-- What a hook wants to be done next. -/
inductive Verdict where
  | proceed
  /-- The hook has dealt with the instruction. -/
  | skip
  | stop (reason : Stop)
  | trap (trap : Trap)
  deriving DecidableEq, Repr

/-- What a hook gives back when it is asked. -/
structure Reply (State : Type) where
  state : State
  machine : Machine
  verdict : Verdict := .proceed

/-- A function that is asked before each instruction. -/
abbrev Hook (State : Type) := State → Machine → Reply State

/-- How a run ends. -/
inductive Ending where
  | completed
  | stopped (reason : Stop)
  | trapped (trap : Trap)
  | flushFailed (failure : Text)
  | suspended
  deriving DecidableEq, Repr

/-- The state of the hook, the machine, and the ending of a run. -/
structure Finish (State : Type) where
  state : State
  machine : Machine
  ending : Ending

namespace Machine

/-- The hook that changes nothing and never stops. -/
def noHook : Hook Unit := fun state machine => { state, machine }

/-- The machine at the start of a run. -/
def restart (machine : Machine) : Machine :=
  { machine with
    frames := (machine.program.main?.map fun main => Frame.enter main (-1) []).toList
    final := none
    pending := none
    halted := false
    executed := 0 }

/-- Goes on until the run ends or the fuel is used up. -/
def loop {State : Type} (hook : Hook State) : Nat → State → Machine → Finish State
  | 0, state, machine => { state, machine, ending := .suspended }
  | fuel + 1, state, machine =>
    match machine.next with
    | .over => { state, machine, ending := .completed }
    | .left machine => loop hook fuel state machine
    | .ready machine instruction =>
      let reply := hook state machine
      match reply.verdict with
      | .stop reason => { reply with ending := .stopped reason }
      | .trap trap => { reply with ending := .trapped trap }
      | .skip => loop hook fuel reply.state reply.machine
      | .proceed =>
        let outcome := reply.machine.execute instruction
        match outcome.trap with
        | some trap => { reply with machine := outcome.state, ending := .trapped trap }
        | none => loop hook fuel reply.state outcome.state

/-- Flushes the output at the end of a run. A failure counts only if the run ended well. -/
def finish {State : Type} (finish : Finish State) : Finish State :=
  let (failure, output) := finish.machine.output.flush
  { finish with
    machine := { finish.machine with output }
    ending := match finish.ending, failure with
      | .completed, some failure => .flushFailed failure
      | ending, _ => ending }

/-- Runs the program from its start. Without a main block there is nothing to start with. -/
def run {State : Type} (hook : Hook State) (fuel : Nat) (state : State) (machine : Machine) :
    Finish State :=
  Machine.finish
    (if machine.program.main?.isSome then loop hook fuel state machine.restart
    else { state, machine, ending := .trapped .missing })

end Machine

/-- Where a run was when it ended. -/
def Machine.progress (machine : Machine) : Text :=
  .concat [" after ", .ofNat machine.executed, " instructions, call depth ",
    .ofNat machine.frames.length]

/-- The failure that a run reports, if it did not end well. -/
def Ending.failure? (ending : Ending) (machine : Machine) : Option Failure :=
  match ending with
  | .completed => none
  | .stopped reason => some { message := reason.message }
  | .trapped trap =>
    let word : Text := match trap with
      | .fault _ => "fault"
      | _ => "recovered error"
    some (trap.failure.within (word ++ machine.progress))
  | .flushFailed failure => some { message := failure, contexts := ["output flush failed"] }
  | .suspended => some { message := "out of fuel" }

end IntegerMachine
