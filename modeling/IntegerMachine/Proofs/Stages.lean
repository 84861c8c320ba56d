import IntegerMachine.Machine.Run
import Mathlib.Logic.Relation

/-!
# Stages of a run

A run goes from stage to stage. Between two instructions it leaves a frame that is at its end or advances to the next
instruction; the hook is asked then, and the instruction is executed, or traps. What holds in every state of a run
is a statement about the stages that can be reached from its start. There is no fuel in it, so that it is about runs
of any length.

A run with fuel ends at a stage that can be reached, and its ending says at which one. This holds for every hook that
leaves the execution of instructions to the machine; what it may change in the machine is a parameter.
-/
namespace IntegerMachine

/-- A moment of a run. -/
inductive Stage where
  /-- No instruction is being executed. -/
  | between (machine : Machine)
  /-- The hook was asked about an instruction, which comes next. -/
  | ready (machine : Machine) (instruction : Instruction)
  /-- An instruction has trapped. -/
  | trapped (machine : Machine) (trap : Trap)

namespace Stage

/-- The machine at a stage. -/
def machine : Stage → Machine
  | between machine => machine
  | ready machine _ => machine
  | trapped machine _ => machine

/-- The frames at a stage, the innermost first. -/
def frames (stage : Stage) : List Frame := stage.machine.frames

/-- One stage follows another. When the hook is asked it may turn the machine into one that `Change` relates to it. -/
inductive Step (Change : Machine → Machine → Prop) : Stage → Stage → Prop where
  | left {before after : Machine} (left : before.next = .left after) :
      Step Change (between before) (between after)
  | advanced {before reached changed : Machine} {instruction : Instruction}
      (advanced : before.next = .ready reached instruction) (change : Change reached changed) :
      Step Change (between before) (ready changed instruction)
  | executed {before : Machine} {instruction : Instruction} (completed : (before.execute instruction).trap = none) :
      Step Change (ready before instruction) (between (before.execute instruction).state)
  | failed {before : Machine} {instruction : Instruction} {trap : Trap}
      (raised : (before.execute instruction).trap = some trap) :
      Step Change (ready before instruction) (trapped (before.execute instruction).state trap)

/-- A step is one too where hooks may change more. An invariant that allows more changes is therefore good for all
hooks that change less. -/
theorem Step.imp {Change Other : Machine → Machine → Prop} (more : ∀ before after, Change before after → Other before after)
    {before after : Stage} (step : Step Change before after) : Step Other before after := by
  cases step with
  | left isLeft => exact .left isLeft
  | advanced isReady change => exact .advanced isReady (more _ _ change)
  | executed completed => exact .executed completed
  | failed raised => exact .failed raised

/-- A stage is reached from another one by any number of steps. -/
abbrev Reaches (Change : Machine → Machine → Prop) : Stage → Stage → Prop := Relation.ReflTransGen (Step Change)

/-- What is reached where hooks may change little is reached too where they may change more. -/
theorem Reaches.imp {Change Other : Machine → Machine → Prop}
    (more : ∀ before after, Change before after → Other before after) {before after : Stage}
    (reaches : Reaches Change before after) : Reaches Other before after :=
  Relation.ReflTransGen.mono (fun _ _ => Step.imp more) _ _ reaches

/-- How a run can end at a stage. -/
inductive Ends {State : Type} (hook : Hook State) : Stage → Ending → Prop where
  | completed {machine : Machine} (isOver : machine.next = .over) : Ends hook (between machine) .completed
  | suspended {machine : Machine} : Ends hook (between machine) .suspended
  | stopped {machine : Machine} {instruction : Instruction} (reason : Stop)
      (asked : ∃ state reached, (hook state reached).verdict = .stop reason) :
      Ends hook (ready machine instruction) (.stopped reason)
  /-- The hook has raised a fault. -/
  | interrupted {machine : Machine} {instruction : Instruction} (fault : Fault)
      (raised : ∃ state reached, (hook state reached).verdict = .trap (.fault fault)) :
      Ends hook (ready machine instruction) (.trapped (.fault fault))
  | trapped {machine : Machine} {trap : Trap} : Ends hook (trapped machine trap) (.trapped trap)

end Stage

namespace Machine

/-- A hook makes none but the given changes to the machine. It lets an instruction be executed, stops the run or raises
a fault, but does not deal with instructions itself. -/
structure Respects {State : Type} (Change : Machine → Machine → Prop) (hook : Hook State) : Prop where
  change : ∀ state machine, Change machine (hook state machine).machine
  verdict : ∀ state machine, (hook state machine).verdict = .proceed ∨
    (∃ reason, (hook state machine).verdict = .stop reason) ∨
    ∃ fault, (hook state machine).verdict = .trap (.fault fault)

variable {State : Type} {Change : Machine → Machine → Prop} {hook : Hook State}

/-- Without a hook nothing is changed, so that every relation that holds between a machine and itself will do. -/
theorem no_hook_respects (same : ∀ machine, Change machine machine) : Respects Change noHook :=
  ⟨fun _ => same, fun _ _ => .inl rfl⟩

/-- A run that goes on from between two instructions ends at a stage that can be reached from there. Each unit of fuel
pays for one step, or for the two steps of advancing to an instruction and executing it. -/
theorem loop_reaches (respects : Respects Change hook) (fuel : Nat) (state : State) (machine : Machine) :
    ∃ stage, Stage.Reaches Change (.between machine) stage ∧
      stage.machine = (loop hook fuel state machine).machine ∧
      Stage.Ends hook stage (loop hook fuel state machine).ending := by
  induction fuel generalizing state machine with
  | zero => exact ⟨.between machine, .refl, rfl, .suspended⟩
  | succ fuel ih =>
    rw [loop]
    cases phase : machine.next with
    | «over» => exact ⟨.between machine, .refl, rfl, .completed phase⟩
    | left after =>
      obtain ⟨stage, reached, same, ends⟩ := ih state after
      exact ⟨stage, .head (.left phase) reached, same, ends⟩
    | ready reached instruction =>
      have asked : Stage.Step Change (.between machine) (.ready (hook state reached).machine instruction) :=
        .advanced phase (respects.change state reached)
      dsimp only
      rcases respects.verdict state reached with proceeds | ⟨reason, stops⟩ | ⟨fault, raises⟩
      · rw [proceeds]
        dsimp only
        cases raised : ((hook state reached).machine.execute instruction).trap with
        | some trap => exact ⟨_, .tail (.single asked) (.failed raised), rfl, .trapped⟩
        | none =>
          obtain ⟨stage, later, same, ends⟩ := ih (hook state reached).state
            ((hook state reached).machine.execute instruction).state
          exact ⟨stage, .head asked (.head (.executed raised) later), same, ends⟩
      · rw [stops]
        exact ⟨_, .single asked, rfl, .stopped reason ⟨state, reached, stops⟩⟩
      · rw [raises]
        exact ⟨_, .single asked, rfl, .interrupted fault ⟨state, reached, raises⟩⟩

/-- A run without a hook whose fuel is used up is between two instructions. It is never suspended at an instruction
that it has advanced to. -/
theorem suspended_reaches (same : ∀ machine, Change machine machine) {fuel : Nat} {machine : Machine}
    (suspended : (loop noHook fuel () machine).ending = .suspended) :
    Stage.Reaches Change (.between machine) (.between (loop noHook fuel () machine).machine) := by
  obtain ⟨stage, reached, here, ends⟩ := loop_reaches (no_hook_respects same) fuel () machine
  rw [suspended] at ends
  cases ends
  exact here ▸ reached

/-- A run of a program with a main block ends at a stage that can be reached from its start. The machine that it leaves
is that of the stage but for the output, which was flushed; only a failure of that can replace the ending. -/
theorem run_reaches (respects : Respects Change hook) (machine : Machine)
    (main : machine.program.main?.isSome = true) (fuel : Nat) (state : State) :
    ∃ stage output, Stage.Reaches Change (.between machine.restart) stage ∧
      (machine.run hook fuel state).machine = { stage.machine with output } ∧
      (Stage.Ends hook stage (machine.run hook fuel state).ending ∨
        ∃ failure, (machine.run hook fuel state).ending = .flushFailed failure) := by
  obtain ⟨stage, reached, same, ends⟩ := loop_reaches respects fuel state machine.restart
  rw [run, if_pos main]
  refine ⟨stage, (loop hook fuel state machine.restart).machine.output.flush.2, reached, ?_, ?_⟩
  · rw [same]
    rfl
  · rw [Machine.finish]
    dsimp only
    split
    · exact .inr ⟨_, rfl⟩
    · exact .inl ends

end Machine

end IntegerMachine
