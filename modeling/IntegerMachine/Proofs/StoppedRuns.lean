import IntegerMachine.Proofs.Activation
import IntegerMachine.Proofs.PreciseFaults
import IntegerMachine.Proofs.Termination

/-!
# Runs that a hook stops

A hook that leaves the machine alone lets some instructions be executed and then stops the run. What it leaves is the
state in which the run without a hook dispatches the next instruction: nothing of that instruction has happened, and
frames that were at their end before it are left. A run that ends before the hook would stop it does not notice the hook.

The two runs are compared along the states that the run without a hook passes through. Leaving frames asks no hook and
completes no instruction, so the number of completed instructions is the number of times that the hook was asked.
-/
namespace IntegerMachine

namespace Machine

/-- The machine that has advanced to an instruction, and the instruction. -/
def Phase.ready? : Phase → Option (Machine × Instruction)
  | .over | .left _ => none
  | .ready machine instruction => some (machine, instruction)

/-- Only a machine that has advanced has an instruction. -/
theorem Phase.eq_ready {phase : Phase} {machine : Machine} {instruction : Instruction}
    (isReady : phase.ready? = some (machine, instruction)) : phase = .ready machine instruction := by
  cases phase with
  | «over» | left => cases isReady
  | ready => cases isReady; rfl

section Passing

variable {State : Type} {hook : Hook State} {start : State} {machine : Machine} {completed : Nat} {state : State}
  {between : Machine}

/-- A run that is given what was spent on the way to a state, and more, goes on from that state with the rest. The
induction is on the way; leaving a frame and completing an instruction each spend one unit of fuel. -/
theorem Passes.resumes (passes : Passes hook start machine completed state between) :
    ∃ spent, ∀ fuel, loop hook (spent + fuel) start machine = loop hook fuel state between := by
  induction passes with
  | start =>
    refine ⟨0, ?_⟩
    intro fuel
    rw [Nat.zero_add]
  | left _ isLeft ih =>
    obtain ⟨spent, same⟩ := ih
    refine ⟨spent + 1, ?_⟩
    intro fuel
    rw [Nat.add_assoc, Nat.add_comm 1 fuel, same, loop, isLeft]
  | executed _ isReady proceeds completes ih =>
    obtain ⟨spent, same⟩ := ih
    refine ⟨spent + 1, ?_⟩
    intro fuel
    rw [Nat.add_assoc, Nat.add_comm 1 fuel, same, loop, isReady]
    dsimp only
    rw [proceeds]
    dsimp only
    rw [completes]

/-- Without a hook a run whose fuel is used up has passed to where it is. The number of instructions that it has
completed on the way is not told. -/
theorem suspended_passes (passes : Passes noHook () machine completed () between) (fuel : Nat)
    (suspended : (loop noHook fuel () between).ending = .suspended) :
    ∃ later, Passes noHook () machine later () (loop noHook fuel () between).machine := by
  induction fuel generalizing completed between with
  | zero => exact ⟨completed, passes⟩
  | succ fuel ih =>
    rw [loop] at suspended ⊢
    cases phase : between.next with
    | «over» => simp [phase] at suspended
    | left after =>
      rw [phase] at suspended
      exact ih (.left passes phase) suspended
    | ready reached instruction =>
      rw [phase] at suspended
      dsimp only [noHook] at suspended ⊢
      cases raised : (reached.execute instruction).trap with
      | some trap => simp [raised] at suspended
      | none =>
        rw [raised] at suspended
        exact ih (.executed passes phase rfl raised) suspended

/-- Without a hook a run ends, or leaves some frames and then dispatches an instruction. The induction is on the number
of frames, of which each one that is left takes one away. -/
theorem ends_or_dispatches (passes : Passes noHook () machine completed () between) :
    (∃ fuel, (loop noHook fuel () between).ending ≠ .suspended) ∨
      ∃ later reached instruction, Passes noHook () machine completed () later ∧
        later.next = .ready reached instruction := by
  induction size : between.frames.length using Nat.strongRecOn generalizing between with
  | ind number ih =>
    cases phase : between.next with
    | «over» =>
      refine .inl ⟨1, ?_⟩
      rw [loop, phase]
      exact fun impossible => by cases impossible
    | left after =>
      obtain ⟨frame, callers, frames, -, rfl⟩ := next_eq_left phase
      have fewer : (between.leave frame callers).frames.length < number := by
        rw [Stage.leave_length, ← size, frames, List.length_cons]
        exact Nat.lt_succ_self _
      rcases ih _ fewer (.left passes phase) rfl with ⟨fuel, ended⟩ | dispatches
      · refine .inl ⟨fuel + 1, ?_⟩
        rw [loop, phase]
        exact ended
      · exact .inr dispatches
    | ready reached instruction => exact .inr ⟨between, reached, instruction, passes, phase⟩

/-- Without a hook a run ends, or comes to dispatch an instruction after any number of completed ones. The induction
is on that number; an instruction that traps ends the run. -/
theorem ends_or_completes (machine : Machine) (completed : Nat) :
    (∃ fuel, (loop noHook fuel () machine).ending ≠ .suspended) ∨
      ∃ between reached instruction, Passes noHook () machine completed () between ∧
        between.next = .ready reached instruction := by
  induction completed with
  | zero => exact ends_or_dispatches .start
  | succ completed ih =>
    rcases ih with ended | ⟨between, reached, instruction, passes, isReady⟩
    · exact .inl ended
    · obtain ⟨spent, resumes⟩ := passes.resumes
      cases raised : (reached.execute instruction).trap with
      | some trap =>
        refine .inl ⟨spent + 1, ?_⟩
        rw [resumes, loop, isReady]
        dsimp only [noHook]
        rw [raised]
        exact fun impossible => by cases impossible
      | none =>
        rcases ends_or_dispatches (.executed passes isReady rfl raised) with ⟨fuel, ended⟩ | dispatches
        · refine .inl ⟨spent + (fuel + 1), ?_⟩
          rw [resumes, loop, isReady]
          dsimp only [noHook]
          rw [raised]
          exact ended
        · exact .inr dispatches

end Passing

/-- Whenever a hook is asked in a run it leaves the machine alone. It lets the instruction be executed each time before
the given one, counted from one, and then stops the run. -/
structure StopsAt {State : Type} (hook : Hook State) (start : State) (machine : Machine) (number : Nat) (reason : Stop) :
    Prop where
  untouched : ∀ completed asked between reached instruction,
    Passes hook start machine completed asked between → between.next = .ready reached instruction →
      (hook asked reached).machine = reached
  proceeds : ∀ completed asked between reached instruction,
    Passes hook start machine completed asked between → between.next = .ready reached instruction →
      completed + 1 < number → (hook asked reached).verdict = .proceed
  stops : ∀ completed asked between reached instruction,
    Passes hook start machine completed asked between → between.next = .ready reached instruction →
      completed + 1 = number → (hook asked reached).verdict = .stop reason

namespace StopsAt

variable {State : Type} {hook : Hook State} {start : State} {machine : Machine} {number : Nat} {reason : Stop}
  (stops : StopsAt hook start machine number reason)

include stops

/-- As long as the hook does not stop it, a run with the hook completes the instructions of the run without it. The
hook lets them be executed, on the machine as it was. -/
theorem completes {completed : Nat} {asked : State} {between reached : Machine} {instruction : Instruction}
    (passes : Passes hook start machine completed asked between) (isReady : between.next = .ready reached instruction)
    (before : completed + 1 < number) (completes : (reached.execute instruction).trap = none) :
    Passes hook start machine (completed + 1) (hook asked reached).state (reached.execute instruction).state := by
  have untouched := stops.untouched completed asked between reached instruction passes isReady
  have proceeds := stops.proceeds completed asked between reached instruction passes isReady before
  have goesOn := Passes.executed passes isReady proceeds
  rw [untouched] at goesOn
  exact goesOn completes

/-- The run with the hook passes through what the run without it passes through before the hook stops it. The
induction is on the way of the run without the hook. -/
theorem passes {completed : Nat} {idle : Unit} {between : Machine}
    (plain : Passes noHook () machine completed idle between) (before : completed < number) :
    ∃ asked, Passes hook start machine completed asked between := by
  induction plain with
  | start => exact ⟨start, .start⟩
  | left _ isLeft ih =>
    obtain ⟨asked, attended⟩ := ih before
    exact ⟨asked, .left attended isLeft⟩
  | executed _ isReady _ completes ih =>
    obtain ⟨asked, attended⟩ := ih (Nat.lt_of_succ_lt before)
    exact ⟨_, stops.completes attended isReady before completes⟩

/-- Where the run without a hook dispatches the instruction before which the hook stops, the run with the hook ends.
It needs the fuel for the way and one unit more, and with more fuel it ends in the same way. -/
theorem stopped {between reached : Machine} {instruction : Instruction} (first : 1 ≤ number)
    (passes : Passes noHook () machine (number - 1) () between) (isReady : between.next = .ready reached instruction) :
    ∃ enough, ∀ fuel, enough ≤ fuel →
      (loop hook fuel start machine).machine = reached ∧ (loop hook fuel start machine).ending = .stopped reason := by
  obtain ⟨asked, attended⟩ := stops.passes passes (Nat.sub_lt first Nat.one_pos)
  have untouched := stops.untouched _ asked between reached instruction attended isReady
  have verdict := stops.stops _ asked between reached instruction attended isReady (Nat.sub_add_cancel first)
  obtain ⟨spent, resumes⟩ := attended.resumes
  refine ⟨spent + 1, ?_⟩
  intro fuel enough
  obtain ⟨rest, rfl⟩ := Nat.exists_eq_add_of_le enough
  rw [Nat.add_assoc, Nat.add_comm 1 rest, resumes, loop, isReady]
  dsimp only
  rw [verdict]
  exact ⟨untouched, rfl⟩

/-- Where the run without a hook never dispatches the instruction before which the hook would stop, it is the same run
from every state that both have passed. The induction is on the fuel, and the states that were passed come along in
it. -/
theorem unnoticed (first : 1 ≤ number)
    (never : ∀ between reached instruction, Passes noHook () machine (number - 1) () between →
      between.next ≠ .ready reached instruction)
    {completed : Nat} {asked : State} {between : Machine} (plain : Passes noHook () machine completed () between)
    (attended : Passes hook start machine completed asked between) (before : completed < number) (fuel : Nat) :
    (loop hook fuel asked between).machine = (loop noHook fuel () between).machine ∧
      (loop hook fuel asked between).ending = (loop noHook fuel () between).ending := by
  induction fuel generalizing completed asked between with
  | zero => exact ⟨rfl, rfl⟩
  | succ fuel ih =>
    rw [loop, loop]
    cases phase : between.next with
    | «over» => exact ⟨rfl, rfl⟩
    | left after => exact ih (.left plain phase) (.left attended phase) before
    | ready reached instruction =>
      have early : completed + 1 < number := by
        refine Nat.lt_of_le_of_ne before ?_
        rintro rfl
        exact never between reached instruction plain phase
      have untouched := stops.untouched completed asked between reached instruction attended phase
      have proceeds := stops.proceeds completed asked between reached instruction attended phase early
      dsimp only [noHook]
      rw [proceeds]
      dsimp only
      rw [untouched]
      cases raised : (reached.execute instruction).trap with
      | some trap => exact ⟨rfl, rfl⟩
      | none =>
        exact ih (.executed plain phase rfl raised) (stops.completes attended phase early raised) early

end StopsAt

/-- A run has ended where the run without a hook is about to dispatch an instruction, for the reason that the hook has
given. The output was flushed; that this may fail does not matter. -/
structure StoppedBefore {State : Type} (between reached : Machine) (instruction : Instruction) (completed : Nat)
    (reason : Stop) (finish : Finish State) : Prop where
  ending : finish.ending = .stopped reason
  executed : finish.machine.executed = completed
  output : finish.machine.output = between.output.flush.2
  machine : finish.machine = { reached with output := between.output.flush.2 }
  place : ∃ frame callers, finish.machine.frames = frame :: callers ∧ 0 ≤ frame.pc ∧
    frame.blueprint.code[frame.pc.toNat]? = some instruction

end Machine

/-- A hook that leaves the machine alone stops a run of a linked program exactly before the instruction that it objects
to, whose number counts from one. If the run without a hook dispatches that many instructions, the run is stopped for
the reason of the hook in the state in which the instruction was dispatched, after one instruction less. Otherwise it
ends, and is the run without a hook. -/
theorem stop_prefix_exact {program : Program} (linked : program.Linked) (machine : Machine)
    (loaded : machine.program = program) (positive : 0 < machine.depthLimit) {State : Type} (hook : Hook State)
    (state : State) (number : Nat) (first : 1 ≤ number) (reason : Stop)
    (stops : Machine.StopsAt hook state machine.restart number reason) :
    (∀ between reached instruction, Machine.Passes Machine.noHook () machine.restart (number - 1) () between →
      between.next = .ready reached instruction →
      ∃ enough, ∀ fuel, enough ≤ fuel →
        Machine.StoppedBefore between reached instruction (number - 1) reason (machine.run hook fuel state)) ∧
    ((∀ between reached instruction, Machine.Passes Machine.noHook () machine.restart (number - 1) () between →
      between.next ≠ .ready reached instruction) →
      (∃ enough, ∀ fuel, enough ≤ fuel → (machine.run hook fuel state).ending ≠ .suspended) ∧
      ∀ fuel, (machine.run hook fuel state).machine = (machine.run Machine.noHook fuel ()).machine ∧
        (machine.run hook fuel state).ending = (machine.run Machine.noHook fuel ()).ending) := by
  have hasMain : machine.program.main?.isSome = true := by
    rw [loaded]
    exact linked.has_main
  constructor
  · intro between reached instruction passes isReady
    obtain ⟨enough, stopped⟩ := stops.stopped first passes isReady
    have upright : Stage.Upright program machine.depthLimit (.ready reached instruction) :=
      (Stage.Upright.start linked loaded rfl positive).reaches linked
        ((passes.reaches Machine.no_hook_attends).tail (.advanced isReady ⟨rfl, rfl, rfl⟩))
    have count : between.executed = number - 1 := by
      rw [passes.executed_eq Machine.no_hook_attends]
      exact Nat.zero_add _
    obtain ⟨frame, callers, _, _, advanced⟩ := Machine.next_eq_ready isReady
    have sameOutput : reached.output = between.output := by rw [advanced]
    have sameCount : reached.executed = between.executed := by rw [advanced]
    refine ⟨enough, ?_⟩
    intro fuel isEnough
    obtain ⟨here, ending⟩ := stopped fuel isEnough
    have final : (machine.run hook fuel state).machine = { reached with output := between.output.flush.2 } := by
      rw [Machine.run, if_pos hasMain, Machine.finish, here, sameOutput]
    constructor
    · rw [Machine.run, if_pos hasMain, Machine.finish, ending]
    · rw [final]
      exact sameCount.trans count
    · rw [final]
    · exact final
    · rw [final]
      exact upright.stands
  · intro never
    have same (fuel : Nat) := stops.unnoticed first never .start .start first fuel
    have runs (fuel : Nat) : (machine.run hook fuel state).machine = (machine.run Machine.noHook fuel ()).machine ∧
        (machine.run hook fuel state).ending = (machine.run Machine.noHook fuel ()).ending := by
      obtain ⟨sameMachine, sameEnding⟩ := same fuel
      rw [Machine.run, Machine.run, if_pos hasMain, if_pos hasMain, Machine.finish, Machine.finish, sameMachine,
        sameEnding]
      exact ⟨rfl, rfl⟩
    refine ⟨?_, runs⟩
    rcases Machine.ends_or_completes machine.restart (number - 1) with
      ⟨enough, ended⟩ | ⟨between, reached, instruction, passes, isReady⟩
    · refine ⟨enough, ?_⟩
      intro fuel isEnough suspended
      have longer := Machine.loop_more isEnough () machine.restart ended
      rw [← longer] at ended
      rw [(runs fuel).2, Machine.run, if_pos hasMain] at suspended
      rcases Machine.finish_ending (Machine.loop Machine.noHook fuel () machine.restart) with
        kept | ⟨_, failure, failed⟩
      · exact ended (kept.symm.trans suspended)
      · cases failed.symm.trans suspended
    · exact absurd isReady (never between reached instruction passes)

/-- The hook that counts how often it was asked and stops the run at the given time. -/
def stopBefore (number : Nat) (reason : Stop) : Hook Nat := fun asked machine =>
  { state := asked + 1, machine, verdict := if asked + 1 < number then .proceed else .stop reason }

/-- The hook that counts was asked once for each completed instruction. Leaving a frame does not ask it. -/
theorem asked_completed {number : Nat} {reason : Stop} {machine between : Machine} {completed asked : Nat}
    (passes : Machine.Passes (stopBefore number reason) 0 machine completed asked between) : asked = completed := by
  induction passes with
  | start => rfl
  | left _ _ ih => exact ih
  | executed _ _ _ _ ih => exact congrArg Nat.succ ih

/-- The hook that counts stops every run when it is asked about the instruction with the given number. It never
touches the machine. -/
theorem stop_before_stops (number : Nat) (reason : Stop) (machine : Machine) :
    Machine.StopsAt (stopBefore number reason) 0 machine number reason := by
  constructor
  · intro completed asked between reached instruction passes isReady
    rfl
  · intro completed asked between reached instruction passes isReady before
    rw [asked_completed passes]
    exact if_pos before
  · intro completed asked between reached instruction passes isReady now
    rw [asked_completed passes]
    exact if_neg (Nat.not_lt_of_le (Nat.le_of_eq now.symm))

/-- A source in which a method writes a character and returns a value to a sum that wants two. -/
def loneTerm : Source := .ofText ".main
BIPUSH 0
INVOKEVIRTUAL f
IADD
.end-main
.method f()
BIPUSH 'A'
OUT
BIPUSH 1
IRETURN
.end-method
"

/-- A machine for a program whose output cannot be flushed. -/
def Program.unflushed (program : Program) : Machine := { program, output := { device := .bytes (some "boom") } }

/-- The run is stopped before the sum, which is its seventh instruction and would fault. The frame of the method is left
by then and its value is on the stack. That the output cannot be flushed does not matter. -/
theorem lone_term_stopped : ∃ program between reached instruction, (loneTerm.compile "l").2 = .ok program ∧
    Machine.Passes Machine.noHook () program.unflushed.restart 6 () between ∧
    between.next = .ready reached instruction ∧ (reached.execute instruction).trap.isSome = true ∧
    reached.frames.map Frame.stack = [[1]] ∧ reached.output.sink.text = "A" ∧
    ∃ enough, ∀ fuel, enough ≤ fuel →
      Machine.StoppedBefore between reached instruction 6 .requested
        (program.unflushed.run (stopBefore 7 .requested) fuel 0) := by
  have comes : (loneTerm.compile "l").2.toOption.any (fun program =>
      let finish := program.unflushed.restart.loop Machine.noHook 7 ()
      decide (finish.ending = .suspended ∧ finish.machine.executed = 6) && finish.machine.next.ready?.any (fun reached =>
        (reached.1.execute reached.2).trap.isSome &&
          decide (reached.1.frames.map Frame.stack = [[1]] ∧ reached.1.output.sink.text = ("A" : Text)))) = true := by
    decide +kernel
  obtain ⟨program, compiled, passes⟩ := exists_ok_of_any comes
  rw [Bool.and_eq_true, decide_eq_true_eq, Option.any_eq_true] at passes
  obtain ⟨⟨suspended, executed⟩, ⟨reached, instruction⟩, advanced, holds⟩ := passes
  rw [Bool.and_eq_true, decide_eq_true_eq] at holds
  obtain ⟨faults, values, written⟩ := holds
  have isReady := Machine.Phase.eq_ready advanced
  obtain ⟨completed, passed⟩ := Machine.suspended_passes .start 7 suspended
  have count := passed.executed_eq Machine.no_hook_attends
  rw [executed] at count
  obtain rfl : completed = 6 := (count.trans (Nat.zero_add completed)).symm
  refine ⟨program, _, reached, instruction, compiled, passed, isReady, faults, values, written, ?_⟩
  exact (stop_prefix_exact (loneTerm.compile_linked "l" program compiled) program.unflushed rfl (Nat.succ_pos 9999)
    (stopBefore 7 .requested) 0 7 (Nat.succ_pos 6) .requested (stop_before_stops 7 .requested _)).1 _ _ _ passed isReady

end IntegerMachine
