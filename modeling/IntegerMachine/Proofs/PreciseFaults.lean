import IntegerMachine.Proofs.CallStack

/-!
# The state that a fault leaves

An instruction that faults has popped some of its operands and done nothing else that the program can see: the frames
below its own, the locals, the pending value and the number of completed instructions are what they were before it,
and the fault names the place of the instruction.

For each way in which an instruction touches its frame there is a lemma that says so, and they are put together for
the instructions of a frame and of the machine. A run with a hook passes through states that its own hook has replied
to, and the number of instructions that it has completed on the way is counted beside it.
-/
namespace IntegerMachine

namespace Frame

/-- A trap has left a frame as it was but for values that were popped, and a fault names its place. -/
structure LeftBy (frame : Frame) (trap : Trap) (after : Frame) : Prop where
  popped : ∃ stack, stack <:+ frame.stack ∧ after = { frame with stack }
  place : ∀ fault, trap = .fault fault → fault.scope = frame.blueprint.name ∧ fault.pc = frame.pc

/-- If an outcome is a trap, it has left the frame as it was but for popped values. -/
def Precise (frame : Frame) (outcome : Outcome Frame) : Prop :=
  ∀ trap, outcome.trap = some trap → frame.LeftBy trap outcome.state

namespace Precise

variable {frame : Frame}

/-- What goes well does not trap, so that there is nothing to show. -/
theorem done (after : Frame) : frame.Precise after.done := by
  intro trap raised
  cases raised

/-- What is precise for a frame from whose stack values were popped is precise for the frame. Values may thus be
popped before the rest of an instruction is looked at. -/
theorem of_popped (taken : List Cell) {rest : List Cell} (stack : frame.stack = taken ++ rest) {outcome : Outcome Frame}
    (precise : Precise { frame with stack := rest } outcome) : frame.Precise outcome := by
  intro trap raised
  obtain ⟨⟨left, suffix, same⟩, place⟩ := precise trap raised
  exact ⟨⟨left, suffix.trans ⟨taken, stack.symm⟩, same⟩, place⟩

/-- A trap before anything was popped leaves the frame as it is. -/
theorem trapped {trap : Trap}
    (place : ∀ fault, trap = .fault fault → fault.scope = frame.blueprint.name ∧ fault.pc = frame.pc) :
    frame.Precise (frame.trapped trap) := by
  rintro _ ⟨⟩
  exact ⟨⟨frame.stack, List.suffix_rfl, rfl⟩, place⟩

/-- A fault of the frame before anything was popped. -/
theorem faulted (kind : FaultKind) (subject : Text) (device : Option Text) :
    frame.Precise (frame.trapped (frame.fault kind subject device)) := by
  apply trapped
  rintro _ ⟨⟩
  exact ⟨rfl, rfl⟩

/-- A look-up outside of a table is no fault, and names no place. -/
theorem outside (index length : Nat) : frame.Precise (frame.trapped (.badIndex index length)) := by
  apply trapped
  intro fault isFault
  cases isFault

/-- An instruction that wants more values than there are pops them all. The empty stack is an end of every stack. -/
theorem underflow : frame.Precise frame.underflow := by
  rintro _ ⟨⟩
  refine ⟨⟨[], List.nil_suffix, rfl⟩, ?_⟩
  rintro _ ⟨⟩
  exact ⟨rfl, rfl⟩

/-- Going on with an operand, or a look-up outside of the operands. Nothing is popped by this. -/
theorem withOperand (instruction : Instruction) {next : Text → Outcome Frame}
    (precise : ∀ operand, frame.Precise (next operand)) : frame.Precise (frame.withOperand instruction next) := by
  unfold Frame.withOperand
  split
  · exact outside 0 0
  · exact precise _

/-- Going on with an immediate value, or a look-up outside of the table. -/
theorem withImmediate {next : Cell → Outcome Frame} (precise : ∀ value, frame.Precise (next value)) :
    frame.Precise (frame.withImmediate next) := by
  unfold Frame.withImmediate
  split
  · exact outside _ _
  · exact precise _

/-- Going on with the slot of a local, or a fault that names the local. -/
theorem withSlot (name : Text) {next : Nat → Outcome Frame} (precise : ∀ slot, frame.Precise (next slot)) :
    frame.Precise (frame.withSlot name next) := by
  unfold Frame.withSlot
  split
  · exact faulted .missingLocal name none
  · exact precise _

/-- Going on with the value of a local. A local without a value is a fault, and one without a place is a look-up
outside of the locals. -/
theorem withLocal (name : Text) {next : Cell → Outcome Frame} (precise : ∀ value, frame.Precise (next value)) :
    frame.Precise (frame.withLocal name next) := by
  apply withSlot
  intro slot
  split
  · exact outside _ _
  · exact faulted .unsetLocal name none
  · exact precise _

/-- Setting a local changes the frame only if nothing traps. -/
theorem store (name : Text) (value : Cell) : frame.Precise (frame.store name value) := by
  apply withSlot
  intro slot
  split
  · exact done _
  · exact outside _ _

/-- A jump that finds its label goes well, and another one is a fault before anything has changed. -/
theorem jump (name : Text) : frame.Precise (frame.jump name) := by
  unfold Frame.jump
  split
  · exact faulted .missingLabel name none
  · exact done _

/-- Two values are combined, or there are too few of them. -/
theorem combine (operation : Cell → Cell → Cell) : frame.Precise (frame.combine operation) := by
  unfold Frame.combine
  split
  · exact done _
  · exact underflow

/-- A branch has popped the value that it tests when its label turns out to be missing. This is one of the cases in
which popped values are gone behind a fault. -/
theorem branch (instruction : Instruction) (test : Cell → Bool) : frame.Precise (frame.branch instruction test) := by
  unfold Frame.branch
  split
  · exact underflow
  · next value rest stack =>
    apply of_popped [value] stack
    dsimp only
    split
    · exact withOperand instruction jump
    · exact done _

end Precise

/-- An instruction that touches nothing but its frame traps precisely. The opcodes are gone through once, and each is
one of the cases above. -/
theorem perform_precise (program : Program) (instruction : Instruction) (frame : Frame) :
    frame.Precise (frame.perform program instruction) := by
  obtain ⟨opcode, operands, line⟩ := instruction
  unfold perform
  cases opcode with
  | label | nop => exact Precise.done _
  | bipush =>
    apply Precise.withImmediate
    intro value
    exact Precise.done _
  | dup | pop =>
    dsimp only
    split
    · exact Precise.underflow
    · exact Precise.done _
  | swap =>
    dsimp only
    split
    · exact Precise.done _
    · exact Precise.underflow
  | iadd | isub | iand | ior => exact Precise.combine _
  | iload =>
    apply Precise.withOperand
    intro name
    apply Precise.withLocal
    intro value
    exact Precise.done _
  | istore =>
    dsimp only
    split
    · exact Precise.underflow
    · next value rest stack =>
      apply Precise.of_popped [value] stack
      apply Precise.withOperand
      intro name
      exact Precise.store name value
  | iinc =>
    apply Precise.withOperand
    intro name
    apply Precise.withLocal
    intro value
    apply Precise.withImmediate
    intro increment
    exact Precise.store name (value + increment)
  | ldcw =>
    apply Precise.withOperand
    intro name
    split
    · exact Precise.faulted .missingConstant name none
    · exact Precise.done _
  | goto => exact Precise.withOperand _ Precise.jump
  | ifeq | iflt => exact Precise.branch _ _
  | ificmpeq =>
    dsimp only
    split
    · next upper lower rest stack =>
      apply Precise.of_popped [upper, lower] stack
      split
      · exact Precise.withOperand _ Precise.jump
      · exact Precise.done _
    · exact Precise.underflow
  | invokevirtual | ireturn | input | output | halt | unassigned => exact Precise.faulted .unknownOpcode _ none

end Frame

namespace Machine

/-- A trap in the innermost frame has left the machine as it was but for values popped from the stack of that frame,
devices and records. -/
structure LeftBy (machine : Machine) (frame : Frame) (callers : List Frame) (trap : Trap) (after : Machine) : Prop where
  frames : ∃ top, frame.LeftBy trap top ∧ after.frames = top :: callers
  pending : after.pending = machine.pending
  halted : after.halted = machine.halted
  executed : after.executed = machine.executed

/-- If an outcome is a trap, it has left the machine as it was but for popped values, devices and records. -/
def Precise (machine : Machine) (frame : Frame) (callers : List Frame) (outcome : Outcome Machine) : Prop :=
  ∀ trap, outcome.trap = some trap → machine.LeftBy frame callers trap outcome.state

namespace Precise

variable {machine : Machine} {frame : Frame} {callers : List Frame}

/-- What goes well does not trap, for machines as for frames. -/
theorem completed {outcome : Outcome Machine} (completed : outcome.trap = none) :
    machine.Precise frame callers outcome := by
  intro trap raised
  rw [completed] at raised
  cases raised

/-- Going on with a precise outcome of the innermost frame, whatever happened to the devices and the journal. Other
parts of the machine must be as before. -/
theorem continued {outcome : Outcome Frame} (precise : frame.Precise outcome) {changed : Machine}
    (pending : changed.pending = machine.pending) (halted : changed.halted = machine.halted)
    (executed : changed.executed = machine.executed) :
    machine.Precise frame callers (changed.continueWith callers outcome) := by
  intro trap raised
  exact ⟨⟨outcome.state, precise trap raised, rfl⟩, pending, halted, executed⟩

/-- A call takes its arguments together, after all that can fail. Before that it fails for want of the method or of
room, and leaves all values on the stack. -/
theorem invoke (name : Text) : machine.Precise frame callers (machine.invoke frame callers name) := by
  unfold Machine.invoke
  split
  · exact continued (Frame.Precise.faulted .missingMethod name none) rfl rfl rfl
  · split
    · exact continued (Frame.Precise.faulted .callOverflow name none) rfl rfl rfl
    · dsimp only
      split
      · exact continued Frame.Precise.underflow rfl rfl rfl
      · exact completed rfl

/-- Every instruction traps precisely. Instructions for the machine are treated here; a return, for example, sets the
pending value only if there is one to take. -/
theorem executeIn (instruction : Instruction) :
    machine.Precise frame callers (machine.executeIn frame callers instruction) := by
  unfold Machine.executeIn
  split
  · split
    · exact continued (Frame.Precise.outside 0 0) rfl rfl rfl
    · exact invoke _
  · split
    · exact continued Frame.Precise.underflow rfl rfl rfl
    · exact completed rfl
  · split
    · exact continued (Frame.Precise.faulted .inputError [] _) rfl rfl rfl
    · exact completed rfl
  · split
    · exact continued Frame.Precise.underflow rfl rfl rfl
    · next value rest stack =>
      dsimp only
      refine continued (Frame.Precise.of_popped [value] stack ?_) rfl rfl rfl
      -- The value is gone from the stack when the device refuses it.
      cases (machine.output.put value).1 with
      | none => exact Frame.Precise.done _
      | some failure => exact Frame.Precise.faulted .outputError [] (some failure)
  · exact completed rfl
  · exact continued (frame.perform_precise machine.program instruction) rfl rfl rfl

end Precise

/-- An instruction that traps is not counted, and counting leaves its outcome as it is. -/
theorem count_trapped {outcome : Outcome Machine} {trap : Trap} (raised : (count outcome).trap = some trap) :
    count outcome = outcome := by
  unfold count at raised ⊢
  split at raised
  · rfl
  · cases raised

/-- An instruction that is completed is counted, once. -/
theorem count_completed {outcome : Outcome Machine} (completed : (count outcome).trap = none) :
    (count outcome).state.executed = outcome.state.executed + 1 := by
  unfold count at completed ⊢
  split at completed
  · next raised =>
    rw [raised] at completed
    cases completed
  · rfl

/-- Execution is tracing, execution in the innermost frame, and counting. -/
theorem execute_eq {machine : Machine} {frame : Frame} {callers : List Frame}
    (frames : machine.frames = frame :: callers) (instruction : Instruction) :
    ∃ journal, machine.execute instruction =
      count ({ machine with journal }.executeIn frame callers instruction) := by
  obtain ⟨journal, traced⟩ := machine.trace_eq frame instruction
  refine ⟨journal, ?_⟩
  rw [← traced, execute, frames]

/-- An instruction that the machine executes in its innermost frame traps precisely. Neither tracing nor counting
changes this. -/
theorem execute_precise {machine : Machine} {frame : Frame} {callers : List Frame}
    (frames : machine.frames = frame :: callers) (instruction : Instruction) :
    machine.Precise frame callers (machine.execute instruction) := by
  intro trap raised
  obtain ⟨journal, executed⟩ := execute_eq frames instruction
  rw [executed] at raised ⊢
  have uncounted := count_trapped raised
  rw [uncounted] at raised ⊢
  obtain ⟨left, pending, halted, number⟩ := Precise.executeIn instruction trap raised
  exact ⟨left, pending, halted, number⟩

/-- Executing in a frame counts nothing by itself, whatever the instruction is. -/
theorem execute_in_executed (machine : Machine) (frame : Frame) (callers : List Frame) (instruction : Instruction) :
    (machine.executeIn frame callers instruction).state.executed = machine.executed := by
  unfold executeIn
  split
  · split
    · rfl
    · unfold invoke
      split
      · rfl
      · split
        · rfl
        · dsimp only
          split <;> rfl
  · split <;> rfl
  · split <;> rfl
  · split <;> rfl
  · rfl
  · rfl

/-- A completed instruction adds one to the number of instructions. -/
theorem execute_executed {machine : Machine} {frame : Frame} {callers : List Frame}
    (frames : machine.frames = frame :: callers) {instruction : Instruction}
    (completed : (machine.execute instruction).trap = none) :
    (machine.execute instruction).state.executed = machine.executed + 1 := by
  obtain ⟨journal, executed⟩ := execute_eq frames instruction
  rw [executed] at completed ⊢
  rw [count_completed completed, execute_in_executed]

/-! ## Runs -/

/-- A machine differs from another one in operand stacks, devices and records at most, and nothing that the machine
keeps about the run is different. -/
structure Handles (before after : Machine) : Prop extends before.Touches after where
  pending : after.pending = before.pending
  halted : after.halted = before.halted
  executed : after.executed = before.executed

/-- A hook works on operand stacks and devices at most, and lets each instruction be executed or stops the run. -/
structure Attends {State : Type} (hook : Hook State) : Prop where
  change : ∀ state machine, Handles machine (hook state machine).machine
  verdict : ∀ state machine, (hook state machine).verdict = .proceed ∨
    ∃ reason, (hook state machine).verdict = .stop reason

/-- Without a hook nothing is changed, and every instruction is executed. -/
theorem no_hook_attends : Attends noHook := by
  constructor
  · intro state machine
    exact ⟨⟨rfl, rfl, rfl⟩, rfl, rfl, rfl⟩
  · intro state machine
    exact .inl rfl

/-- From a state of its hook and a machine, a run has completed so many instructions and is between two instructions
again, with another state and another machine. -/
inductive Passes {State : Type} (hook : Hook State) (start : State) (machine : Machine) :
    Nat → State → Machine → Prop where
  | start : Passes hook start machine 0 start machine
  | left {completed : Nat} {state : State} {before after : Machine} :
      Passes hook start machine completed state before → before.next = .left after →
        Passes hook start machine completed state after
  | executed {completed : Nat} {state : State} {before reached : Machine} {instruction : Instruction} :
      Passes hook start machine completed state before → before.next = .ready reached instruction →
        (hook state reached).verdict = .proceed →
        ((hook state reached).machine.execute instruction).trap = none →
        Passes hook start machine (completed + 1) (hook state reached).state
          ((hook state reached).machine.execute instruction).state

variable {State : Type} {hook : Hook State} {start : State} {machine : Machine} {completed : Nat} {state : State}
  {between : Machine}

/-- A run that traps has passed to an instruction that does, and leaves what the instruction has left. The induction
is on the fuel, and follows what the loop does in each iteration. -/
theorem loop_passes (attends : Attends hook) (passes : Passes hook start machine completed state between) (fuel : Nat)
    {trap : Trap} (ended : (loop hook fuel state between).ending = .trapped trap) :
    ∃ count asked before reached instruction, Passes hook start machine count asked before ∧
      before.next = .ready reached instruction ∧ (hook asked reached).verdict = .proceed ∧
      ((hook asked reached).machine.execute instruction).trap = some trap ∧
      (loop hook fuel state between).machine = ((hook asked reached).machine.execute instruction).state := by
  induction fuel generalizing completed state between with
  | zero => cases ended
  | succ fuel ih =>
    rw [loop] at ended ⊢
    cases phase : between.next with
    | «over» => simp [phase] at ended
    | left after =>
      rw [phase] at ended
      exact ih (.left passes phase) ended
    | ready reached instruction =>
      rw [phase] at ended
      dsimp only at ended ⊢
      rcases attends.verdict state reached with proceeds | ⟨reason, stops⟩
      · rw [proceeds] at ended ⊢
        dsimp only at ended ⊢
        cases raised : ((hook state reached).machine.execute instruction).trap with
        | some own =>
          rw [raised] at ended
          cases ended
          exact ⟨completed, state, between, reached, instruction, passes, phase, proceeds, raised, rfl⟩
        | none =>
          rw [raised] at ended
          exact ih (.executed passes phase proceeds raised) ended
      · rw [stops] at ended
        cases ended

/-- What a run passes through is reached by steps. The invariants of stages therefore hold on the way. -/
theorem Passes.reaches (attends : Attends hook) (passes : Passes hook start machine completed state between) :
    Stage.Reaches Touches (.between machine) (.between between) := by
  induction passes with
  | start => exact .refl
  | left _ isLeft ih => exact .tail ih (.left isLeft)
  | executed _ isReady _ completed ih =>
    exact .tail (.tail ih (.advanced isReady (attends.change _ _).toTouches)) (.executed completed)

/-- The number of instructions that the machine keeps is the number of completed ones, on top of what it was at the
start. The hook does not change it. -/
theorem Passes.executed_eq (attends : Attends hook) (passes : Passes hook start machine completed state between) :
    between.executed = machine.executed + completed := by
  induction passes with
  | start => rfl
  | left _ isLeft ih =>
    obtain ⟨frame, callers, _, _, rfl⟩ := next_eq_left isLeft
    rw [← ih]
    cases callers <;> rfl
  | @executed completed state before reached instruction _ isReady _ completes ih =>
    have handles := attends.change state reached
    obtain ⟨frame, callers, _, _, rfl⟩ := next_eq_ready isReady
    obtain ⟨top, below, frames, _⟩ := List.map_eq_cons_iff.mp handles.frames
    rw [execute_executed frames completes, handles.executed, ih, Nat.add_assoc]

/-- A run has ended with a fault, and its final state is compared with the one in which the faulting instruction was
dispatched, after so many completed instructions. -/
structure FaultedAt (before : Machine) (instruction : Instruction) (completed : Nat) (fault : Fault) (after : Machine) :
    Prop where
  /-- The frames are the same, but some of the uppermost values may be gone from the stack of the innermost one. That
  frame stands at the instruction, and so the fault says. -/
  frames : ∃ frame callers stack, before.frames = frame :: callers ∧ after.frames = { frame with stack } :: callers ∧
    stack.reverse <+: frame.stack.reverse ∧ 0 ≤ frame.pc ∧
    frame.blueprint.code[frame.pc.toNat]? = some instruction ∧
    fault.scope = frame.blueprint.name ∧ fault.pc = frame.pc
  pending : after.pending = before.pending
  halted : after.halted = before.halted
  executed : after.executed = completed

/-- The flush at the end of a run changes nothing but the output, so that the state of a fault is still there. -/
theorem run_machine (hook : Hook State) (machine : Machine) (main : machine.program.main?.isSome = true) (fuel : Nat)
    (state : State) : ∃ output,
      (machine.run hook fuel state).machine = { (loop hook fuel state machine.restart).machine with output } := by
  rw [run, if_pos main]
  exact ⟨_, rfl⟩

end Machine

/-- A run of a linked program that ends with a fault leaves the state in which the faulting instruction was dispatched,
but for operands that the instruction has popped, devices and records. The fault names the place of the instruction,
and the instructions that were completed before it are counted. -/
theorem fault_leaves_precise_state {program : Program} (linked : program.Linked) (machine : Machine)
    (loaded : machine.program = program) (positive : 0 < machine.depthLimit) {State : Type} (hook : Hook State)
    (attends : Machine.Attends hook) (fuel : Nat) (state : State) (fault : Fault)
    (ended : (machine.run hook fuel state).ending = .trapped (.fault fault)) :
    ∃ completed asked between reached instruction,
      Machine.Passes hook state machine.restart completed asked between ∧
      between.next = .ready reached instruction ∧ (hook asked reached).verdict = .proceed ∧
      ((hook asked reached).machine.execute instruction).trap = some (.fault fault) ∧
      (hook asked reached).machine.FaultedAt instruction completed fault (machine.run hook fuel state).machine := by
  have hasMain : machine.program.main?.isSome = true := by
    rw [loaded]
    exact linked.has_main
  have looped := Machine.finish_trapped _ _ ended
  rw [if_pos hasMain] at looped
  obtain ⟨completed, asked, between, reached, instruction, passes, isReady, proceeds, raised, same⟩ :=
    Machine.loop_passes attends .start fuel looped
  refine ⟨completed, asked, between, reached, instruction, passes, isReady, proceeds, raised, ?_⟩
  have handles := attends.change asked reached
  -- The innermost frame stands at the instruction, as at every stage of a run.
  have upright : Stage.Upright program machine.depthLimit (.ready (hook asked reached).machine instruction) :=
    (Stage.Upright.start linked loaded rfl positive).reaches linked
      ((passes.reaches attends).tail (.advanced isReady handles.toTouches))
  obtain ⟨frame, callers, frames, inFront, stands⟩ := upright.stands
  obtain ⟨⟨top, ⟨⟨stack, suffix, rfl⟩, place⟩, left⟩, pending, halted, executed⟩ :=
    Machine.execute_precise frames instruction _ raised
  obtain ⟨scope, pc⟩ := place fault rfl
  have count : reached.executed = completed := by
    obtain ⟨_, _, _, _, rfl⟩ := Machine.next_eq_ready isReady
    exact (passes.executed_eq attends).trans (Nat.zero_add completed)
  obtain ⟨output, final⟩ := Machine.run_machine hook machine hasMain fuel state
  rw [final, same]
  refine ⟨⟨frame, callers, stack, frames, left, List.reverse_prefix.mpr suffix, inFront, stands, scope, pc⟩, pending,
    halted, ?_⟩
  exact executed.trans (handles.executed.trans count)

/-- A source in which a method has returned a value and then wants two values where there is one. -/
def shortSum : Source := .ofText ".main
BIPUSH 0
INVOKEVIRTUAL f
.end-main
.method f()
BIPUSH 7
IRETURN
BIPUSH 1
IADD
.end-method
"

/-- The sum faults in the second frame after five instructions, while the value that was returned is pending. -/
theorem short_sum_leaves_precise_state : ∃ program fault, (shortSum.compile "s").2 = .ok program ∧
    (({ program } : Machine).run Machine.noHook 20 ()).ending = .trapped (.fault fault) ∧
    (({ program } : Machine).run Machine.noHook 20 ()).machine.pending = some 7 ∧
    (({ program } : Machine).run Machine.noHook 20 ()).machine.executed = 5 ∧
    ∃ completed between reached instruction,
      Machine.Passes Machine.noHook () ({ program } : Machine).restart completed () between ∧
      between.next = .ready reached instruction ∧
      reached.FaultedAt instruction completed fault (({ program } : Machine).run Machine.noHook 20 ()).machine := by
  have faults : (shortSum.compile "s").2.toOption.any (fun program =>
      let finish := ({ program } : Machine).run Machine.noHook 20 ()
      finish.ending = .trapped (.fault { kind := .stackUnderflow, scope := "f", pc := 3 }) &&
        finish.machine.pending = some 7 && finish.machine.executed = 5) = true := by
    decide +kernel
  obtain ⟨program, compiled, passes⟩ := exists_ok_of_any faults
  simp only [Bool.and_eq_true, decide_eq_true_eq] at passes
  obtain ⟨⟨ended, pending⟩, executed⟩ := passes
  obtain ⟨completed, _, between, reached, instruction, run, isReady, _, _, left⟩ :=
    fault_leaves_precise_state (shortSum.compile_linked "s" program compiled) { program } rfl (Nat.succ_pos 9999)
      Machine.noHook Machine.no_hook_attends 20 () _ ended
  exact ⟨program, _, compiled, ended, pending, executed, completed, between, reached, instruction, run, isReady, left⟩

end IntegerMachine
