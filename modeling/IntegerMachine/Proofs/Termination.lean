import IntegerMachine.Proofs.IndexSafety

/-!
# Programs that terminate

A program in which every jump goes forward terminates, whatever it calls and however it is fed. It may still recurse,
and a block may call another one many times, so that the length of a run is not bounded by the length of the code. It
is bounded by the depth limit: an activation that has room for a number of frames above it executes each of its
instructions at most once, and each of them opens at most one activation with less room.

The budget of a stage adds up, over all frames, the steps that the rest of the frame can take, activations that it
opens included. Leaving a frame and advancing to an instruction use up a part of it. A call is paid for when its caller
advances to it, so that opening a frame costs nothing more. The budget at the start depends on the program and the
depth limit only.
-/
namespace IntegerMachine

/-- Every jump of a block whose label exists goes to a place behind the jump. -/
def Blueprint.Forward (blueprint : Blueprint) : Prop :=
  ∀ place < blueprint.code.size, ∀ instruction ∈ blueprint.code[place]?, instruction.opcode.isJump = true →
    ∀ name ∈ instruction.operands.head?, ∀ target ∈ blueprint.label? name, place < target

instance (blueprint : Blueprint) : Decidable blueprint.Forward :=
  inferInstanceAs (Decidable (∀ place < blueprint.code.size, ∀ instruction ∈ blueprint.code[place]?,
    instruction.opcode.isJump = true →
      ∀ name ∈ instruction.operands.head?, ∀ target ∈ blueprint.label? name, place < target))

/-- Every jump of a program goes forward. -/
def Program.Forward (program : Program) : Prop := ∀ blueprint ∈ program.blueprints, blueprint.Forward

instance (program : Program) : Decidable program.Forward :=
  inferInstanceAs (Decidable (∀ blueprint ∈ program.blueprints, blueprint.Forward))

/-! ## Budgets -/

/-- The number of steps that an activation takes at most, those of the activations that it opens included, when no
block has more than `size` instructions and there is room for a number of frames, its own among them. -/
def callCost (size : Nat) : Nat → Nat
  | 0 => 0
  | room + 1 => 1 + size * (1 + callCost size room)

/-- The number of instructions behind the one at which a frame stands. -/
def Frame.remaining (frame : Frame) : Nat := frame.blueprint.code.size - (frame.pc + 1).toNat

/-- The number of steps that frames take at most until the last one of them is left. -/
def framesCost (size limit : Nat) : List Frame → Nat
  | [] => 0
  | frame :: callers =>
    1 + frame.remaining * (1 + callCost size (limit - (callers.length + 1))) + framesCost size limit callers

/-- The number of steps that a run takes at most from a stage on. An instruction that comes next may open an
activation. -/
def Stage.budget (size limit : Nat) : Stage → Nat
  | ready machine _ => framesCost size limit machine.frames + callCost size (limit - machine.frames.length)
  | stage => framesCost size limit stage.frames

/-- Operand stacks play no part in what frames cost. A hook may therefore work on them without changing the budget. -/
theorem frames_cost_bare (size limit : Nat) (frames : List Frame) :
    framesCost size limit (frames.map Frame.bare) = framesCost size limit frames := by
  induction frames with
  | nil => rfl
  | cons frame callers ih =>
    rw [List.map_cons, framesCost, framesCost, ih, List.length_map]
    rfl

/-- Frames cost less, the less remains of the innermost one. A jump forward and an instruction that goes on to the
next one are both of this kind. -/
theorem frames_cost_mono (size limit : Nat) {frame after : Frame} (callers : List Frame)
    (less : after.remaining ≤ frame.remaining) :
    framesCost size limit (after :: callers) ≤ framesCost size limit (frame :: callers) := by
  have fewer := Nat.mul_le_mul_right (1 + callCost size (limit - (callers.length + 1))) less
  rw [framesCost, framesCost]
  omega

/-- A new activation costs no more than what there is room for. All of its code remains, each instruction with an
activation that it may open. -/
theorem enter_cost (size room : Nat) (method : Blueprint) (returnPc : Int) (arguments : List Cell)
    (small : method.code.size ≤ size) :
    1 + (Frame.enter method returnPc arguments).remaining * (1 + callCost size room) ≤ callCost size (room + 1) := by
  have whole : (Frame.enter method returnPc arguments).remaining = method.code.size := rfl
  have fewer := Nat.mul_le_mul_right (1 + callCost size room) small
  rw [whole, callCost]
  omega

/-! ## Steps -/

namespace Stage.Upright

open Machine

variable {program : Program} {limit : Nat} (size : Nat)

/-- Leaving a frame uses up a part of the budget. The caller resumes where it stands, so that nothing more remains of
it than before. -/
theorem leave_budget {before after : Machine} (upright : Upright program limit (between before))
    (left : before.next = .left after) : (between after).budget size limit < (between before).budget size limit := by
  obtain ⟨frame, callers, frames, -, rfl⟩ := next_eq_left left
  have stack := upright.stack frames
  change framesCost size limit (before.leave frame callers).frames < framesCost size limit before.frames
  rw [frames, framesCost]
  cases callers with
  | nil =>
    change framesCost size limit [] < _
    rw [framesCost]
    omega
  | cons caller below =>
    have back : frame.returnPc = caller.pc := (List.isChain_cons_cons.mp stack.calls).1.returnPc
    have resumed : framesCost size limit (before.leave frame (caller :: below)).frames ≤
        framesCost size limit (caller :: below) := by
      apply frames_cost_mono
      change caller.blueprint.code.size - (frame.returnPc + 1).toNat ≤ caller.remaining
      rw [back]
      exact Nat.le_refl _
    omega

/-- Advancing to an instruction uses up a part of the budget, also if the hook touches operand stacks. What the
instruction may open is paid for here. -/
theorem advance_budget {before reached changed : Machine} {instruction : Instruction}
    (upright : Upright program limit (between before)) (advanced : before.next = .ready reached instruction)
    (touches : Touches reached changed) :
    (ready changed instruction).budget size limit < (between before).budget size limit := by
  obtain ⟨frame, callers, frames, stands, rfl⟩ := next_eq_ready advanced
  have lower := (upright.stack frames).top_sound.lower
  have inside := (Array.getElem?_eq_some_iff.mp stands).1
  have same : framesCost size limit changed.frames =
      framesCost size limit ({ frame with pc := frame.pc + 1 } :: callers) := by
    rw [← frames_cost_bare, touches.frames, frames_cost_bare]
  have depth : changed.frames.length = callers.length + 1 := by
    have lengths := congrArg List.length touches.frames
    rwa [List.length_map, List.length_map] at lengths
  have one : frame.remaining = { frame with pc := frame.pc + 1 }.remaining + 1 := by
    change frame.blueprint.code.size - (frame.pc + 1).toNat =
      frame.blueprint.code.size - (frame.pc + 1 + 1).toNat + 1
    omega
  change framesCost size limit changed.frames + callCost size (limit - changed.frames.length) <
    framesCost size limit before.frames
  rw [same, depth, frames, framesCost, framesCost, one, Nat.succ_mul]
  omega

/-- Executing an instruction uses no more than what was set aside for it, if jumps go forward and no block is longer
than `size`. A jump leaves less of its frame than there was, and a call opens an activation that was paid for. -/
theorem execute_budget (linked : program.Linked) (forward : program.Forward)
    (small : ∀ blueprint ∈ program.blueprints, blueprint.code.size ≤ size) {machine : Machine}
    {instruction : Instruction} (upright : Upright program limit (ready machine instruction)) :
    framesCost size limit (machine.execute instruction).state.frames ≤
      (ready machine instruction).budget size limit := by
  obtain ⟨frame, callers, frames, inFront, stands⟩ := upright.stands
  have sound : frame.Sound program := (upright.stack frames).top_sound
  have inside := (Array.getElem?_eq_some_iff.mp stands).1
  change _ ≤ framesCost size limit machine.frames + callCost size (limit - machine.frames.length)
  rw [frames]
  rcases execute_effect frames instruction with stays | ⟨name, method, calls⟩
  · obtain ⟨outcome, effect, -, after⟩ := stays.effect
    have less : outcome.state.remaining ≤ frame.remaining := by
      cases effect with
      | moved | stored | starved | refused => exact Nat.le_refl _
      | jumped name index enough jumps named found =>
        have behind : frame.pc.toNat < index :=
          forward _ sound.blueprint _ inside instruction stands jumps name named index found
        change frame.blueprint.code.size - ((index : Int) + 1).toNat ≤
          frame.blueprint.code.size - (frame.pc + 1).toNat
        omega
    have cheaper := frames_cost_mono size limit callers less
    rw [after]
    omega
  · have found : program.method? name = some method := by rw [← upright.loaded]; exact calls.found
    have limited : machine.depthLimit = limit := upright.limited
    have room := calls.room
    rw [frames, limited, List.length_cons] at room
    have opened := enter_cost size (limit - (callers.length + 1 + 1)) method frame.pc
      (frame.stack.take method.params.length).reverse (small method (linked.method_member found))
    have more : limit - (callers.length + 1 + 1) + 1 = limit - (callers.length + 1) := by omega
    rw [more] at opened
    rw [calls.frames, framesCost]
    have waiting : framesCost size limit
        ({ frame with stack := frame.stack.drop (method.params.length + 1) } :: callers) =
          framesCost size limit (frame :: callers) := rfl
    rw [waiting, List.length_cons, List.length_cons]
    omega

end Stage.Upright

/-! ## Runs -/

namespace Machine

variable {State : Type} {hook : Hook State}

/-- A run that has ended ends in the same way with more fuel. The fuel is not looked at again once there is a
result. -/
theorem loop_more {fuel more : Nat} (enough : fuel ≤ more) (state : State) (machine : Machine)
    (ended : (loop hook fuel state machine).ending ≠ .suspended) :
    loop hook more state machine = loop hook fuel state machine := by
  induction fuel generalizing more state machine with
  | zero => exact absurd rfl ended
  | succ fuel ih =>
    obtain ⟨rest, rfl⟩ : ∃ rest, more = rest + 1 := ⟨more - 1, by omega⟩
    have less : fuel ≤ rest := Nat.le_of_succ_le_succ enough
    rw [loop] at ended
    rw [loop, loop]
    cases phase : machine.next with
    | «over» => rfl
    | left after =>
      rw [phase] at ended
      exact ih less state after ended
    | ready reached instruction =>
      rw [phase] at ended
      dsimp only at ended ⊢
      cases verdict : (hook state reached).verdict with
      | stop | trap => rfl
      | skip =>
        rw [verdict] at ended
        exact ih less _ _ ended
      | proceed =>
        rw [verdict] at ended
        dsimp only at ended ⊢
        cases raised : ((hook state reached).machine.execute instruction).trap with
        | some trap => rfl
        | none =>
          rw [raised] at ended
          exact ih less _ _ ended

/-- A run with more fuel than its budget is not suspended. The induction is on the fuel: each unit pays for a step that
uses up a part of the budget. -/
theorem loop_within_budget {program : Program} {size limit : Nat} (linked : program.Linked) (forward : program.Forward)
    (small : ∀ blueprint ∈ program.blueprints, blueprint.code.size ≤ size) (respects : Respects Touches hook)
    (fuel : Nat) (state : State) (machine : Machine) (upright : Stage.Upright program limit (.between machine))
    (enough : (Stage.between machine).budget size limit < fuel) :
    (loop hook fuel state machine).ending ≠ .suspended := by
  induction fuel generalizing state machine with
  | zero => exact absurd enough (Nat.not_lt_zero _)
  | succ fuel ih =>
    rw [loop]
    cases phase : machine.next with
    | «over» => exact fun impossible => by cases impossible
    | left after =>
      have less := upright.leave_budget size phase
      exact ih state after (upright.step linked (.left phase)) (by omega)
    | ready reached instruction =>
      have touches := respects.change state reached
      have advanced := upright.step linked (.advanced phase touches)
      have less := upright.advance_budget size phase touches
      dsimp only
      rcases respects.verdict state reached with proceeds | ⟨reason, stops⟩ | ⟨fault, raises⟩
      · rw [proceeds]
        dsimp only
        cases raised : ((hook state reached).machine.execute instruction).trap with
        | some trap => exact fun impossible => by cases impossible
        | none =>
          have noMore := advanced.execute_budget size linked forward small
          refine ih _ _ (advanced.step linked (.executed raised)) ?_
          exact Nat.lt_of_le_of_lt noMore (by omega)
      · rw [stops]
        exact fun impossible => by cases impossible
      · rw [raises]
        exact fun impossible => by cases impossible

/-- The ending of a run is that of its loop unless the output fails at the end of a run that was completed. A run that
ended otherwise keeps its ending, even if the output fails. -/
theorem finish_ending (result : Finish State) :
    (Machine.finish result).ending = result.ending ∨
      result.ending = .completed ∧ ∃ failure, (Machine.finish result).ending = .flushFailed failure := by
  unfold Machine.finish
  dsimp only
  split
  · rename_i failure completed _
    exact .inr ⟨completed, failure, rfl⟩
  · exact .inl rfl

/-- A machine is over when it is halted or has no frames. The converse is not needed, and is left out. -/
theorem next_eq_over {machine : Machine} (isOver : machine.next = .over) :
    machine.frames = [] ∨ machine.halted = true := by
  unfold next at isOver
  split at isOver
  · rename_i halted
    exact .inr halted
  · rename_i frames
    exact .inl frames
  · dsimp only at isOver
    split at isOver
    · cases isOver
    · cases isOver

end Machine

/-- The size of the longest block of a program. -/
def Program.longest (program : Program) : Nat :=
  (program.blueprints.map fun blueprint => blueprint.code.size).max?.getD 0

/-- How a run ends that is not suspended: all frames were left or the program has halted, and the output may have failed
then; the hook has stopped it; or there was a fault. -/
inductive Finish.Over {State : Type} (hook : Hook State) (result : Finish State) : Prop where
  | completed (ending : result.ending = .completed ∨ ∃ failure, result.ending = .flushFailed failure)
      (atEnd : result.machine.frames = [] ∨ result.machine.halted = true)
  | stopped (reason : Stop) (ending : result.ending = .stopped reason)
      (asked : ∃ state reached, (hook state reached).verdict = .stop reason)
  | faulted (fault : Fault) (ending : result.ending = .trapped (.fault fault))

/-- No block is longer than the longest one. -/
theorem Program.size_le_longest (program : Program) (blueprint : Blueprint) (member : blueprint ∈ program.blueprints) :
    blueprint.code.size ≤ program.longest :=
  List.le_max?_getD_of_mem (List.mem_map_of_mem member)

/-- The budget at the start of a run is at most that of one activation of the main block, with room for as many frames
as the limit allows. -/
theorem start_budget {program : Program} (linked : program.Linked) (machine : Machine)
    (loaded : machine.program = program) (positive : 0 < machine.depthLimit) :
    (Stage.between machine.restart).budget program.longest machine.depthLimit ≤
      callCost program.longest machine.depthLimit := by
  obtain ⟨main, isMain⟩ := linked.main
  have frames : machine.restart.frames = [Frame.enter main (-1) []] := by
    rw [Machine.restart, loaded, isMain]
    rfl
  have only := enter_cost program.longest (machine.depthLimit - 1) main (-1) []
    (program.size_le_longest main (List.mem_of_head? isMain))
  rw [Nat.sub_add_cancel positive] at only
  change framesCost program.longest machine.depthLimit machine.restart.frames ≤ _
  rw [frames, framesCost, framesCost]
  exact only

/-- A linked program whose jumps go forward terminates, whatever the input, the output and the depth limit: there is one
result that every run with enough fuel has, and it is not that of a run that was suspended. How much is enough depends
on the depth limit and the longest block only. -/
theorem forward_jumps_terminate {program : Program} (linked : program.Linked) (forward : program.Forward)
    (machine : Machine) (loaded : machine.program = program) (positive : 0 < machine.depthLimit) {State : Type}
    (hook : Hook State) (respects : Machine.Respects Machine.Touches hook) (state : State) :
    ∃ result : Finish State, result.Over hook ∧
      ∀ fuel, callCost program.longest machine.depthLimit < fuel → machine.run hook fuel state = result := by
  have hasMain : machine.program.main?.isSome = true := by rw [loaded]; exact linked.has_main
  have start := Stage.Upright.start linked loaded rfl positive
  have least := start_budget linked machine loaded positive
  have ended := Machine.loop_within_budget linked forward program.size_le_longest respects
    (callCost program.longest machine.depthLimit + 1) state machine.restart start (by omega)
  have same (fuel : Nat) (enough : callCost program.longest machine.depthLimit < fuel) :
      machine.run hook fuel state =
        Machine.finish (Machine.loop hook (callCost program.longest machine.depthLimit + 1) state machine.restart) := by
    rw [Machine.run, if_pos hasMain, Machine.loop_more enough state machine.restart ended]
  refine ⟨_, ?_, same⟩
  obtain ⟨stage, reaches, here, ends⟩ := Machine.loop_reaches respects
    (callCost program.longest machine.depthLimit + 1) state machine.restart
  have safe := start.reaches_safe linked trivial reaches
  generalize Machine.loop hook (callCost program.longest machine.depthLimit + 1) state machine.restart = result
    at ended here ends
  have atEnd {last : Machine} (isLast : (Stage.between last).machine = result.machine) (isOver : last.next = .over) :
      (Machine.finish result).machine.frames = [] ∨ (Machine.finish result).machine.halted = true := by
    rw [show last = result.machine from isLast] at isOver
    have left : result.machine.frames = [] ∨ result.machine.halted = true := Machine.next_eq_over isOver
    exact left
  rcases Machine.finish_ending result with unchanged | ⟨completed, failed⟩
  · generalize known : result.ending = ending at ended ends
    rw [known] at unchanged
    cases ends with
    | completed isOver => exact .completed (.inl unchanged) (atEnd here isOver)
    | suspended => exact absurd rfl ended
    | stopped reason asked => exact .stopped reason unchanged asked
    | interrupted fault => exact .faulted fault unchanged
    | trapped =>
      obtain ⟨fault, rfl⟩ := safe
      exact .faulted fault unchanged
  · rw [completed] at ends
    cases ends with
    | completed isOver => exact .completed (.inr failed) (atEnd here isOver)

/-- A program in which a method calls itself with smaller and smaller arguments. -/
def countdown : Source := .ofText ".main
BIPUSH 0
BIPUSH 3
INVOKEVIRTUAL down
.end-main
.method down(n)
ILOAD n
IFEQ done
BIPUSH 0
ILOAD n
BIPUSH 1
ISUB
INVOKEVIRTUAL down
POP
done:
ILOAD n
IRETURN
.end-method
"

/-- The method that counts down terminates, whether the depth limit lets it come to its end or not. -/
theorem countdown_terminates : ∃ program, (countdown.compile "c").2 = .ok program ∧ program.Forward ∧
    (({ program } : Machine).run Machine.noHook 60 ()).ending = .completed ∧
    ∀ limit, 0 < limit → ∃ result : Finish Unit, result.Over Machine.noHook ∧
      ∀ fuel, callCost program.longest limit < fuel →
        ({ program, depthLimit := limit } : Machine).run Machine.noHook fuel () = result := by
  have accepted : (countdown.compile "c").2.toOption.any (fun program =>
      program.Forward ∧ (({ program } : Machine).run Machine.noHook 60 ()).ending = .completed) = true := by
    decide +kernel
  obtain ⟨program, compiled, passes⟩ := exists_ok_of_any accepted
  obtain ⟨forward, ends⟩ := of_decide_eq_true passes
  refine ⟨program, compiled, forward, ends, ?_⟩
  intro limit positive
  exact forward_jumps_terminate (countdown.compile_linked "c" program compiled) forward
    { program, depthLimit := limit } rfl positive Machine.noHook (Machine.no_hook_respects fun _ => ⟨rfl, rfl, rfl⟩) ()

end IntegerMachine
