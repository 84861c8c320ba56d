import IntegerMachine.Proofs.Effects
import IntegerMachine.Proofs.Faults
import IntegerMachine.Proofs.Stages
import Mathlib.Data.List.Chain

/-!
# The call stack

In every state of a run of a linked program, the frames are the calls in progress: the lowest one is an activation of
the main block, and each frame above was opened by the call at which the frame below it stands. There are no more of
them than the depth limit allows, each stands inside its code, and each has a place for every local.

The invariant ties neighbouring frames together. It survives a return because the place that a frame returns to is the
one where its caller has been waiting, and it survives a fault because an instruction that traps has changed nothing
but the stack of its own frame. Hooks may work on operand stacks and devices.
-/
namespace IntegerMachine

namespace Frame

/-- The locals as a table of cells. A local that is unset has no value of its own; its cell holds zero. -/
def cells (frame : Frame) : List Cell := frame.locals.map fun value => value.getD 0

/-- Which locals are set. -/
def flags (frame : Frame) : List Bool := frame.locals.map Option.isSome

/-- The cell of a local that is not set holds zero. Both tables are read off one list of optional values, so this is a
matter of how they are defined. -/
theorem unset_cell (frame : Frame) (slot : Nat) (isUnset : frame.flags[slot]? = some false) :
    frame.cells[slot]? = some 0 := by
  rw [flags, List.getElem?_map] at isUnset
  obtain ⟨value, found, noValue⟩ := Option.map_eq_some_iff.mp isUnset
  rw [cells, List.getElem?_map, found]
  cases value with
  | none => rfl
  | some => cases noValue

/-- A frame is an activation of a block of the program, stands inside its code or in front of it, and has one place
for each parameter and variable. -/
structure Sound (program : Program) (frame : Frame) : Prop where
  blueprint : frame.blueprint ∈ program.blueprints
  lower : -1 ≤ frame.pc
  upper : frame.pc < frame.blueprint.code.size
  cells : frame.cells.length = frame.blueprint.params.length + frame.blueprint.vars.length
  flags : frame.flags.length = frame.blueprint.params.length + frame.blueprint.vars.length

/-- A frame was opened by the call at which another one stands, and its parameters are set. -/
structure CalledFrom (program : Program) (callee caller : Frame) : Prop where
  call : ∃ instruction name, 0 ≤ caller.pc ∧ caller.blueprint.code[caller.pc.toNat]? = some instruction ∧
    instruction.opcode = .invokevirtual ∧ instruction.operands = [name] ∧
    program.method? name = some callee.blueprint
  returnPc : callee.returnPc = caller.pc
  params : ∀ slot < callee.blueprint.params.length, callee.flags[slot]? = some true

section Changes

variable {program : Program}

/-- A sound frame has a place for each local of its block, so that no slot of the block lies outside of it. -/
theorem Sound.locals_length {frame : Frame} (sound : frame.Sound program) :
    frame.locals.length = frame.blueprint.locals.length := by
  rw [Blueprint.locals, List.length_append, ← sound.cells, Frame.cells, List.length_map]

/-- A frame that differs from a sound one in its stack, its place and the values of its locals is sound if its place
is. What an instruction does to its own frame is a change of this kind. -/
theorem Sound.changed {before after : Frame} (sound : before.Sound program)
    (blueprint : after.blueprint = before.blueprint) (locals : after.locals.length = before.locals.length)
    (lower : -1 ≤ after.pc) (upper : after.pc < after.blueprint.code.size) : after.Sound program := by
  have places : after.locals.length = after.blueprint.params.length + after.blueprint.vars.length := by
    rw [locals, sound.locals_length, blueprint, Blueprint.locals, List.length_append]
  refine ⟨blueprint ▸ sound.blueprint, lower, upper, ?_, ?_⟩
  · rw [Frame.cells, List.length_map, places]
  · rw [Frame.flags, List.length_map, places]

/-- A new activation of a block is sound if there are not more arguments than locals. It stands in front of its
code. -/
theorem enter_sound {method : Blueprint} (member : method ∈ program.blueprints) (returnPc : Int)
    (arguments : List Cell) (few : arguments.length ≤ method.locals.length) :
    (Frame.enter method returnPc arguments).Sound program := by
  have places : (Frame.enter method returnPc arguments).locals.length = method.params.length + method.vars.length := by
    rw [Frame.enter, List.length_append, List.length_map, List.length_replicate, Nat.add_sub_cancel' few,
      Blueprint.locals, List.length_append]
  refine ⟨member, Int.le_refl _, ?_, ?_, ?_⟩
  · change (-1 : Int) < method.code.size
    omega
  · rw [Frame.cells, List.length_map, places]
    rfl
  · rw [Frame.flags, List.length_map, places]
    rfl

/-- A call stays a call while the caller waits at its place and the parameters of the callee stay set. Stacks,
variables and the place of the callee may change. -/
theorem CalledFrom.changed {callee caller changedCallee changedCaller : Frame}
    (called : CalledFrom program callee caller) (blueprint : changedCallee.blueprint = callee.blueprint)
    (returnPc : changedCallee.returnPc = callee.returnPc)
    (flags : ∀ slot : Nat, callee.flags[slot]? = some true → changedCallee.flags[slot]? = some true)
    (callerBlueprint : changedCaller.blueprint = caller.blueprint) (callerPc : changedCaller.pc = caller.pc) :
    CalledFrom program changedCallee changedCaller := by
  refine ⟨?_, ?_, ?_⟩
  · rw [callerBlueprint, callerPc, blueprint]
    exact called.call
  · rw [returnPc, callerPc, called.returnPc]
  · intro slot isParam
    rw [blueprint] at isParam
    exact flags slot (called.params slot isParam)

/-- The first locals of a new activation are set to the arguments, and these are the parameters. -/
theorem enter_flags (method : Blueprint) (returnPc : Int) (arguments : List Cell) (slot : Nat)
    (isArgument : slot < arguments.length) : (Frame.enter method returnPc arguments).flags[slot]? = some true := by
  rw [flags, enter, List.getElem?_map, List.getElem?_append_left (by rwa [List.length_map]), List.getElem?_map,
    List.getElem?_eq_getElem isArgument]
  rfl

namespace Effect

variable {instruction : Instruction} {frame : Frame} {outcome : Outcome Frame}
  (effect : Effect program instruction frame outcome)

include effect

/-- What is set stays set: an instruction may overwrite a local but never takes its value away. -/
theorem keeps_flags (slot : Nat) (isSet : frame.flags[slot]? = some true) :
    outcome.state.flags[slot]? = some true := by
  cases effect with
  | moved | jumped | starved | refused => exact isSet
  | stored name place value enough stores named found inside =>
    have stored : (frame.locals.set place (some value)).map Option.isSome = frame.flags.set place true := by
      rw [flags, List.map_set]
      rfl
    change ((frame.locals.set place (some value)).map Option.isSome)[slot]? = _
    rw [stored, List.getElem?_set]
    split
    · rename_i here
      subst here
      rw [if_pos]
      rwa [flags, List.length_map]
    · exact isSet

/-- A frame of a linked block that stands inside its code does so afterwards. Jumps go to labels, and linking has
found these inside the code. -/
theorem keeps_place (linked : frame.blueprint.Linked) (lower : -1 ≤ frame.pc)
    (upper : frame.pc < frame.blueprint.code.size) :
    -1 ≤ outcome.state.pc ∧ outcome.state.pc < outcome.state.blueprint.code.size := by
  cases effect with
  | moved | stored | starved | refused => exact ⟨lower, upper⟩
  | jumped name index enough jumps named found =>
    have inside := linked.label_inside found
    change -1 ≤ (index : Int) ∧ (index : Int) < frame.blueprint.code.size
    omega

end Effect

end Changes

end Frame

/-- Frames, the innermost first, are calls in progress within a limit. -/
structure CallStack (program : Program) (limit : Nat) (frames : List Frame) : Prop where
  /-- The lowest frame is one of the main block and returns nowhere. -/
  bottom : ∀ frame, frames.getLast? = some frame → program.main? = some frame.blueprint ∧ frame.returnPc = -1
  /-- Each frame was opened by the call at which the frame below it stands. -/
  calls : frames.IsChain (Frame.CalledFrom program)
  depth : frames.length ≤ limit
  sound : ∀ frame ∈ frames, frame.Sound program
  /-- Locals that are not set hold zero. -/
  unset : ∀ frame ∈ frames, ∀ slot : Nat, frame.flags[slot]? = some false → frame.cells[slot]? = some 0

namespace CallStack

variable {program : Program} {limit : Nat} {frame : Frame} {callers : List Frame}

/-- The innermost frame is sound like all others. -/
theorem top_sound (stack : CallStack program limit (frame :: callers)) : frame.Sound program :=
  stack.sound frame List.mem_cons_self

/-- A single frame of the main block is a call stack, if there may be one frame at all. No call has opened it. -/
theorem start {main : Blueprint} (isMain : program.main? = some main) (room : 0 < limit) :
    CallStack program limit [Frame.enter main (-1) []] := by
  refine ⟨?_, .singleton _, room, ?_, fun inner _ => inner.unset_cell⟩
  · rintro _ ⟨⟩
    exact ⟨isMain, rfl⟩
  · rw [List.forall_mem_singleton]
    exact Frame.enter_sound (List.mem_of_head? isMain) (-1) [] (Nat.zero_le _)

/-- The innermost frame may move and set locals. The call that has opened it is still the one at which the frame below
stands, since that frame is not touched. -/
theorem changed (stack : CallStack program limit (frame :: callers)) {after : Frame}
    (blueprint : after.blueprint = frame.blueprint) (returnPc : after.returnPc = frame.returnPc)
    (flags : ∀ slot : Nat, frame.flags[slot]? = some true → after.flags[slot]? = some true)
    (sound : after.Sound program) : CallStack program limit (after :: callers) := by
  have soundBelow := (List.forall_mem_cons.mp stack.sound).2
  refine ⟨?_, ?_, stack.depth, List.forall_mem_cons.mpr ⟨sound, soundBelow⟩, fun inner _ => inner.unset_cell⟩
  · intro lowest isLowest
    cases callers with
    | nil =>
      cases isLowest
      change program.main? = some after.blueprint ∧ after.returnPc = -1
      rw [blueprint, returnPc]
      exact stack.bottom frame rfl
    | cons caller below => exact stack.bottom lowest isLowest
  · exact stack.calls.imp_head fun called => called.changed blueprint returnPc flags rfl rfl

/-- A call opens a frame above the one that calls, as long as the limit allows for one more. -/
theorem pushed (stack : CallStack program limit (frame :: callers)) {callee : Frame}
    (called : callee.CalledFrom program frame) (sound : callee.Sound program)
    (room : (frame :: callers).length < limit) : CallStack program limit (callee :: frame :: callers) :=
  ⟨stack.bottom, .cons_cons called stack.calls, room, List.forall_mem_cons.mpr ⟨sound, stack.sound⟩,
    fun inner _ => inner.unset_cell⟩

/-- A return drops the innermost frame. The others were calls in progress before and are so without it. -/
theorem popped (stack : CallStack program limit (frame :: callers)) : CallStack program limit callers := by
  refine ⟨?_, stack.calls.tail, Nat.le_of_succ_le stack.depth, (List.forall_mem_cons.mp stack.sound).2,
    fun inner _ => inner.unset_cell⟩
  intro lowest isLowest
  cases callers with
  | nil => cases isLowest
  | cons caller below => exact stack.bottom lowest isLowest

end CallStack

/-- A frame without its operand stack. -/
def Frame.bare (frame : Frame) : Frame := { frame with stack := [] }

/-- Operand stacks play no part in the call stack. A hook that changes nothing else therefore cannot break the
invariant. -/
theorem call_stack_bare (program : Program) (limit : Nat) (frames : List Frame) :
    CallStack program limit (frames.map Frame.bare) ↔ CallStack program limit frames := by
  have called (callee caller : Frame) :
      callee.bare.CalledFrom program caller.bare ↔ callee.CalledFrom program caller :=
    ⟨fun bare => ⟨bare.call, bare.returnPc, bare.params⟩, fun full => ⟨full.call, full.returnPc, full.params⟩⟩
  constructor
  · intro stack
    refine ⟨?_, ?_, ?_, ?_, fun inner _ => inner.unset_cell⟩
    · intro frame isLowest
      exact stack.bottom frame.bare (by rw [List.getLast?_map, isLowest, Option.map_some])
    · exact ((List.isChain_map Frame.bare).mp stack.calls).imp fun callee caller => (called callee caller).mp
    · simpa using stack.depth
    · intro frame member
      have bare := stack.sound frame.bare (List.mem_map_of_mem member)
      exact ⟨bare.blueprint, bare.lower, bare.upper, bare.cells, bare.flags⟩
  · intro stack
    refine ⟨?_, ?_, ?_, ?_, fun inner _ => inner.unset_cell⟩
    · intro frame isLowest
      rw [List.getLast?_map] at isLowest
      obtain ⟨full, isFull, rfl⟩ := Option.map_eq_some_iff.mp isLowest
      exact stack.bottom full isFull
    · exact (List.isChain_map Frame.bare).mpr (stack.calls.imp fun callee caller => (called callee caller).mpr)
    · simpa using stack.depth
    · rw [List.forall_mem_map]
      intro frame member
      have full := stack.sound frame member
      exact ⟨full.blueprint, full.lower, full.upper, full.cells, full.flags⟩

/-- A machine differs from another one in operand stacks, devices and records at most. -/
structure Machine.Touches (before after : Machine) : Prop where
  program : after.program = before.program
  depthLimit : after.depthLimit = before.depthLimit
  frames : after.frames.map Frame.bare = before.frames.map Frame.bare

/-- A machine differs from another one in devices and records at most. -/
structure Machine.Spares (before after : Machine) : Prop where
  program : after.program = before.program
  depthLimit : after.depthLimit = before.depthLimit
  frames : after.frames = before.frames
  pending : after.pending = before.pending

/-- A machine differs from itself in nothing. -/
theorem Machine.Spares.refl (machine : Machine) : machine.Spares machine := ⟨rfl, rfl, rfl, rfl⟩

/-- Who spares frames and the pending value touches operand stacks least of all. What is shown for hooks that work on
stacks holds for those that only watch. -/
theorem Machine.Spares.touches (before after : Machine) (spares : before.Spares after) : before.Touches after :=
  ⟨spares.program, spares.depthLimit, by rw [spares.frames]⟩

/-- An instruction that comes next is the one at which the innermost frame stands. -/
def Stage.Stands : Stage → Prop
  | ready machine instruction => ∃ frame callers, machine.frames = frame :: callers ∧ 0 ≤ frame.pc ∧
      frame.blueprint.code[frame.pc.toNat]? = some instruction
  | _ => True

/-- The frames at a stage of a run are calls in progress, and the innermost one stands at the instruction that comes
next. -/
structure Stage.Upright (program : Program) (limit : Nat) (stage : Stage) : Prop where
  frames : CallStack program limit stage.frames
  loaded : stage.machine.program = program
  limited : stage.machine.depthLimit = limit
  stands : stage.Stands

namespace Stage.Upright

open Machine

variable {program : Program} {limit : Nat}

/-- The frames as the innermost one and its callers, which is the form in which a step is looked at. -/
theorem stack {stage : Stage} {frame : Frame} {callers : List Frame} (upright : Upright program limit stage)
    (frames : stage.frames = frame :: callers) : CallStack program limit (frame :: callers) := by
  rw [← frames]
  exact upright.frames

/-- A run starts with a frame of the main block. A linked program has one. -/
theorem start (linked : program.Linked) {machine : Machine} (loaded : machine.program = program)
    (limited : machine.depthLimit = limit) (positive : 0 < limit) : Upright program limit (between machine.restart) := by
  obtain ⟨main, isMain⟩ := linked.main
  have frames : machine.restart.frames = [Frame.enter main (-1) []] := by
    rw [restart, loaded, isMain]
    rfl
  refine ⟨?_, loaded, limited, trivial⟩
  change CallStack program limit machine.restart.frames
  rw [frames]
  exact .start isMain positive

/-- A frame that is left makes its caller resume where it stands: the place to return to is that of the call, so
nothing but the stack of the caller changes. -/
theorem leave {machine : Machine} {frame : Frame} {callers : List Frame}
    (upright : Upright program limit (between machine)) (frames : machine.frames = frame :: callers) :
    Upright program limit (between (machine.leave frame callers)) := by
  have stack := upright.stack frames
  cases callers with
  | nil => exact ⟨stack.popped, upright.loaded, upright.limited, trivial⟩
  | cons caller below =>
    refine ⟨?_, upright.loaded, upright.limited, trivial⟩
    have back : frame.returnPc = caller.pc := (List.isChain_cons_cons.mp stack.calls).1.returnPc
    have waiting : caller.Sound program := stack.popped.top_sound
    refine stack.popped.changed rfl rfl (fun _ isSet => isSet) (waiting.changed rfl rfl ?_ ?_)
    · exact back ▸ waiting.lower
    · exact back ▸ waiting.upper

/-- A frame that is not at its end advances, and the hook may change operand stacks. The instruction that comes next
is inside the code, and so is the new place. -/
theorem advance {machine changed : Machine} {frame : Frame} {callers : List Frame} {instruction : Instruction}
    (upright : Upright program limit (between machine)) (frames : machine.frames = frame :: callers)
    (stands : frame.blueprint.code[(frame.pc + 1).toNat]? = some instruction)
    (touches : Touches { machine with frames := { frame with pc := frame.pc + 1 } :: callers } changed) :
    Upright program limit (ready changed instruction) := by
  have stack := upright.stack frames
  have sound : frame.Sound program := stack.top_sound
  have inside := (Array.getElem?_eq_some_iff.mp stands).1
  have lower := sound.lower
  have advanced : CallStack program limit ({ frame with pc := frame.pc + 1 } :: callers) := by
    refine stack.changed rfl rfl (fun _ isSet => isSet) (sound.changed rfl rfl ?_ ?_)
    · change -1 ≤ frame.pc + 1
      omega
    · change frame.pc + 1 < frame.blueprint.code.size
      omega
  refine ⟨?_, touches.program.trans upright.loaded, touches.depthLimit.trans upright.limited, ?_⟩
  · apply (call_stack_bare program limit _).mp
    change CallStack program limit (changed.frames.map Frame.bare)
    rw [touches.frames]
    exact (call_stack_bare program limit _).mpr advanced
  · obtain ⟨top, below, split, same, -⟩ := List.map_eq_cons_iff.mp touches.frames
    have samePc : top.pc = frame.pc + 1 := by injection same
    have sameBlueprint : top.blueprint = frame.blueprint := by injection same
    refine ⟨top, below, split, by omega, ?_⟩
    rw [sameBlueprint, samePc]
    exact stands

/-- An instruction that goes well keeps the calls in progress, or adds one to them; one that traps keeps them too. A
call has looked for its method and for room before it opens a frame. -/
theorem execute (linked : program.Linked) {machine : Machine} {instruction : Instruction}
    (upright : Upright program limit (ready machine instruction)) :
    CallStack program limit (machine.execute instruction).state.frames ∧
      (machine.execute instruction).state.program = program ∧
      (machine.execute instruction).state.depthLimit = limit := by
  obtain ⟨frame, callers, frames, inFront, stands⟩ := upright.stands
  have stack := upright.stack frames
  have sound : frame.Sound program := stack.top_sound
  have isLinked : frame.blueprint.Linked := linked.blueprints _ sound.blueprint
  rcases execute_effect frames instruction with stays | ⟨name, method, calls⟩
  · refine ⟨?_, stays.program.trans upright.loaded, stays.depthLimit.trans upright.limited⟩
    obtain ⟨outcome, effect, -, after⟩ := stays.effect
    obtain ⟨lower, upper⟩ := effect.keeps_place isLinked sound.lower sound.upper
    rw [after]
    exact stack.changed effect.keeps.1 effect.keeps.2 effect.keeps_flags
      (sound.changed effect.keeps.1 effect.keeps_length lower upper)
  · refine ⟨?_, calls.program.trans upright.loaded, calls.depthLimit.trans upright.limited⟩
    have found : program.method? name = some method := by rw [← upright.loaded]; exact calls.found
    have operands : instruction.operands = [name] := by
      have one := (isLinked.sound instruction (Array.mem_of_getElem? stands)).count
      rw [calls.opcode] at one
      obtain ⟨only, single⟩ := List.length_eq_one_iff.mp one
      have named := calls.named
      rw [single] at named ⊢
      rw [Option.some.inj named]
    have count : (frame.stack.take method.params.length).reverse.length = method.params.length := by
      rw [List.length_reverse, List.length_take, Nat.min_eq_left (Nat.le_of_lt calls.enough)]
    rw [calls.frames]
    have waiting : CallStack program limit
        ({ frame with stack := frame.stack.drop (method.params.length + 1) } :: callers) :=
      stack.changed rfl rfl (fun _ isSet => isSet) (sound.changed rfl rfl sound.lower sound.upper)
    apply waiting.pushed
    · refine ⟨⟨instruction, name, inFront, stands, calls.opcode, operands, found⟩, rfl, ?_⟩
      intro slot isParam
      exact Frame.enter_flags method frame.pc _ slot (isParam.trans_eq count.symm)
    · apply Frame.enter_sound (linked.method_member found)
      rw [count, Blueprint.locals, List.length_append]
      exact Nat.le_add_right _ _
    · have room := calls.room
      rw [frames, show machine.depthLimit = limit from upright.limited] at room
      exact room

/-- What holds at a stage holds at the next one. There is one case for each kind of step, and each is one of the
lemmas above. -/
theorem step (linked : program.Linked) {before after : Stage} (upright : Upright program limit before)
    (step : Step Touches before after) : Upright program limit after := by
  cases step with
  | left isLeft =>
    obtain ⟨frame, callers, frames, -, rfl⟩ := next_eq_left isLeft
    exact upright.leave frames
  | advanced isReady change =>
    obtain ⟨frame, callers, frames, stands, rfl⟩ := next_eq_ready isReady
    exact upright.advance frames stands change
  | executed | failed =>
    obtain ⟨frames, loaded, limited⟩ := upright.execute linked
    exact ⟨frames, loaded, limited, trivial⟩

/-- What holds at a stage holds at all that are reached from it, by induction on the steps. -/
theorem reaches (linked : program.Linked) {before after : Stage} (upright : Upright program limit before)
    (reaches : Reaches Touches before after) : Upright program limit after := by
  induction reaches with
  | refl => exact upright
  | tail _ next ih => exact ih.step linked next

end Stage.Upright

/-- The frames of a linked program are calls in progress at every stage of every run, and when it has ended, however
it has. This covers runs that trap in the middle of an instruction, runs that a hook stops, and any amount of fuel. -/
theorem run_keeps_call_stack {program : Program} (linked : program.Linked) (machine : Machine)
    (loaded : machine.program = program) (positive : 0 < machine.depthLimit) {State : Type} (hook : Hook State)
    (respects : Machine.Respects Machine.Touches hook) (fuel : Nat) (state : State) :
    (∀ stage, Stage.Reaches Machine.Touches (.between machine.restart) stage →
      CallStack program machine.depthLimit stage.frames) ∧
    CallStack program machine.depthLimit (machine.run hook fuel state).machine.frames := by
  have start := Stage.Upright.start linked loaded rfl positive
  have reached (stage : Stage) (reaches : Stage.Reaches Machine.Touches (.between machine.restart) stage) :
      CallStack program machine.depthLimit stage.frames := (start.reaches linked reaches).frames
  have hasMain : machine.program.main?.isSome = true := by rw [loaded]; exact linked.has_main
  obtain ⟨stage, output, reaches, same, _⟩ := Machine.run_reaches respects machine hasMain fuel state
  refine ⟨reached, ?_⟩
  rw [same]
  exact reached stage reaches

/-- The method that calls itself leaves as many frames as there may be, and they are calls in progress. The run ends
with the limit, not with an empty stack. -/
theorem endless_call_stack : ∃ program, (endless.compile "e").2 = .ok program ∧
    (({ program, depthLimit := 3 } : Machine).run Machine.noHook 20 ()).machine.frames.length = 3 ∧
    (∀ stage, Stage.Reaches Machine.Touches (.between ({ program, depthLimit := 3 } : Machine).restart) stage →
      CallStack program 3 stage.frames) ∧
    CallStack program 3 (({ program, depthLimit := 3 } : Machine).run Machine.noHook 20 ()).machine.frames := by
  have deep : (endless.compile "e").2.toOption.any (fun program =>
      (({ program, depthLimit := 3 } : Machine).run Machine.noHook 20 ()).machine.frames.length = 3) = true := by
    decide +kernel
  obtain ⟨program, compiled, passes⟩ := exists_ok_of_any deep
  exact ⟨program, compiled, of_decide_eq_true passes,
    run_keeps_call_stack (endless.compile_linked "e" program compiled) { program, depthLimit := 3 } rfl (Nat.succ_pos 2)
      Machine.noHook (Machine.no_hook_respects fun _ => ⟨rfl, rfl, rfl⟩) 20 ()⟩

end IntegerMachine
