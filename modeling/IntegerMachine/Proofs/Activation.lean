import IntegerMachine.Proofs.CallStack

/-!
# Activations

A call takes its arguments and the reference below them from the stack of the caller and opens a frame in which the
parameters hold the arguments and the variables are unset. Until that frame is left, whatever is called in between, the
frames below it are as the call has left them. When it is left, the caller is at its call again, and its stack has
grown by the pending value if there is one.

A call and the return from it enclose a part of the run in which there are more frames than the caller and those below
it. The steps of such a part are looked at one by one: each of them changes, adds or drops a frame on top of those.
-/
namespace IntegerMachine

/-- A frame is a later state of the activation that another frame is a state of. -/
structure Frame.Continues (earlier later : Frame) : Prop where
  blueprint : later.blueprint = earlier.blueprint
  returnPc : later.returnPc = earlier.returnPc

namespace Stage

/-- What a step does to the frames: the innermost frame is changed, another frame is opened above it, or it is left. -/
inductive Shift (frame : Frame) (callers : List Frame) (before after : Stage) : Prop where
  | kept (top : Frame) (frames : after.frames = top :: callers) (continues : frame.Continues top)
  | opened (callee top : Frame) (frames : after.frames = callee :: top :: callers) (continues : frame.Continues top)
  | closed (left : after.machine = before.machine.leave frame callers)

/-- What executing an instruction does to the frames. Only a call that goes well opens a frame, and no instruction
leaves one: that happens in between, when a block is at its end. -/
theorem execute_shift {frame : Frame} {callers : List Frame} {machine : Machine} {instruction : Instruction}
    {after : Stage} (frames : machine.frames = frame :: callers)
    (executed : after.machine = (machine.execute instruction).state) :
    Shift frame callers (ready machine instruction) after := by
  rcases Machine.execute_effect frames instruction with stays | ⟨name, method, calls⟩
  · obtain ⟨outcome, effect, -, result⟩ := stays.effect
    exact .kept outcome.state (by rw [Stage.frames, executed, result]) ⟨effect.keeps.1, effect.keeps.2⟩
  · exact .opened _ _ ((congrArg Machine.frames executed).trans calls.frames) ⟨rfl, rfl⟩

/-- Every step changes, adds or drops one frame. All that follows about frames further below is derived from this. -/
theorem Step.shift {frame : Frame} {callers : List Frame} {before after : Stage}
    (step : Step Machine.Spares before after) (frames : before.frames = frame :: callers) :
    Shift frame callers before after := by
  cases step with
  | left isLeft =>
    obtain ⟨top, rest, same, -, rfl⟩ := Machine.next_eq_left isLeft
    cases same.symm.trans frames
    exact .closed rfl
  | advanced isReady spares =>
    obtain ⟨top, rest, same, -, rfl⟩ := Machine.next_eq_ready isReady
    cases same.symm.trans frames
    exact .kept _ spares.frames ⟨rfl, rfl⟩
  | executed completed => exact execute_shift frames rfl
  | failed raised => exact execute_shift frames rfl

/-- An activation of a method is in progress above the given frames. -/
def Covers (method : Blueprint) (returnPc : Int) (below : List Frame) (stage : Stage) : Prop :=
  ∃ inner current, stage.frames = inner ++ current :: below ∧ current.blueprint = method ∧ current.returnPc = returnPc

section Covered

variable {method : Blueprint} {returnPc : Int} {below : List Frame} {stage later : Stage}

/-- Leaving a frame leaves the ones below it. -/
theorem leave_length (machine : Machine) (frame : Frame) (callers : List Frame) :
    (machine.leave frame callers).frames.length = callers.length := by
  cases callers <;> rfl

/-- An activation stays in progress as long as there are more frames than those below it. The frame on top is the one
of the activation or one that was opened after it. -/
theorem Covers.step (covers : stage.Covers method returnPc below) (step : Step Machine.Spares stage later)
    (deep : below.length < later.frames.length) : later.Covers method returnPc below := by
  obtain ⟨inner, current, frames, isMethod, returns⟩ := covers
  cases inner with
  | nil =>
    cases step.shift frames with
    | kept top result continues =>
      exact ⟨[], top, result, continues.blueprint.trans isMethod, continues.returnPc.trans returns⟩
    | opened callee top result continues =>
      exact ⟨[callee], top, result, continues.blueprint.trans isMethod, continues.returnPc.trans returns⟩
    | closed left =>
      rw [Stage.frames, left, leave_length] at deep
      exact absurd deep (Nat.lt_irrefl _)
  | cons first rest =>
    cases step.shift frames with
    | kept top result continues => exact ⟨top :: rest, current, result, isMethod, returns⟩
    | opened callee top result continues => exact ⟨callee :: top :: rest, current, result, isMethod, returns⟩
    | closed left =>
      cases rest with
      | nil => exact ⟨[], _, congrArg Machine.frames left, isMethod, returns⟩
      | cons second others => exact ⟨_ :: others, current, congrArg Machine.frames left, isMethod, returns⟩

/-- When there are no more frames than those below an activation, it has been left: its caller has received the
pending value, and is where the activation returns to. Nothing else of the caller has changed. -/
theorem Covers.returns {caller : Frame} {callers : List Frame} (covers : stage.Covers method returnPc (caller :: callers))
    (step : Step Machine.Spares stage later) (shallow : later.frames.length ≤ (caller :: callers).length) :
    later.frames = { caller with stack := stage.machine.pending.toList ++ caller.stack, pc := returnPc } :: callers ∧
      later.machine.pending = none := by
  obtain ⟨inner, current, frames, isMethod, rfl⟩ := covers
  cases inner with
  | nil =>
    cases step.shift frames with
    | kept top result =>
      rw [result, List.length_cons] at shallow
      exact absurd shallow (Nat.not_succ_le_self _)
    | opened callee top result =>
      rw [result, List.length_cons] at shallow
      exact absurd (Nat.le_of_succ_le shallow) (Nat.not_succ_le_self _)
    | closed left => exact ⟨congrArg Machine.frames left, congrArg Machine.pending left⟩
  | cons first rest =>
    rw [List.cons_append] at frames
    have many : (caller :: callers).length < (rest ++ current :: caller :: callers).length := by
      simp only [List.length_append, List.length_cons]
      omega
    cases step.shift frames with
    | kept top result =>
      rw [result, List.length_cons] at shallow
      omega
    | opened callee top result =>
      rw [result, List.length_cons, List.length_cons] at shallow
      omega
    | closed left =>
      rw [Stage.frames, left, leave_length] at shallow
      omega

end Covered

/-- A stage is reached by steps after each of which there are more frames than a number. -/
abbrev ReachesAbove (depth : Nat) : Stage → Stage → Prop :=
  Relation.ReflTransGen fun stage later => Step Machine.Spares stage later ∧ depth < later.frames.length

/-- An activation is in progress at all stages of the part of a run that it encloses. The induction is on the steps of
this part, after each of which there are more frames than those below. -/
theorem Covers.reaches {method : Blueprint} {returnPc : Int} {below : List Frame} {stage later : Stage}
    (covers : stage.Covers method returnPc below) (reaches : ReachesAbove below.length stage later) :
    later.Covers method returnPc below := by
  induction reaches with
  | refl => exact covers
  | tail _ next ih => exact ih.step next.1 next.2

end Stage

namespace Machine

/-- A call with enough values on the stack goes well exactly if there is room for a frame. The method is known, so
nothing else can go wrong. -/
theorem call_completed_iff {machine : Machine} {frame : Frame} {callers : List Frame} {instruction : Instruction}
    {name : Text} {rest : List Text} {method : Blueprint} (frames : machine.frames = frame :: callers)
    (isCall : instruction.opcode = .invokevirtual) (operands : instruction.operands = name :: rest)
    (found : machine.program.method? name = some method) (enough : method.params.length < frame.stack.length) :
    (machine.execute instruction).trap = none ↔ machine.frames.length < machine.depthLimit := by
  obtain ⟨journal, traced⟩ := machine.trace_eq frame instruction
  have invoked : (machine.execute instruction).trap =
      (({ machine with journal } : Machine).invoke frame callers name).trap := by
    obtain ⟨executed, counted⟩ := count_eq ((machine.trace frame instruction).executeIn frame callers instruction)
    have called : ((machine.trace frame instruction).executeIn frame callers instruction).trap =
        (({ machine with journal } : Machine).invoke frame callers name).trap := by
      rw [traced, executeIn, isCall, operands]
    have entered : machine.execute instruction =
        count ((machine.trace frame instruction).executeIn frame callers instruction) := by rw [execute, frames]
    rw [entered, counted]
    exact called
  rw [invoked, invoke]
  dsimp only
  rw [found]
  dsimp only
  split
  · rename_i full
    exact ⟨fun completed => absurd completed (Option.some_ne_none _), fun room => absurd full (Nat.not_le.mpr room)⟩
  · rename_i room
    rw [if_neg (Nat.not_le.mpr enough)]
    exact ⟨fun _ => Nat.not_le.mp room, fun _ => rfl⟩

/-- A call that goes well opens a frame above that of the caller. The caller loses the arguments and the reference
below them, and keeps the index of its call. -/
theorem call_frames {machine : Machine} {frame : Frame} {callers : List Frame} {instruction : Instruction}
    {name : Text} {rest : List Text} {method : Blueprint} (frames : machine.frames = frame :: callers)
    (isCall : instruction.opcode = .invokevirtual) (operands : instruction.operands = name :: rest)
    (found : machine.program.method? name = some method) (completed : (machine.execute instruction).trap = none) :
    (machine.execute instruction).state.frames =
      Frame.enter method frame.pc (frame.stack.take method.params.length).reverse ::
        { frame with stack := frame.stack.drop (method.params.length + 1) } :: callers := by
  rcases execute_effect frames instruction with stays | ⟨calledName, calledMethod, calls⟩
  · exact absurd isCall (stays.no_call completed)
  · have sameName : name = calledName := by
      have named := calls.named
      rwa [operands, List.head?_cons, Option.some.injEq] at named
    subst sameName
    cases found.symm.trans calls.found
    exact calls.frames

end Machine

/-- A new activation with an argument for each parameter has no value for any variable. Its locals are the parameters
and then the variables. -/
theorem Frame.enter_eq (method : Blueprint) (returnPc : Int) (arguments : List Cell)
    (count : arguments.length = method.params.length) :
    Frame.enter method returnPc arguments =
      { blueprint := method, pc := -1, returnPc, stack := []
        locals := arguments.map some ++ List.replicate method.vars.length none } := by
  rw [Frame.enter, Blueprint.locals, List.length_append, count, Nat.add_sub_cancel_left]

/-- In a new activation of a linked block each parameter is found with its argument. Linking has seen to it that no
two locals have the same name, so that the look-up ends at the right one. -/
theorem Frame.enter_local {method : Blueprint} (linked : method.Linked) (returnPc : Int) {arguments : List Cell}
    {index : Nat} {param : Text} {value : Cell} (isParam : method.params[index]? = some param)
    (isArgument : arguments[index]? = some value) : (Frame.enter method returnPc arguments).local? param = some value := by
  have declared : method.locals[index]? = some param := by
    rw [Blueprint.locals, List.getElem?_append_left (List.getElem?_eq_some_iff.mp isParam).1, isParam]
  have bound : (Frame.enter method returnPc arguments).locals[index]? = some (some value) := by
    have inside := (List.getElem?_eq_some_iff.mp isArgument).1
    rw [Frame.enter, List.getElem?_append_left (by rwa [List.length_map]), List.getElem?_map, isArgument]
    rfl
  have found : (Frame.enter method returnPc arguments).blueprint.slot? param = some index := linked.slot_of_local declared
  rw [Frame.local?, found, Option.bind_some, bound]
  rfl

/-- At any stage of any run at which a call comes next and finds its values on the stack, it goes well if the depth
limit allows for it. It then opens an activation in which the parameters have the arguments as their values. Until
that activation is left, the caller and all frames below it stay as they are; when it is left, the caller is at its
call and has received what is pending. -/
theorem call_isolated_until_return {program : Program} (linked : program.Linked) (machine : Machine)
    (loaded : machine.program = program) (positive : 0 < machine.depthLimit) {before : Machine}
    {instruction : Instruction}
    (reached : Stage.Reaches Machine.Spares (.between machine.restart) (.ready before instruction))
    {frame : Frame} {callers : List Frame} (frames : before.frames = frame :: callers) {name : Text}
    {method : Blueprint} (isCall : instruction.opcode = .invokevirtual) (operands : instruction.operands = [name])
    (found : program.method? name = some method) (below : List Cell) (reference : Cell) (arguments : List Cell)
    (stack : frame.stack.reverse = below ++ reference :: arguments) (count : arguments.length = method.params.length) :
    ((before.execute instruction).trap = none ↔ before.frames.length < machine.depthLimit) ∧
    ((before.execute instruction).trap = none →
      (before.execute instruction).state.frames =
        { blueprint := method, pc := -1, returnPc := frame.pc, stack := []
          locals := arguments.map some ++ List.replicate method.vars.length none } ::
        { frame with stack := below.reverse } :: callers ∧
      (∀ callee, (before.execute instruction).state.current? = some callee → ∀ (index : Nat) param value,
        method.params[index]? = some param → arguments[index]? = some value → callee.local? param = some value) ∧
      ∀ stage, Stage.ReachesAbove (callers.length + 1) (.between (before.execute instruction).state) stage →
        (∃ inner current, stage.frames = inner ++ current :: { frame with stack := below.reverse } :: callers ∧
          current.blueprint = method ∧ current.returnPc = frame.pc) ∧
        ∀ later, Stage.Step Machine.Spares stage later → later.frames.length ≤ callers.length + 1 →
          later.frames = { frame with stack := (below ++ stage.machine.pending.toList).reverse } :: callers ∧
            later.machine.pending = none) := by
  have upright := (Stage.Upright.start linked loaded rfl positive).reaches linked
    (Stage.Reaches.imp Machine.Spares.touches reached)
  have sameProgram : before.program = program := upright.loaded
  have sameLimit : before.depthLimit = machine.depthLimit := upright.limited
  rw [← sameProgram] at found
  -- The stack has its top first, so that the arguments come in the opposite order.
  have onStack : frame.stack = arguments.reverse ++ reference :: below.reverse := by
    rw [← List.reverse_reverse frame.stack, stack]
    simp
  have enough : method.params.length < frame.stack.length := by
    rw [onStack, ← count]
    simp
  have taken : frame.stack.take method.params.length = arguments.reverse := by
    rw [onStack, List.take_left' (by rw [List.length_reverse, count])]
  have left : frame.stack.drop (method.params.length + 1) = below.reverse := by
    rw [onStack, List.append_cons, List.drop_left' (by simp [count])]
  rw [← sameLimit]
  refine ⟨Machine.call_completed_iff frames isCall operands found enough, fun completed => ?_⟩
  have opened : (before.execute instruction).state.frames =
      Frame.enter method frame.pc arguments :: { frame with stack := below.reverse } :: callers := by
    rw [Machine.call_frames frames isCall operands found completed, taken, left, List.reverse_reverse]
  have member : method.Linked := linked.blueprints _ (linked.method_member (sameProgram ▸ found))
  refine ⟨by rw [opened, Frame.enter_eq _ _ _ count], ?_, ?_⟩
  · intro callee isCallee index param value isParam isArgument
    rw [Machine.current?, opened, List.head?_cons, Option.some.injEq] at isCallee
    subst isCallee
    exact Frame.enter_local member frame.pc isParam isArgument
  · intro stage reaches
    have covers : Stage.Covers method frame.pc ({ frame with stack := below.reverse } :: callers)
        (.between (before.execute instruction).state) := ⟨[], _, opened, rfl, rfl⟩
    have stillCovers := covers.reaches reaches
    refine ⟨stillCovers, fun later step shallow => ?_⟩
    obtain ⟨resumed, nothingPending⟩ := stillCovers.returns step shallow
    refine ⟨?_, nothingPending⟩
    rw [resumed, List.reverse_append]
    cases stage.machine.pending <;> rfl

/-- A program that calls a method above a value of its own. -/
def addition : Source := .ofText ".main
BIPUSH 9
BIPUSH 0
BIPUSH 3
BIPUSH 4
INVOKEVIRTUAL add
.end-main
.method add(a, b)
ILOAD a
ILOAD b
IADD
IRETURN
.end-method
"

/-- A run of the program comes to the call, with its values on the stack: the value of its own, the reference and two
arguments. -/
theorem addition_reaches : ∃ program before instruction frame method, (addition.compile "a").2 = .ok program ∧
    Stage.Reaches Machine.Spares (.between ({ program } : Machine).restart) (.ready before instruction) ∧
    instruction.opcode = .invokevirtual ∧ instruction.operands = [("add" : Text)] ∧
    before.frames = [frame] ∧ frame.stack = [4, 3, 0, 9] ∧ frame.pc = 4 ∧
    program.blueprints[0]? = some frame.blueprint ∧ program.method? "add" = some method ∧
    method.params.length = 2 ∧ method.vars.length = 0 := by
  have pushes : (addition.compile "a").2.toOption.any (fun program =>
      let pushed := ({ program } : Machine).restart.loop Machine.noHook 4 ()
      decide (pushed.ending = .suspended) && match pushed.machine.next with
        | .ready before instruction =>
          decide (instruction.opcode = .invokevirtual ∧ instruction.operands = [("add" : Text)] ∧
            before.frames.map (fun frame => (frame.stack, frame.pc, some frame.blueprint)) =
              [([4, 3, 0, 9], 4, program.blueprints[0]?)] ∧
            (program.method? "add").map (fun method => (method.params.length, method.vars.length)) = some (2, 0))
        | _ => false) = true := by
    decide +kernel
  obtain ⟨program, compiled, passes⟩ := exists_ok_of_any pushes
  rw [Bool.and_eq_true, decide_eq_true_eq] at passes
  obtain ⟨suspended, isReady⟩ := passes
  split at isReady
  · rename_i before instruction advanced
    obtain ⟨isCall, operands, shown, found⟩ := of_decide_eq_true isReady
    obtain ⟨frame, frames, values⟩ := List.map_eq_singleton_iff.mp shown
    obtain ⟨stack, place⟩ := Prod.mk.inj values
    obtain ⟨pc, blueprint⟩ := Prod.mk.inj place
    obtain ⟨method, isMethod, counts⟩ := Option.map_eq_some_iff.mp found
    exact ⟨program, before, instruction, frame, method, compiled,
      .tail (Machine.suspended_reaches Machine.Spares.refl suspended) (.advanced advanced (.refl _)), isCall, operands,
      frames, stack, pc, blueprint.symm, isMethod, (Prod.mk.inj counts).1, (Prod.mk.inj counts).2⟩
  · cases isReady

/-- The call takes both arguments and the reference, and leaves the value below them. The first parameter has the
deeper argument. -/
theorem addition_call : ∃ program before instruction frame method, (addition.compile "a").2 = .ok program ∧
    Stage.Reaches Machine.Spares (.between ({ program } : Machine).restart) (.ready before instruction) ∧
    before.frames = [frame] ∧ frame.stack = [4, 3, 0, 9] ∧ program.method? "add" = some method ∧
    (before.execute instruction).state.frames =
      [{ blueprint := method, pc := -1, returnPc := frame.pc, stack := [], locals := [some 3, some 4] },
        { frame with stack := [9] }] := by
  obtain ⟨program, before, instruction, frame, method, compiled, reached, isCall, operands, frames, stack, -, -, found,
    params, vars⟩ := addition_reaches
  refine ⟨program, before, instruction, frame, method, compiled, reached, frames, stack, found, ?_⟩
  have isolated := call_isolated_until_return (addition.compile_linked "a" program compiled) { program } rfl
    (Nat.succ_pos _) reached frames isCall operands found [9] 0 [3, 4] (by rw [stack]; rfl) (by rw [params]; rfl)
  have room : before.frames.length < ({ program } : Machine).depthLimit := by
    rw [frames, List.length_singleton]
    exact Nat.succ_lt_succ (Nat.succ_pos 9998)
  rw [(isolated.2 (isolated.1.mpr room)).1, vars]
  rfl

end IntegerMachine
