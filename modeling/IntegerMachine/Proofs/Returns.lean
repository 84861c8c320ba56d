import IntegerMachine.Proofs.Activation

/-!
# Balanced calls

A return does not leave its method, and there is one place for a value on its way to a caller. In a program whose
methods return with their last instruction and nowhere else, and whose main block does not return, this makes no
difference: a value is pending only at the stage right behind a return, and the frame that has returned is left next.
So every call takes its arguments and the reference below them from the stack of the caller, and gives back one value,
which is the one that its own activation has returned.

Jumps may go anywhere. What they cannot do is to skip the return at the end: a frame is at its end only behind its last
instruction, a jump goes to a label, and a caller resumes behind a call.
-/
namespace IntegerMachine

/-- The last instruction of a block is a return, and no other one is. -/
structure Blueprint.Returning (method : Blueprint) : Prop where
  last : method.code.back?.map Instruction.opcode = some .ireturn
  only : ∀ place < method.code.size, ∀ instruction ∈ method.code[place]?, instruction.opcode = .ireturn →
    place + 1 = method.code.size

/-- Every method returns with its last instruction and nowhere else, and the main block does not return. -/
structure Program.Structured (program : Program) : Prop where
  main : ∀ main ∈ program.main?, ∀ instruction ∈ main.code, instruction.opcode ≠ .ireturn
  methods : ∀ method ∈ program.blueprints.tail, method.Returning

instance (method : Blueprint) : Decidable method.Returning :=
  decidable_of_iff (method.code.back?.map Instruction.opcode = some .ireturn ∧
      ∀ place < method.code.size, ∀ instruction ∈ method.code[place]?, instruction.opcode = .ireturn →
        place + 1 = method.code.size)
    ⟨fun both => ⟨both.1, both.2⟩, fun returning => ⟨returning.last, returning.only⟩⟩

instance (program : Program) : Decidable program.Structured :=
  decidable_of_iff ((∀ main ∈ program.main?, ∀ instruction ∈ main.code, instruction.opcode ≠ .ireturn) ∧
      ∀ method ∈ program.blueprints.tail, method.Returning)
    ⟨fun both => ⟨both.1, both.2⟩, fun structured => ⟨structured.main, structured.methods⟩⟩

/-- A label that is found is no return: at its place stands an instruction that is a label. A jump thus never goes to
the end of a method directly. -/
theorem Blueprint.Linked.label_stands {blueprint : Blueprint} (linked : blueprint.Linked) {name : Text} {index : Nat}
    (found : blueprint.label? name = some index) :
    ∃ instruction, blueprint.code[index]? = some instruction ∧ instruction.opcode = .label := by
  rw [linked.label_eq_scan, List.findIdx?_eq_some_iff_getElem] at found
  obtain ⟨inside, isLabel, -⟩ := found
  refine ⟨blueprint.code.toList[index], ?_, ?_⟩
  · rw [← Array.getElem?_toList, List.getElem?_eq_getElem inside]
  · rw [Blueprint.isLabel, Bool.and_eq_true, decide_eq_true_eq] at isLabel
    exact isLabel.1

namespace Stage

/-- The innermost frame, which is one of a method, executes its last instruction, a return, and the value that is taken
from its stack becomes the pending one. -/
structure Returns (frame : Frame) (callers : List Frame) (value : Cell) (before after : Stage) : Prop where
  executes : ∃ machine instruction, before = ready machine instruction ∧ instruction.opcode = .ireturn ∧
    frame.blueprint.code[frame.pc.toNat]? = some instruction ∧ after = between (machine.execute instruction).state
  frames : before.frames = frame :: callers
  last : frame.pc + 1 = frame.blueprint.code.size
  called : callers ≠ []
  popped : frame.stack.head? = some value
  rest : after.frames = { frame with stack := frame.stack.tail } :: callers
  pending : after.machine.pending = some value

/-- The frame that has returned is left next, and nothing is pending then. It is at its end, since its return was the
last instruction. -/
theorem Returns.left_next {frame : Frame} {callers : List Frame} {value : Cell} {before after : Stage}
    (returned : Returns frame callers value before after) {later : Stage} (step : Step Machine.Spares after later) :
    later.machine = after.machine.leave { frame with stack := frame.stack.tail } callers ∧
      later.machine.pending = none := by
  obtain ⟨machine, instruction, -, -, -, rfl⟩ := returned.executes
  have rest := returned.rest
  cases step with
  | left isLeft =>
    obtain ⟨top, below, frames, -, rfl⟩ := Machine.next_eq_left isLeft
    cases frames.symm.trans rest
    obtain ⟨caller, others, rfl⟩ := List.exists_cons_of_ne_nil returned.called
    exact ⟨rfl, rfl⟩
  | advanced isReady spares =>
    obtain ⟨top, below, frames, stands, -⟩ := Machine.next_eq_ready isReady
    cases frames.symm.trans rest
    have last := returned.last
    have inside := (Array.getElem?_eq_some_iff.mp stands).1
    dsimp only at inside
    omega

namespace Upright

open Machine

variable {program : Program} {limit : Nat}

/-- A frame above another one is an activation of a method. -/
theorem is_method (linked : program.Linked) {stage : Stage} (upright : Upright program limit stage)
    {frame caller : Frame} {callers : List Frame} (frames : stage.frames = frame :: caller :: callers) :
    frame.blueprint ∈ program.blueprints.tail := by
  obtain ⟨instruction, name, -, -, -, -, found⟩ := (List.isChain_cons_cons.mp (upright.stack frames).calls).1.call
  rw [linked.method_eq_scan] at found
  exact List.mem_of_find?_eq_some found

/-- An innermost frame of a structured program that is at its end and above another one stands at its return. Its last
instruction is one, and it cannot be empty. -/
theorem stands_at_return (linked : program.Linked) (structured : program.Structured) {stage : Stage}
    (upright : Upright program limit stage) {frame caller : Frame} {callers : List Frame}
    (frames : stage.frames = frame :: caller :: callers)
    (atEnd : frame.blueprint.code[(frame.pc + 1).toNat]? = none) :
    0 ≤ frame.pc ∧ ∃ instruction, frame.blueprint.code[frame.pc.toNat]? = some instruction ∧
      instruction.opcode = .ireturn := by
  have sound := (upright.stack frames).top_sound
  have lower := sound.lower
  have upper := sound.upper
  have returns := (structured.methods _ (upright.is_method linked frames)).last
  rw [Array.back?_eq_getElem?] at returns
  obtain ⟨instruction, isLast, isReturn⟩ := Option.map_eq_some_iff.mp returns
  have inside := (Array.getElem?_eq_some_iff.mp isLast).1
  have outside := Array.getElem?_eq_none_iff.mp atEnd
  have place : frame.pc.toNat = frame.blueprint.code.size - 1 := by omega
  refine ⟨by omega, instruction, ?_, isReturn⟩
  rw [place]
  exact isLast

/-- A return that goes well is the last instruction of a method, as there is none elsewhere, and in particular none in
the main block. -/
theorem return_returns (linked : program.Linked) (structured : program.Structured) {machine : Machine}
    {instruction : Instruction} (upright : Upright program limit (ready machine instruction))
    (isReturn : instruction.opcode = .ireturn) (completed : (machine.execute instruction).trap = none) :
    ∃ frame callers value, Returns frame callers value (ready machine instruction)
      (between (machine.execute instruction).state) := by
  obtain ⟨frame, callers, frames, inFront, stands⟩ := upright.stands
  have inside := (Array.getElem?_eq_some_iff.mp stands).1
  have called : callers ≠ [] := by
    rintro rfl
    have isMain := ((upright.stack frames).bottom frame rfl).1
    exact structured.main _ isMain instruction (Array.mem_of_getElem? stands) isReturn
  have last : frame.pc + 1 = frame.blueprint.code.size := by
    obtain ⟨caller, below, rfl⟩ := List.exists_cons_of_ne_nil called
    have only := (structured.methods _ (upright.is_method linked frames)).only _ inside instruction stands isReturn
    omega
  rcases execute_effect frames instruction with stays | ⟨name, method, calls⟩
  · obtain ⟨value, rest, stack, after, pending⟩ := stays.returned completed isReturn
    refine ⟨frame, callers, value, ⟨machine, instruction, rfl, isReturn, stands, rfl⟩, frames, last, called, ?_, ?_,
      pending⟩
    · rw [stack, List.head?_cons]
    · rw [stack, List.tail_cons]
      exact after
  · exact absurd (calls.opcode.symm.trans isReturn) (by decide)

/-- A value is pending only right behind the return that has taken it from the stack. The induction is on the stages
that are reached: a frame with a pending value is at its end, so that the next step leaves it. -/
theorem pending_returned (linked : program.Linked) (structured : program.Structured) {start stage : Stage}
    (upright : Upright program limit start) (nothing : start.machine.pending = none)
    (reaches : Reaches Spares start stage) {value : Cell} (isPending : stage.machine.pending = some value) :
    ∃ before frame callers, Reaches Spares start before ∧ Returns frame callers value before stage := by
  induction reaches generalizing value with
  | refl => cases nothing.symm.trans isPending
  | tail earlier last ih =>
    rename_i before after
    have uprightBefore := upright.reaches linked (Reaches.imp Spares.touches earlier)
    cases last with
    | left isLeft =>
      obtain ⟨frame, callers, frames, atEnd, rfl⟩ := next_eq_left isLeft
      cases callers with
      | nil =>
        obtain ⟨_, _, _, -, returned⟩ := ih isPending
        have same := returned.rest.symm.trans frames
        rw [List.cons.injEq] at same
        exact absurd same.2 returned.called
      | cons caller below => cases isPending
    | advanced isReady spares =>
      obtain ⟨frame, callers, frames, stands, rfl⟩ := next_eq_ready isReady
      obtain ⟨_, top, _, -, returned⟩ := ih (spares.pending.symm.trans isPending)
      have same := returned.rest.symm.trans frames
      rw [List.cons.injEq] at same
      have inside := (Array.getElem?_eq_some_iff.mp stands).1
      have atEnd := returned.last
      rw [← same.1] at inside
      dsimp only at inside
      omega
    | executed completed =>
      rename_i machine instruction
      obtain ⟨frame, callers, frames, -, -⟩ := uprightBefore.stands
      have unreturned : machine.pending = none := by
        cases known : machine.pending with
        | none => rfl
        | some other =>
          obtain ⟨_, _, _, -, returned⟩ := ih known
          obtain ⟨_, _, -, -, -, impossible⟩ := returned.executes
          cases impossible
      have isReturn : instruction.opcode = .ireturn := by
        by_contra other
        rcases execute_effect frames instruction with stays | ⟨name, method, calls⟩
        · have kept := stays.pending
          rw [if_neg (fun both => other both.1), unreturned] at kept
          cases kept.symm.trans isPending
        · cases (calls.pending.trans unreturned).symm.trans isPending
      obtain ⟨top, below, taken, returned⟩ := uprightBefore.return_returns linked structured isReturn completed
      obtain rfl : taken = value := Option.some.inj (returned.pending.symm.trans isPending)
      exact ⟨_, top, below, earlier, returned⟩
    | failed raised =>
      rename_i machine instruction trap
      obtain ⟨frame, callers, frames, -, -⟩ := uprightBefore.stands
      rcases execute_effect frames instruction with stays | ⟨name, method, calls⟩
      · have kept := stays.pending
        rw [if_neg (fun both => by cases both.2.symm.trans raised)] at kept
        obtain ⟨_, _, _, -, returned⟩ := ih (kept.symm.trans isPending)
        obtain ⟨_, _, -, -, -, impossible⟩ := returned.executes
        cases impossible
      · cases calls.trap.symm.trans raised

/-- A step to a stage at which a frame above another one is left next was the return of that frame: only behind its
last instruction is a frame at its end. -/
theorem left_returned (linked : program.Linked) (structured : program.Structured) {before : Stage}
    (upright : Upright program limit before) {machine after : Machine} (step : Step Spares before (between machine))
    (left : machine.next = .left after) {frame caller : Frame} {callers : List Frame}
    (frames : machine.frames = frame :: caller :: callers) :
    ∃ top below value, Returns top below value before (between machine) := by
  obtain ⟨own, others, same, atEnd, -⟩ := next_eq_left left
  cases same.symm.trans frames
  have uprightAfter := upright.step linked (step.imp Spares.touches)
  obtain ⟨inFront, last, stands, isReturn⟩ := uprightAfter.stands_at_return linked structured frames atEnd
  cases step with
  | left isLeft =>
    -- The frame has resumed at a call, which is no return.
    obtain ⟨inner, waiting, framesBefore, -, rfl⟩ := next_eq_left isLeft
    cases waiting with
    | nil => cases frames
    | cons outer below =>
      have called := (List.isChain_cons_cons.mp (upright.stack framesBefore).calls).1
      obtain ⟨instruction, name, -, standsAt, isCall, -, -⟩ := called.call
      cases frames
      change outer.blueprint.code[inner.returnPc.toNat]? = some last at stands
      rw [called.returnPc, standsAt] at stands
      cases stands
      cases isCall.symm.trans isReturn
  | executed completed =>
    obtain ⟨inner, waiting, framesBefore, -, standsBefore⟩ := upright.stands
    suffices here : _ by exact upright.return_returns linked structured here completed
    rcases execute_effect framesBefore _ with stays | ⟨name, method, calls⟩
    · obtain ⟨outcome, effect, raised, result⟩ := stays.effect
      rw [completed] at raised
      cases result.symm.trans frames
      cases effect with
      | moved | stored =>
        -- The frame stands where it stood.
        cases stands.symm.trans standsBefore
        exact isReturn
      | jumped name index enough jumps named found =>
        have isLinked := linked.blueprints _ (upright.stack framesBefore).top_sound.blueprint
        obtain ⟨label, standsAt, isLabel⟩ := isLinked.label_stands found
        cases stands.symm.trans standsAt
        cases isLabel.symm.trans isReturn
      | starved | refused => cases raised
    · cases calls.frames.symm.trans frames
      exact absurd inFront (Int.negSucc_not_nonneg 0).mp

end Upright

/-- A step after which there are fewer frames leaves one. Instructions never take frames away. -/
theorem Step.left_of_fewer {stage later : Stage} (step : Step Machine.Spares stage later)
    (fewer : later.frames.length < stage.frames.length) :
    ∃ machine after, stage = between machine ∧ machine.next = .left after := by
  have opened {machine : Machine} (instruction : Instruction) :
      machine.frames.length ≤ (machine.execute instruction).state.frames.length := by
    cases frames : machine.frames with
    | nil => exact Nat.zero_le _
    | cons frame callers =>
      rcases Machine.execute_effect frames instruction with stays | ⟨name, method, calls⟩
      · obtain ⟨outcome, -, -, after⟩ := stays.effect
        rw [after]
        exact Nat.le_refl _
      · rw [calls.frames]
        exact Nat.le_succ _
  cases step with
  | left isLeft => exact ⟨_, _, rfl, isLeft⟩
  | @advanced before reached changed instruction isReady spares =>
    obtain ⟨frame, callers, frames, -, rfl⟩ := Machine.next_eq_ready isReady
    change _ < before.frames.length at fewer
    rw [show (ready changed instruction).frames = _ from spares.frames, frames] at fewer
    exact absurd fewer (Nat.lt_irrefl _)
  | executed | failed => exact absurd fewer (Nat.not_lt.mpr (opened _))

end Stage

/-- A call that goes well takes the arguments and the reference from the stack of its frame, and binds the arguments
in a new one. The stack is written from its bottom here, so that the arguments are in the order of the parameters. -/
theorem Machine.call_opens {machine : Machine} {frame : Frame} {callers : List Frame} {instruction : Instruction}
    {name : Text} {method : Blueprint} (frames : machine.frames = frame :: callers)
    (isCall : instruction.opcode = .invokevirtual) (operands : instruction.operands = [name])
    (found : machine.program.method? name = some method) {below : List Cell} {reference : Cell} {arguments : List Cell}
    (stack : frame.stack.reverse = below ++ reference :: arguments) (count : arguments.length = method.params.length)
    (completed : (machine.execute instruction).trap = none) :
    (machine.execute instruction).state.frames =
      Frame.enter method frame.pc arguments :: { frame with stack := below.reverse } :: callers := by
  have onStack : frame.stack = arguments.reverse ++ reference :: below.reverse := by
    rw [← List.reverse_reverse frame.stack, stack, List.reverse_append, List.reverse_cons, List.append_assoc]
    rfl
  have taken : frame.stack.take method.params.length = arguments.reverse := by
    rw [onStack, List.take_left' (by rw [List.length_reverse, count])]
  have left : frame.stack.drop (method.params.length + 1) = below.reverse := by
    rw [onStack, List.append_cons, List.drop_left' (by simp [count])]
  rw [Machine.call_frames frames isCall operands found completed, taken, left, List.reverse_reverse]

/-- When the activation that a call has opened is left, it has just executed its return, and the caller has received
the value that the return has taken from its stack. The part of the run in between is above the caller, and may have
calls of its own. -/
theorem Stage.Upright.call_balanced {program : Program} {limit : Nat} (linked : program.Linked)
    (structured : program.Structured) {before : Machine} {instruction : Instruction}
    (upright : Upright program limit (ready before instruction)) {frame : Frame} {callers : List Frame}
    (frames : before.frames = frame :: callers) (isCall : instruction.opcode = .invokevirtual) {name : Text}
    (operands : instruction.operands = [name]) {method : Blueprint} (found : program.method? name = some method)
    {below : List Cell} {reference : Cell} {arguments : List Cell}
    (stack : frame.stack.reverse = below ++ reference :: arguments) (count : arguments.length = method.params.length)
    (completed : (before.execute instruction).trap = none) {stage later : Stage}
    (inside : ReachesAbove (callers.length + 1) (between (before.execute instruction).state) stage)
    (step : Step Machine.Spares stage later) (shallow : later.frames.length ≤ callers.length + 1) :
    ∃ earlier callee value, ReachesAbove (callers.length + 1) (between (before.execute instruction).state) earlier ∧
      Returns callee ({ frame with stack := below.reverse } :: callers) value earlier stage ∧
      callee.blueprint = method ∧ callee.returnPc = frame.pc ∧
      later.frames = { frame with stack := (below ++ [value]).reverse } :: callers ∧ later.machine.pending = none := by
  have loaded : before.program = program := upright.loaded
  have opened := Machine.call_opens frames isCall operands (loaded ▸ found) stack count completed
  have uprightInside := upright.step linked (.executed completed)
  have coversFirst : Covers method frame.pc ({ frame with stack := below.reverse } :: callers)
      (between (before.execute instruction).state) := ⟨[], _, opened, rfl, rfl⟩
  have covers := coversFirst.reaches inside
  obtain ⟨resumed, nothing⟩ := covers.returns step shallow
  obtain ⟨inner, current, currentFrames, isMethod, returnPc⟩ := covers
  have fewer : later.frames.length < stage.frames.length := by
    rw [currentFrames, List.length_append, List.length_cons, List.length_cons]
    omega
  obtain ⟨reached, after, rfl, left⟩ := step.left_of_fewer fewer
  obtain ⟨top, others, topFrames, atEnd, isAfter⟩ := Machine.next_eq_left left
  -- The frame that is left is the one of the call: it is directly above the caller.
  have innermost : inner = [] := by
    cases step with
    | left isLeft =>
      cases isLeft.symm.trans left
      have depth := congrArg List.length currentFrames
      rw [Stage.frames, machine, topFrames] at depth
      rw [Stage.frames, machine, isAfter, leave_length] at shallow
      simp only [List.length_append, List.length_cons] at depth
      exact List.eq_nil_of_length_eq_zero (by omega)
    | advanced isReady => cases isReady.symm.trans left
  subst innermost
  rw [List.nil_append] at currentFrames
  cases inside with
  | refl =>
    cases opened.symm.trans currentFrames
    cases topFrames.symm.trans opened
    exact absurd (uprightInside.stands_at_return linked structured opened atEnd).1 (Int.negSucc_not_nonneg 0).mp
  | tail earlier last =>
    have reaches : Reaches Machine.Spares _ _ := Relation.ReflTransGen.mono (fun _ _ both => both.1) _ _ earlier
    obtain ⟨callee, rest, value, returned⟩ := (uprightInside.reaches linked
      (Reaches.imp Machine.Spares.touches reaches)).left_returned linked structured last.1 left currentFrames
    have same := returned.rest.symm.trans currentFrames
    rw [List.cons.injEq] at same
    obtain ⟨rfl, rfl⟩ := same
    refine ⟨_, callee, value, earlier, returned, isMethod, returnPc, ?_, nothing⟩
    rw [resumed, returned.pending, List.reverse_append]
    rfl

open Machine Stage in
/-- In every run of a structured program, a value is pending only between a return and leaving the frame that has
returned; every frame that is left above that of the main block has executed its return as its last instruction; and
what a call leaves on the stack of its caller, in place of the arguments and the reference, is the value that the
return of its own activation has taken from its stack. -/
theorem structured_calls_balance {program : Program} (linked : program.Linked) (structured : program.Structured)
    (machine : Machine) (loaded : machine.program = program) (positive : 0 < machine.depthLimit) :
    (∀ stage value, Reaches Spares (.between machine.restart) stage → stage.machine.pending = some value →
      ∃ before frame callers, Reaches Spares (.between machine.restart) before ∧
        Returns frame callers value before stage ∧ ∀ later, Step Spares stage later →
          later.machine = stage.machine.leave { frame with stack := frame.stack.tail } callers ∧
            later.machine.pending = none) ∧
    (∀ reached after frame caller callers, Reaches Spares (.between machine.restart) (.between reached) →
      reached.frames = frame :: caller :: callers → reached.next = .left after →
      ∃ before returned value, Reaches Spares (.between machine.restart) before ∧
        Returns returned (caller :: callers) value before (.between reached) ∧
        frame = { returned with stack := returned.stack.tail }) ∧
    ∀ before instruction frame callers name method below reference arguments,
      Reaches Spares (.between machine.restart) (.ready before instruction) → before.frames = frame :: callers →
      instruction.opcode = .invokevirtual → instruction.operands = [name] → program.method? name = some method →
      frame.stack.reverse = below ++ reference :: arguments → arguments.length = method.params.length →
      (before.execute instruction).trap = none →
      ∀ stage later, ReachesAbove (callers.length + 1) (.between (before.execute instruction).state) stage →
        Step Spares stage later → later.frames.length ≤ callers.length + 1 →
        ∃ earlier callee value,
          ReachesAbove (callers.length + 1) (.between (before.execute instruction).state) earlier ∧
          Returns callee ({ frame with stack := below.reverse } :: callers) value earlier stage ∧
          callee.blueprint = method ∧ callee.returnPc = frame.pc ∧
          later.frames = { frame with stack := (below ++ [value]).reverse } :: callers ∧
          later.machine.pending = none := by
  have start := Stage.Upright.start linked loaded rfl positive
  have uprightAt {stage : Stage} (reaches : Reaches Spares (.between machine.restart) stage) :=
    start.reaches linked (Reaches.imp Spares.touches reaches)
  refine ⟨?_, ?_, ?_⟩
  · intro stage value reaches isPending
    obtain ⟨before, frame, callers, earlier, returned⟩ :=
      start.pending_returned linked structured rfl reaches isPending
    exact ⟨before, frame, callers, earlier, returned, fun later => returned.left_next⟩
  · intro reached after frame caller callers reaches frames left
    cases reaches with
    | refl =>
      obtain ⟨main, isMain⟩ := linked.main
      rw [restart, loaded, isMain] at frames
      cases frames
    | tail earlier last =>
      obtain ⟨returned, below, value, returns⟩ := (uprightAt earlier).left_returned linked structured last left frames
      have same := returns.rest.symm.trans frames
      rw [List.cons.injEq] at same
      exact ⟨_, returned, value, earlier, same.2 ▸ returns, same.1.symm⟩
  · intro before instruction frame callers name method below reference arguments reaches frames isCall operands found
      stack count completed stage later inside step shallow
    exact (uprightAt reaches).call_balanced linked structured frames isCall operands found stack count completed inside
      step shallow

/-- The call of the addition has a value pending behind the return of its own frame, which is left next. -/
theorem addition_returns : ∃ program reached, (addition.compile "a").2 = .ok program ∧ program.Structured ∧
    Stage.Reaches Machine.Spares (.between ({ program } : Machine).restart) (.between reached) ∧
    reached.pending = some 7 ∧ ∃ before frame callers,
      Stage.Returns frame callers 7 before (.between reached) ∧
      ∀ later, Stage.Step Machine.Spares (.between reached) later →
        later.machine = reached.leave { frame with stack := frame.stack.tail } callers ∧
          later.machine.pending = none := by
  have returned : (addition.compile "a").2.toOption.any (fun program =>
      let nine := ({ program } : Machine).restart.loop Machine.noHook 9 ()
      program.Structured ∧ nine.ending = .suspended ∧ nine.machine.pending = some 7) = true := by
    decide +kernel
  obtain ⟨program, compiled, passes⟩ := exists_ok_of_any returned
  obtain ⟨structured, suspended, isPending⟩ := of_decide_eq_true passes
  have reaches := Machine.suspended_reaches Machine.Spares.refl suspended
  have balanced := structured_calls_balance (addition.compile_linked "a" program compiled) structured { program } rfl
    (Nat.succ_pos _)
  obtain ⟨before, frame, callers, -, returns, leaves⟩ := balanced.1 _ _ reaches isPending
  exact ⟨program, _, compiled, structured, reaches, isPending, before, frame, callers, returns, leaves⟩

end IntegerMachine
