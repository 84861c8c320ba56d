import IntegerMachine.Analysis.Check
import IntegerMachine.Proofs.CallStack

/-!
# Straight-line programs

In a program without jumps, the instructions of a block are executed in the order in which they stand. What analysis
finds out by going through the list of them is then what happens: the depth of the stack that it follows is the height
of the operand stack, and a local into which an earlier instruction stores is set.

The depth behind a call is right only if the method returns one value. It does if each method has a return with
nothing but labels behind it, since the value then is pending when the frame is left. The invariant says of the
innermost frame that it is on the level that analysis expects, or has returned; of all others that they are on that
level once the values that their calls have taken are counted.
-/
namespace IntegerMachine

open Analysis (StackUse callUse)

/-! ## What analysis expects -/

namespace Program

/-- How an instruction uses the stack according to analysis. -/
def stackUse (program : Program) (instruction : Instruction) : StackUse :=
  match instruction.opcode, instruction.operands with
  | .invokevirtual, name :: _ => callUse (((program.method? name).map fun method => method.params.length).getD 0)
  | opcode, _ => Analysis.stackUse opcode

/-- The depth of the stack behind instructions, followed from an earlier depth. -/
def depthAfter (program : Program) (depth : Nat) (code : List Instruction) : Nat :=
  code.foldl (fun depth instruction => (program.stackUse instruction).after depth) depth

/-- Instructions find the values that they need, starting at a depth of the stack. -/
def Fed (program : Program) (depth : Nat) (code : List Instruction) : Prop :=
  ∀ before instruction after, code = before ++ instruction :: after →
    (program.stackUse instruction).needs ≤ program.depthAfter depth before

variable (program : Program) {instruction : Instruction}

/-- An instruction that is no call uses the stack as its opcode does. Only for calls does the program have to be
looked at. -/
theorem stack_use_of_other (other : instruction.opcode ≠ .invokevirtual) :
    program.stackUse instruction = Analysis.stackUse instruction.opcode := by
  unfold stackUse
  split
  · contradiction
  · rfl

/-- How a call of a method uses the stack depends on the number of its parameters, which is that of the method found
under the name. -/
theorem stack_use_of_call {name : Text} {method : Blueprint} (isCall : instruction.opcode = .invokevirtual)
    (named : instruction.operands.head? = some name) (found : program.method? name = some method) :
    program.stackUse instruction = callUse method.params.length := by
  obtain ⟨rest, operands⟩ := List.head?_eq_some_iff.mp named
  unfold stackUse
  rw [isCall, operands]
  dsimp only
  rw [found, Option.map_some, Option.getD_some]

/-- An opcode needs the values that it takes. -/
theorem needs_eq_takes (opcode : Opcode) : (Analysis.stackUse opcode).needs = opcode.takes := by
  cases opcode <;> rfl

/-- An instruction takes no more values than analysis says that it needs. The numbers differ only for a call of a
method that is not found, which takes nothing. -/
theorem takes_le_needs (instruction : Instruction) :
    program.takes instruction ≤ (program.stackUse instruction).needs := by
  by_cases isCall : instruction.opcode = .invokevirtual
  · unfold takes stackUse
    rw [isCall]
    cases instruction.operands with
    | nil => exact Nat.zero_le _
    | cons name rest => cases found : program.method? name <;> simp [found, callUse]
  · rw [program.takes_of_other isCall, program.stack_use_of_other isCall, needs_eq_takes]

/-- The depth behind an instruction other than a call or a return: what it takes is gone, what it gives is there. A
return is left out: analysis takes it to clear the stack, while it takes one value only. -/
theorem after_other {depth : Nat} (other : instruction.opcode ∉ [.invokevirtual, .ireturn])
    (enough : program.takes instruction ≤ depth) :
    (program.stackUse instruction).after depth = depth - program.takes instruction + instruction.opcode.gives := by
  simp only [List.mem_cons, List.not_mem_nil, or_false, not_or] at other
  rw [program.takes_of_other other.1] at enough ⊢
  rw [program.stack_use_of_other other.1]
  generalize instruction.opcode = opcode at other enough
  cases opcode <;> simp [Analysis.stackUse, StackUse.after, Opcode.takes, Opcode.gives] at other enough ⊢ <;> omega

/-- The depth behind a label is the one before it. Labels are instructions of the program that do nothing. -/
theorem label_after (isLabel : instruction.opcode = .label) (depth : Nat) :
    (program.stackUse instruction).after depth = depth := by
  rw [program.after_other (by rw [isLabel]; decide), program.takes_of_other (by rw [isLabel]; exact nofun), isLabel]
  · rfl
  · rw [program.takes_of_other (by rw [isLabel]; exact nofun), isLabel]
    exact Nat.zero_le depth

/-- The depth behind a call: the arguments and the reference are gone, the result is there. The reference and the
result cancel out. -/
theorem call_after (params depth : Nat) : (callUse params).after depth = depth - params := by
  simp [callUse, StackUse.after]
  omega

end Program

/-- None of the instructions is a return. -/
def Unreturned (code : List Instruction) : Prop := ∀ instruction ∈ code, instruction.opcode ≠ .ireturn

/-- What analysis wants of a block without jumps. -/
structure Blueprint.Straight (program : Program) (blueprint : Blueprint) : Prop where
  jumpless : ∀ instruction ∈ blueprint.code, instruction.opcode.isJump = false
  fed : program.Fed 0 blueprint.code.toList
  /-- Behind a return there are labels only. -/
  final : ∀ before instruction after, blueprint.code.toList = before ++ instruction :: after →
    instruction.opcode = .ireturn → ∀ later ∈ after, later.opcode = .label
  /-- A local that is read is a parameter, or something was stored into it before. -/
  valued : ∀ before instruction after, blueprint.code.toList = before ++ instruction :: after →
    instruction.opcode ∈ [.iload, .iinc] → ∀ name slot, instruction.operands.head? = some name →
      blueprint.slot? name = some slot → slot < blueprint.params.length ∨
        ∃ store ∈ before, store.opcode = .istore ∧
          ∃ target, store.operands.head? = some target ∧ blueprint.slot? target = some slot

/-- What analysis wants of a program without jumps. -/
structure Program.Straight (program : Program) : Prop where
  blocks : ∀ blueprint ∈ program.blueprints, blueprint.Straight program
  main : ∀ main, program.main? = some main → main.params = []
  returns : ∀ name method, program.method? name = some method → ¬ Unreturned method.code.toList

section Places

variable {program : Program} {blueprint : Blueprint} {instruction : Instruction} {index : Nat}

/-- The element at a place comes behind those before it and in front of those after it. -/
theorem split_at_place {Element : Type} {list : List Element} {element : Element}
    (found : list[index]? = some element) : list = list.take index ++ element :: list.drop (index + 1) := by
  have behind : list.drop index = element :: list.drop (index + 1) := by
    rw [List.drop_eq_getElem?_toList_append, found, Option.toList_some, List.singleton_append]
  rw [← behind, List.take_append_drop]

/-- The instruction at a place comes behind those before it. -/
theorem split_code (stands : blueprint.code[index]? = some instruction) :
    blueprint.code.toList =
      blueprint.code.toList.take index ++ instruction :: blueprint.code.toList.drop (index + 1) := by
  rw [← Array.getElem?_toList] at stands
  exact split_at_place stands

/-- The instructions up to the one at a place are those before it and this one. -/
theorem take_succ_code (stands : blueprint.code[index]? = some instruction) :
    blueprint.code.toList.take (index + 1) = blueprint.code.toList.take index ++ [instruction] := by
  rw [← Array.getElem?_toList] at stands
  rw [List.take_add_one, stands, Option.toList_some]

/-- The depth behind the instruction at a place follows from the depth in front of it. -/
theorem depth_after_succ (stands : blueprint.code[index]? = some instruction) :
    program.depthAfter 0 (blueprint.code.toList.take (index + 1)) =
      (program.stackUse instruction).after (program.depthAfter 0 (blueprint.code.toList.take index)) := by
  rw [take_succ_code stands, Program.depthAfter, List.foldl_append]
  rfl

/-- No return comes before an instruction that is no label, since behind a return there are labels only. -/
theorem Blueprint.Straight.unreturned (straight : blueprint.Straight program)
    (stands : blueprint.code[index]? = some instruction) (other : instruction.opcode ≠ .label) :
    Unreturned (blueprint.code.toList.take index) := by
  intro earlier member isReturn
  obtain ⟨before, between, split⟩ := List.append_of_mem member
  have code := split_code stands
  rw [split, List.append_assoc, List.cons_append] at code
  exact other (straight.final before earlier _ code isReturn instruction (by simp))

end Places

/-! ## Frames on the expected level -/

namespace Frame

/-- The locals into which instructions store are set. -/
def Stored (frame : Frame) (code : List Instruction) : Prop :=
  ∀ store ∈ code, store.opcode = .istore → ∀ name slot, store.operands.head? = some name →
    frame.blueprint.slot? name = some slot → frame.flags[slot]? = some true

/-- Behind the given number of its instructions, a frame has the height that analysis expects, or a value to be
returned is pending. -/
structure Level (program : Program) (pending : Option Cell) (frame : Frame) (count : Nat) : Prop where
  height : Unreturned (frame.blueprint.code.toList.take count) →
    frame.stack.length = program.depthAfter 0 (frame.blueprint.code.toList.take count)
  returned : ¬ Unreturned (frame.blueprint.code.toList.take count) → pending.isSome = true
  stored : frame.Stored (frame.blueprint.code.toList.take count)

/-- A frame that waits at a call has the height that analysis expects there, less the values that the call has
taken. -/
structure Waits (program : Program) (callee caller : Frame) : Prop where
  height : caller.stack.length + (callee.blueprint.params.length + 1) =
    program.depthAfter 0 (caller.blueprint.code.toList.take caller.pc.toNat)
  stored : caller.Stored (caller.blueprint.code.toList.take caller.pc.toNat)

variable {program : Program} {pending : Option Cell} {frame : Frame} {instruction : Instruction} {index : Nat}

/-- A new frame is on its level. Its stack is empty, as at the start of a block, and nothing has been stored yet. -/
theorem enter_level (method : Blueprint) (returnPc : Int) (arguments : List Cell) :
    (Frame.enter method returnPc arguments).Level program pending 0 := by
  refine ⟨fun _ => rfl, fun returned => absurd ?_ returned, ?_⟩
  · rw [List.take_zero]
    exact nofun
  · rw [List.take_zero]
    exact nofun

/-- What is stored stays so when more locals are set. No instruction unsets a local of its own frame. -/
theorem Stored.mono {after : Frame} {code : List Instruction} (stored : frame.Stored code)
    (blueprint : after.blueprint = frame.blueprint)
    (flags : ∀ slot : Nat, frame.flags[slot]? = some true → after.flags[slot]? = some true) : after.Stored code := by
  intro store member isStore name slot named found
  rw [blueprint] at found
  exact flags slot (stored store member isStore name slot named found)

/-- An instruction that sets the local that it names leaves nothing to be stored. The earlier stores are known to be
set already. -/
theorem Stored.store {after : Frame} {code : List Instruction} (stored : after.Stored code) {name : Text} {slot : Nat}
    (named : instruction.operands.head? = some name) (found : after.blueprint.slot? name = some slot)
    (isSet : after.flags[slot]? = some true) : after.Stored (code ++ [instruction]) := by
  intro store member isStore other otherSlot otherNamed otherFound
  rcases List.mem_append.mp member with earlier | here
  · exact stored store earlier isStore other otherSlot otherNamed otherFound
  · rw [List.mem_singleton.mp here, named, Option.some.injEq] at otherNamed
    subst otherNamed
    cases found.symm.trans otherFound
    exact isSet

/-- An instruction that stores into nothing leaves nothing to be stored. It adds no local to those that have to be
set. -/
theorem Stored.snoc {code : List Instruction} (stored : frame.Stored code) (other : instruction.opcode ≠ .istore) :
    frame.Stored (code ++ [instruction]) := by
  intro store member isStore
  rcases List.mem_append.mp member with earlier | here
  · exact stored store earlier isStore
  · rw [List.mem_singleton.mp here] at isStore
    exact absurd isStore other

namespace Level

variable (straight : frame.blueprint.Straight program) (level : frame.Level program pending index)
  (stands : frame.blueprint.code[index]? = some instruction)

include straight level stands

/-- At an instruction that is no label, a frame has the expected height, since no return can have come before it. -/
theorem height_at (other : instruction.opcode ≠ .label) :
    frame.stack.length = program.depthAfter 0 (frame.blueprint.code.toList.take index) :=
  level.height (straight.unreturned stands other)

/-- A frame has the values that its instruction takes. A label takes none; every other instruction is at the height
that analysis has followed, where it was fed. -/
theorem enough : program.takes instruction ≤ frame.stack.length := by
  by_cases isLabel : instruction.opcode = .label
  · rw [program.takes_of_other (by rw [isLabel]; exact nofun), isLabel]
    exact Nat.zero_le _
  · calc program.takes instruction
      _ ≤ (program.stackUse instruction).needs := program.takes_le_needs instruction
      _ ≤ program.depthAfter 0 (frame.blueprint.code.toList.take index) := straight.fed _ _ _ (split_code stands)
      _ = frame.stack.length := (level.height_at straight stands isLabel).symm

/-- A local that is read is set if the parameters are. It is a parameter, or it was stored into before. -/
theorem set_where_read (params : ∀ slot < frame.blueprint.params.length, frame.flags[slot]? = some true)
    (reads : instruction.opcode ∈ [.iload, .iinc]) {name : Text} {slot : Nat}
    (named : instruction.operands.head? = some name) (found : frame.blueprint.slot? name = some slot) :
    frame.flags[slot]? = some true := by
  rcases straight.valued _ _ _ (split_code stands) reads name slot named found with isParam | earlier
  · exact params slot isParam
  · obtain ⟨store, member, isStore, target, stores, sameSlot⟩ := earlier
    exact level.stored store member isStore target slot stores sameSlot

/-- Behind an instruction other than a call, the height is the expected one: the stack has lost what the instruction
takes and got what it gives. Behind a return a value is pending, and only labels follow. -/
theorem next {after : Frame} {pendingAfter : Option Cell} (blueprint : after.blueprint = frame.blueprint)
    (other : instruction.opcode ≠ .invokevirtual)
    (height : after.stack.length = frame.stack.length - program.takes instruction + instruction.opcode.gives)
    (isPending : pendingAfter = if instruction.opcode = .ireturn then frame.stack.head? else pending)
    (stored : after.Stored (frame.blueprint.code.toList.take (index + 1))) :
    after.Level program pendingAfter (index + 1) := by
  have enough := level.enough straight stands
  refine ⟨?_, ?_, by rwa [blueprint]⟩
  · intro unreturned
    rw [blueprint, take_succ_code stands] at unreturned
    have notReturn : instruction.opcode ≠ .ireturn := unreturned instruction (by simp)
    have before := level.height fun earlier member => unreturned earlier (List.mem_append_left _ member)
    rw [blueprint, depth_after_succ stands, ← before, program.after_other (by simp [other, notReturn]) enough, height]
  · intro returned
    rw [blueprint, take_succ_code stands] at returned
    rw [isPending]
    split
    · rename_i isReturn
      rw [program.takes_of_other other, isReturn] at enough
      obtain ⟨top, rest, stack⟩ := List.exists_cons_of_length_pos enough
      rw [stack]
      rfl
    · rename_i notReturn
      apply level.returned
      intro unreturned
      refine returned fun earlier member => ?_
      rcases List.mem_append.mp member with before | here
      · exact unreturned earlier before
      · rwa [List.mem_singleton.mp here]

end Level

end Frame

/-- A trap is neither for a lack of values on the stack nor for a local that is not set. -/
def Trap.Expected (trap : Trap) : Prop := ∀ fault, trap = .fault fault → fault.kind ∉ [.stackUnderflow, .unsetLocal]

namespace Frame.Level

variable {program : Program} {pending : Option Cell} {frame : Frame} {instruction : Instruction} {index : Nat}
  (straight : frame.blueprint.Straight program) (level : frame.Level program pending index)
  (stands : frame.blueprint.code[index]? = some instruction) {outcome : Outcome Frame}
  (effect : frame.Effect program instruction outcome)

include straight level stands effect

/-- An instruction on the expected level does not lack values, and finds the locals set that it reads. Nothing is said
about other reasons to trap. -/
theorem trap_expected (params : ∀ slot < frame.blueprint.params.length, frame.flags[slot]? = some true) {trap : Trap}
    (raised : outcome.trap = some trap) : trap.Expected := by
  cases effect with
  | moved | stored | jumped => cases raised
  | starved short => exact absurd (level.enough straight stands) (Nat.not_le.mpr short)
  | refused stack reasonTrap reason =>
    cases raised
    cases reason with
    | fault fault other =>
      rintro _ ⟨⟩
      exact other
    | unset name slot reads named found isUnset =>
      have isSet := level.set_where_read straight stands params reads named found
      rw [Frame.flags, List.getElem?_map, isUnset] at isSet
      cases isSet
    | noOperand | noImmediate | noPlace =>
      intro fault same
      cases same

/-- An instruction that goes well and opens no frame leaves its frame at its place and on the expected level. Without
jumps, the place is changed only by advancing. -/
theorem completed (done : outcome.trap = none) : outcome.state.pc = frame.pc ∧
    outcome.state.Level program (if instruction.opcode = .ireturn then frame.stack.head? else pending) (index + 1) := by
  have blueprint := effect.keeps.1
  have flags := effect.keeps_flags
  cases effect with
  | starved | refused => cases done
  | jumped name target enough jumps =>
    rw [straight.jumpless instruction (Array.mem_of_getElem? stands)] at jumps
    cases jumps
  | moved results enough gives other =>
    simp only [List.mem_cons, List.not_mem_nil, or_false, not_or] at other
    refine ⟨rfl, level.next straight stands rfl other.2 ?_ rfl ?_⟩
    · change (results ++ frame.stack.drop _).length = _
      rw [List.length_append, List.length_drop, gives]
      omega
    · rw [take_succ_code stands]
      exact level.stored.snoc other.1
  | stored name slot value enough stores named found inside =>
    refine ⟨rfl, level.next straight stands rfl ?_ ?_ rfl ?_⟩
    · rintro isCall
      simp [isCall] at stores
    · have gives : instruction.opcode.gives = 0 := by
        simp only [List.mem_cons, List.not_mem_nil, or_false] at stores
        rcases stores with isStore | isIncrease
        · rw [isStore]; rfl
        · rw [isIncrease]; rfl
      change (frame.stack.drop _).length = _
      rw [List.length_drop, gives]
      omega
    · rw [take_succ_code stands]
      refine (level.stored.mono blueprint flags).store named found ?_
      change ((frame.locals.set slot (some value)).map Option.isSome)[slot]? = some true
      rw [List.getElem?_map, List.getElem?_set_self inside]
      rfl

end Frame.Level

/-! ## Runs -/

/-- The innermost frame of a stage is on the level that analysis expects, the other frames wait for it, and a trap is
an expected one. -/
def Stage.Leveled (program : Program) : Stage → Prop
  | between machine => machine.frames.IsChain (Frame.Waits program) ∧
      ∀ frame, machine.current? = some frame → frame.Level program machine.pending (frame.pc + 1).toNat
  | ready machine _ => machine.frames.IsChain (Frame.Waits program) ∧
      ∀ frame, machine.current? = some frame → frame.Level program machine.pending frame.pc.toNat
  | trapped _ trap => trap.Expected

namespace Stage.Leveled

open Machine

variable {program : Program} {limit : Nat}

/-- A run starts on the expected level. There is the frame of the main block, or no frame at all if the program has
none. -/
theorem start (machine : Machine) : Leveled program (between machine.restart) := by
  unfold Leveled current? restart
  dsimp only
  cases machine.program.main? with
  | none => exact ⟨.nil, nofun⟩
  | some main =>
    refine ⟨.singleton _, ?_⟩
    rintro _ ⟨⟩
    exact Frame.enter_level main (-1) []

/-- Waiting for a frame is waiting for all that execute the same block. -/
theorem waits_head {frame after : Frame} {callers : List Frame}
    (waits : (frame :: callers).IsChain (Frame.Waits program)) (blueprint : after.blueprint = frame.blueprint) :
    (after :: callers).IsChain (Frame.Waits program) :=
  waits.imp_head fun called => ⟨by rw [blueprint]; exact called.height, called.stored⟩

/-- The parameters of the innermost frame are set: those of a method by its call, and the main block has none. -/
theorem params_set {frame : Frame} {callers : List Frame} (straight : program.Straight)
    (stack : CallStack program limit (frame :: callers)) (slot : Nat) (isParam : slot < frame.blueprint.params.length) :
    frame.flags[slot]? = some true := by
  cases callers with
  | nil =>
    rw [straight.main _ (stack.bottom frame rfl).1] at isParam
    cases isParam
  | cons caller below => exact (List.isChain_cons_cons.mp stack.calls).1.params slot isParam

/-- A frame that is left makes its caller resume on the expected level: the value that it has returned is pending, and
takes the place of the arguments and the reference. -/
theorem leave {machine : Machine} {frame : Frame} {callers : List Frame} (straight : program.Straight)
    (upright : Upright program limit (between machine)) (leveled : Leveled program (between machine))
    (frames : machine.frames = frame :: callers) (atEnd : frame.blueprint.code[(frame.pc + 1).toNat]? = none) :
    Leveled program (between (machine.leave frame callers)) := by
  have stack := upright.stack frames
  obtain ⟨waits, levels⟩ := leveled
  have level := levels frame (by rw [current?, frames, List.head?_cons])
  rw [frames] at waits
  cases callers with
  | nil => exact ⟨.nil, nofun⟩
  | cons caller below =>
    obtain ⟨called, -⟩ := List.isChain_cons_cons.mp stack.calls
    obtain ⟨waiting, waitsBelow⟩ := List.isChain_cons_cons.mp waits
    obtain ⟨instruction, name, inFront, stands, isCall, operands, found⟩ := called.call
    have block := straight.blocks _ stack.popped.top_sound.blueprint
    -- All of the method has been executed, its return among it.
    have wholly : frame.blueprint.code.toList.take (frame.pc + 1).toNat = frame.blueprint.code.toList :=
      List.take_of_length_le (Array.getElem?_eq_none_iff.mp atEnd)
    have isPending := level.returned (by rw [wholly]; exact straight.returns name frame.blueprint found)
    obtain ⟨value, pending⟩ := Option.isSome_iff_exists.mp isPending
    have place : (frame.returnPc + 1).toNat = caller.pc.toNat + 1 := by
      rw [called.returnPc]
      omega
    have unreturned : Unreturned (caller.blueprint.code.toList.take (caller.pc.toNat + 1)) := by
      rw [take_succ_code stands]
      intro earlier member
      rcases List.mem_append.mp member with before | here
      · exact block.unreturned stands (by rw [isCall]; exact nofun) earlier before
      · rw [List.mem_singleton.mp here, isCall]
        exact nofun
    refine ⟨waits_head waitsBelow rfl, ?_⟩
    rintro _ ⟨⟩
    rw [show (Frame.pc _ + 1).toNat = caller.pc.toNat + 1 from place]
    refine ⟨fun _ => ?_, fun returned => absurd unreturned returned, ?_⟩
    · change (machine.pending.toList ++ caller.stack).length = program.depthAfter 0 (caller.blueprint.code.toList.take _)
      have use := program.stack_use_of_call isCall (by rw [operands, List.head?_cons]) found
      have height := waiting.height
      rw [depth_after_succ stands, use, Program.call_after, ← height, pending, Option.toList_some, List.length_append,
        List.length_singleton]
      omega
    · change Frame.Stored _ (caller.blueprint.code.toList.take _)
      rw [take_succ_code stands]
      exact (waiting.stored.mono rfl fun _ isSet => isSet).snoc (by rw [isCall]; exact nofun)

/-- A frame that advances stays on its level. The instruction that it comes to has not been executed yet, and what a
hook may do leaves the frames as they are. -/
theorem advance {machine changed : Machine} {frame : Frame} {callers : List Frame} {instruction : Instruction}
    (leveled : Leveled program (between machine)) (frames : machine.frames = frame :: callers)
    (spares : Spares { machine with frames := { frame with pc := frame.pc + 1 } :: callers } changed) :
    Leveled program (ready changed instruction) := by
  obtain ⟨waits, levels⟩ := leveled
  have level := levels frame (by rw [current?, frames, List.head?_cons])
  rw [frames] at waits
  refine ⟨by rw [spares.frames]; exact waits_head waits rfl, ?_⟩
  rw [current?, spares.frames, spares.pending]
  rintro _ ⟨⟩
  exact ⟨level.height, level.returned, level.stored⟩

/-- An instruction that goes well leads to the expected level, in its own frame or in the one that it opens. One that
traps does so for another reason than a lack of values or a local that is not set. -/
theorem execute {machine : Machine} {instruction : Instruction} (straight : program.Straight)
    (upright : Upright program limit (ready machine instruction)) (leveled : Leveled program (ready machine instruction)) :
    ((machine.execute instruction).trap = none → Leveled program (between (machine.execute instruction).state)) ∧
      ∀ trap, (machine.execute instruction).trap = some trap → trap.Expected := by
  obtain ⟨frame, callers, frames, inFront, stands⟩ := upright.stands
  have stack := upright.stack frames
  obtain ⟨waits, levels⟩ := leveled
  have level := levels frame (by rw [current?, frames, List.head?_cons])
  rw [frames] at waits
  have block := straight.blocks _ stack.top_sound.blueprint
  have loaded : machine.program = program := upright.loaded
  rcases execute_effect frames instruction with stays | ⟨name, method, calls⟩
  · obtain ⟨outcome, effect, sameTrap, after⟩ := stays.effect
    rw [loaded] at effect
    refine ⟨fun completed => ?_, fun trap raised => ?_⟩
    · have keeps := effect.keeps.1
      obtain ⟨place, onLevel⟩ := level.completed block stands effect (sameTrap ▸ completed)
      refine ⟨by rw [after]; exact waits_head waits keeps, ?_⟩
      rw [current?, after]
      rintro _ ⟨⟩
      have succ : (outcome.state.pc + 1).toNat = frame.pc.toNat + 1 := by
        rw [place]
        omega
      rw [succ, stays.pending]
      simpa only [completed, and_true] using onLevel
    · exact level.trap_expected block stands effect (params_set straight stack) (sameTrap.symm.trans raised)
  · refine ⟨fun _ => ?_, fun trap raised => by cases calls.trap.symm.trans raised⟩
    have height := level.height_at block stands (by rw [calls.opcode]; exact nofun)
    have enough := calls.enough
    refine ⟨?_, ?_⟩
    · rw [calls.frames]
      refine .cons_cons ⟨?_, level.stored⟩ (waits_head waits rfl)
      change (frame.stack.drop _).length + (method.params.length + 1) = _
      rw [List.length_drop, ← height]
      omega
    · rw [current?, calls.frames]
      rintro _ ⟨⟩
      exact Frame.enter_level method frame.pc _

/-- What holds at a stage holds at the next one. The cases are leaving a frame, advancing to an instruction, and
executing it with or without a trap. -/
theorem step (straight : program.Straight) {before after : Stage} (upright : Upright program limit before)
    (leveled : Leveled program before) (step : Step Spares before after) : Leveled program after := by
  cases step with
  | left isLeft =>
    obtain ⟨frame, callers, frames, atEnd, rfl⟩ := next_eq_left isLeft
    exact leveled.leave straight upright frames atEnd
  | advanced isReady spares =>
    obtain ⟨frame, callers, frames, -, rfl⟩ := next_eq_ready isReady
    exact leveled.advance frames spares
  | executed completed => exact (leveled.execute straight upright).1 completed
  | failed raised => exact (leveled.execute straight upright).2 _ raised

/-- What holds at a stage holds at all that are reached from it. The shape of the call stack is kept along with it,
because each step needs it. -/
theorem reaches (straight : program.Straight) (linked : program.Linked) {before after : Stage}
    (upright : Upright program limit before) (leveled : Leveled program before)
    (reaches : Reaches Spares before after) : Leveled program after := by
  induction reaches with
  | refl => exact leveled
  | tail earlier next ih =>
    exact ih.step straight (upright.reaches linked (Reaches.imp Spares.touches earlier)) next

end Stage.Leveled

end IntegerMachine
