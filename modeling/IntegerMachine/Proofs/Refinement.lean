import IntegerMachine.Proofs.CallStack
import IntegerMachine.Proofs.Reference

/-!
# The machine refines the reference interpreter

A machine stands for a state of the reference interpreter: blocks lose their tables, and the locals of a frame become
values under folded names. Every run of a linked program is a run of the reference interpreter then, iteration by
iteration, with the same operand stacks, places, calls, pending values, devices and faults.

There is a square for each thing that an instruction does: doing it in the reference interpreter from the state that a
machine stands for gives what the outcome of the machine stands for. The tables come in where a square looks something
up. What a table has is what the reference interpreter finds by going through the code or the methods, because linking
has made the table. A machine also wants its frames to have a place for every local, which is a part of the invariant
of the call stack, so that the squares of runs are about stages that are upright.
-/
namespace IntegerMachine

/-- The block without its tables. -/
def Blueprint.routine (blueprint : Blueprint) : Reference.Routine :=
  { name := blueprint.name, params := blueprint.params, vars := blueprint.vars, code := blueprint.code.toList }

/-- The program without its tables. -/
def Program.outline (program : Program) : Reference.Outline :=
  { constants := program.constants, routines := program.blueprints.map Blueprint.routine }

/-- The values of the locals that are set, under their folded names. -/
def Frame.values (frame : Frame) : Reference.Values :=
  fun key => (frame.blueprint.slots.idxOf? key).bind fun slot => (frame.locals[slot]?).bind id

/-- The activation record that a frame stands for. -/
def Frame.record (frame : Frame) : Reference.Record :=
  { routine := frame.blueprint.routine, pc := frame.pc, returnPc := frame.returnPc, stack := frame.stack
    values := frame.values }

/-- The state of the reference interpreter that a machine stands for. Only the journal has no counterpart. -/
def Machine.reference (machine : Machine) : Reference.State :=
  { outline := machine.program.outline, records := machine.frames.map Frame.record
    final := machine.final.map Frame.record, pending := machine.pending, halted := machine.halted
    executed := machine.executed, depthLimit := machine.depthLimit, input := machine.input, output := machine.output }

/-- The result of an action that an outcome of the machine stands for. -/
def Outcome.result (outcome : Outcome Machine) : EStateM.Result Trap Reference.State Unit :=
  match outcome.trap with
  | none => .ok () outcome.state.reference
  | some trap => .error trap outcome.state.reference

namespace Reference

/-- An action that is completed is followed by the next one, which starts in the state behind it. -/
theorem bind_ok {First Second : Type} {first : Action First} {next : First → Action Second} {state after : State}
    {value : First} (completed : first state = .ok value after) : (first >>= next) state = next value after := by
  change EStateM.bind first next state = _
  rw [EStateM.bind, completed]

/-- An action that traps is not followed by another one. What it has done to the state before it trapped stays
done. -/
theorem bind_error {First Second : Type} {first : Action First} {next : First → Action Second} {state after : State}
    {trap : Trap} (trapped : first state = .error trap after) : (first >>= next) state = .error trap after := by
  change EStateM.bind first next state = _
  rw [EStateM.bind, trapped]

/-- Looking at the state leaves it as it is. -/
theorem get_eq (state : State) : (get : Action State) state = .ok state state := rfl

/-- Reading a literal gives the value that linking has found in it, and leaves the state as it is. -/
theorem literal_eq {text : Text} {value : Cell} (read : Literal.parse text = .ok value) (state : State) :
    literal text state = .ok value state := by
  rw [literal, read]
  rfl

end Reference

namespace Frame

/-- A local that is set has its value under its folded name, and all others are as before. Slots have different names,
so that no other local is found under it. -/
theorem values_stored (frame : Frame) {name : Text} {slot : Nat} (found : frame.blueprint.slot? name = some slot)
    (inside : slot < frame.locals.length) (value : Cell) (distinct : frame.blueprint.slots.Nodup) :
    { frame with locals := frame.locals.set slot (some value) }.values = frame.values.set name value := by
  funext key
  change (frame.blueprint.slots.idxOf? key).bind (fun place => ((frame.locals.set slot (some value))[place]?).bind id) =
    if key = name.fold then some value else frame.values key
  by_cases same : key = name.fold
  · have here : frame.blueprint.slots.idxOf? key = some slot := same ▸ found
    rw [if_pos same, here, Option.bind_some, List.getElem?_set_self inside]
    rfl
  · rw [if_neg same, values]
    cases place : frame.blueprint.slots.idxOf? key with
    | none => rfl
    | some other =>
      have apart : slot ≠ other := by
        rintro rfl
        exact same (Option.some.inj (((place_iff distinct slot key).mp place).symm.trans
          ((place_iff distinct slot name.fold).mp found)))
      rw [Option.bind_some, Option.bind_some, List.getElem?_set_ne apart]

end Frame

/-- Locals to which nothing is bound have no values, whether or not their name is one of the slots. -/
theorem no_values (slots : List Text) (count : Nat) (key : Text) :
    ((slots.idxOf? key).bind fun slot => ((List.replicate count (none : Option Cell))[slot]?).bind id) = none := by
  cases slots.idxOf? key with
  | none => rfl
  | some slot =>
    rw [Option.bind_some, List.getElem?_replicate]
    split
    · rfl
    · rfl

/-- Arguments are the values of the first locals. The induction is on the parameters, each of which is in the way of
later ones with the same name on both sides. -/
theorem bound_values (params vars : List Text) (arguments : List Cell) (count : Nat) (key : Text)
    (few : arguments.length ≤ params.length) :
    ((((params ++ vars).map Text.fold).idxOf? key).bind fun slot =>
      ((arguments.map some ++ List.replicate count none)[slot]?).bind id) =
        Reference.Values.bind params arguments key := by
  induction params generalizing arguments with
  | nil =>
    obtain rfl := List.eq_nil_of_length_eq_zero (Nat.le_zero.mp few)
    exact no_values _ count key
  | cons param rest ih =>
    cases arguments with
    | nil => exact no_values _ count key
    | cons value others =>
      have later := ih others (Nat.le_of_succ_le_succ few)
      rw [List.cons_append, List.map_cons, List.idxOf?_cons]
      change _ = if key = param.fold then some value else Reference.Values.bind rest others key
      by_cases same : key = param.fold
      · rw [if_pos same, if_pos (beq_iff_eq.mpr same.symm)]
        rfl
      · rw [if_neg same, if_neg (fun equal => same (beq_iff_eq.mp equal).symm), ← later, Option.bind_map]
        rfl

/-- The record of a new activation has its arguments as values, under the folded names of the parameters. Variables
have none. -/
theorem Frame.enter_record {method : Blueprint} (linked : method.Linked) (returnPc : Int) {arguments : List Cell}
    (few : arguments.length ≤ method.params.length) :
    (Frame.enter method returnPc arguments).record =
      { routine := method.routine, returnPc, values := .bind method.params arguments } := by
  have values : (Frame.enter method returnPc arguments).values = .bind method.params arguments := by
    funext key
    change ((method.slots.idxOf? key).bind fun slot => _) = _
    rw [linked.slots_eq]
    exact bound_values method.params method.vars arguments _ key few
  rw [record, values]
  rfl

section Squares

open Reference

variable (machine : Machine) (frame : Frame) (callers : List Frame)

/-- The state that a machine with the given innermost frame stands for. -/
abbrev shown : State := { machine with frames := frame :: callers }.reference

/-- A constant that the program does not have is a fault in both, at the same place. -/
theorem constant_none {name : Text} (absent : machine.program.constant? name = none) :
    constant name (shown machine frame callers) =
      .error (frame.fault .missingConstant name) (shown machine frame callers) := by
  rw [constant, bind_ok (get_eq _),
    show (shown machine frame callers).outline.constants.lookup name.fold = none from absent]
  rfl

/-- A constant that the program has is found in both. -/
theorem constant_some {name : Text} {value : Cell} (found : machine.program.constant? name = some value) :
    constant name (shown machine frame callers) = .ok value (shown machine frame callers) := by
  rw [constant, bind_ok (get_eq _),
    show (shown machine frame callers).outline.constants.lookup name.fold = some value from found]
  rfl

/-- The innermost record is the one of the innermost frame. -/
theorem current_eq : current (shown machine frame callers) = .ok frame.record (shown machine frame callers) := rfl

/-- What goes on with a number of values that are popped: they are all there, or all that there are have been popped
when the fault occurs. The induction is on their number, as they are popped one at a time. -/
theorem pop_many (count : Nat) : popMany count (shown machine frame callers) =
    if count ≤ frame.stack.length then
      .ok (frame.stack.take count).reverse (shown machine { frame with stack := frame.stack.drop count } callers)
    else .error (frame.fault .stackUnderflow) (shown machine { frame with stack := [] } callers) := by
  induction count generalizing frame with
  | zero => rfl
  | succ count ih =>
    obtain ⟨blueprint, pc, returnPc, stack, locals⟩ := frame
    cases stack with
    | nil => rfl
    | cons value rest =>
      have popped : pop (shown machine ⟨blueprint, pc, returnPc, value :: rest, locals⟩ callers) =
          .ok value (shown machine ⟨blueprint, pc, returnPc, rest, locals⟩ callers) := rfl
      rw [popMany, bind_ok popped]
      have later := ih ⟨blueprint, pc, returnPc, rest, locals⟩
      dsimp only at later ⊢
      rw [List.length_cons]
      by_cases enough : count ≤ rest.length
      · rw [if_pos enough] at later
        rw [if_pos (Nat.succ_le_succ enough), bind_ok later, List.take_succ_cons, List.reverse_cons]
        rfl
      · rw [if_neg enough] at later
        rw [if_neg (fun more => enough (Nat.le_of_succ_le_succ more)), bind_error later]
        rfl

/-- Combining the two uppermost values. If there is only one, it is gone behind the fault in both. -/
theorem combine_same (operation : Cell → Cell → Cell) :
    Reference.combine operation (shown machine frame callers) =
      (machine.continueWith callers (frame.combine operation)).result := by
  obtain ⟨blueprint, pc, returnPc, stack, locals⟩ := frame
  rcases stack with _ | ⟨upper, _ | ⟨lower, rest⟩⟩
  · rfl
  · rfl
  · rfl

variable (linked : frame.blueprint.Linked) (places : frame.locals.length = frame.blueprint.locals.length)

include linked

/-- A local is declared exactly if it has a slot, since linking has made the slots from the locals. -/
theorem undeclared_iff (name : Text) :
    name.fold ∉ (frame.record.routine.params ++ frame.record.routine.vars).map Text.fold ↔
      frame.blueprint.slot? name = none := by
  rw [Blueprint.slot?, List.idxOf?_eq_none_iff, linked.slots_eq]
  rfl

/-- A local without a slot is a fault in both. -/
theorem declared_none {name : Text} (absent : frame.blueprint.slot? name = none) :
    declared name (shown machine frame callers) =
      .error (frame.fault .missingLocal name) (shown machine frame callers) := by
  rw [declared, bind_ok (current_eq machine frame callers), if_pos ((undeclared_iff frame linked name).mpr absent)]
  rfl

/-- A local with a slot is declared, and nothing is done. -/
theorem declared_some {name : Text} {slot : Nat} (found : frame.blueprint.slot? name = some slot) :
    declared name (shown machine frame callers) = .ok () (shown machine frame callers) := by
  rw [declared, bind_ok (current_eq machine frame callers), if_neg]
  · rfl
  · intro undeclared
    cases ((undeclared_iff frame linked name).mp undeclared).symm.trans found

/-- Going through the code for a label finds what its table has. If it is not there, both have the same fault. -/
theorem jump_same (name : Text) :
    Reference.jump name (shown machine frame callers) = (machine.continueWith callers (frame.jump name)).result := by
  rw [Reference.jump, bind_ok (current_eq machine frame callers), Frame.jump]
  rw [show frame.record.routine.code.findIdx? (Blueprint.isLabel name) = frame.blueprint.label? name from
    (linked.label_eq_scan name).symm]
  cases frame.blueprint.label? name with
  | none => rfl
  | some index => rfl

/-- Continuing at the label that an instruction names if a condition holds. The conditions of the two sides may be
written differently, as long as they are equivalent. -/
theorem branch_same {instruction : Instruction} {name : Text} (operands : instruction.operands = [name]) {holds : Bool}
    {condition : Prop} [Decidable condition] (same : holds = true ↔ condition) :
    Reference.branch instruction holds (shown machine frame callers) =
      (machine.continueWith callers
        (if condition then frame.withOperand instruction frame.jump else frame.done)).result := by
  cases holds with
  | false =>
    rw [if_neg (fun really => Bool.false_ne_true (same.mpr really))]
    rfl
  | true =>
    have named : operand instruction 0 (shown machine frame callers) = .ok name (shown machine frame callers) := by
      rw [operand, operands]
      rfl
    rw [if_pos (same.mp rfl), Frame.withOperand, operands]
    exact (bind_ok named).trans (jump_same machine frame callers linked name)

/-- Continuing at the label that an instruction names if the uppermost value passes a test. The value is popped before
the label is looked for, in both. -/
theorem tested_branch_same {instruction : Instruction} {name : Text} (operands : instruction.operands = [name])
    {holds test : Cell → Bool} (same : ∀ value, holds value = true ↔ test value = true) :
    (pop >>= fun value => Reference.branch instruction (holds value)) (shown machine frame callers) =
      (machine.continueWith callers (frame.branch instruction test)).result := by
  obtain ⟨blueprint, pc, returnPc, stack, locals⟩ := frame
  cases stack with
  | nil => rfl
  | cons value rest =>
    exact branch_same machine ⟨blueprint, pc, returnPc, rest, locals⟩ callers linked operands (same value)

include places

/-- What goes on with the value of a local. It is stated with a continuation, since the outcome of the machine is
built in this way. -/
theorem load_then (name : Text) {next : Cell → Action Unit} {goOn : Cell → Outcome Frame}
    (same : ∀ value, next value (shown machine frame callers) = (machine.continueWith callers (goOn value)).result) :
    (load name >>= next) (shown machine frame callers) =
      (machine.continueWith callers (frame.withLocal name goOn)).result := by
  rw [Frame.withLocal, Frame.withSlot]
  cases found : frame.blueprint.slot? name with
  | none =>
    have missing : load name (shown machine frame callers) =
        .error (frame.fault .missingLocal name) (shown machine frame callers) := by
      rw [load, bind_error (declared_none machine frame callers linked found)]
    rw [bind_error missing]
    rfl
  | some slot =>
    have inside : slot < frame.locals.length := places ▸ linked.slot_inside found
    have value : frame.record.values name.fold = frame.locals[slot] := by
      change (frame.blueprint.slots.idxOf? name.fold).bind (fun place => (frame.locals[place]?).bind id) = _
      rw [show frame.blueprint.slots.idxOf? name.fold = some slot from found, Option.bind_some,
        List.getElem?_eq_getElem inside]
      rfl
    dsimp only
    rw [List.getElem?_eq_getElem inside]
    cases known : frame.locals[slot] with
    | none =>
      have unset : load name (shown machine frame callers) =
          .error (frame.fault .unsetLocal name) (shown machine frame callers) := by
        rw [load, bind_ok (declared_some machine frame callers linked found),
          bind_ok (current_eq machine frame callers), value, known]
        rfl
      rw [bind_error unset]
      rfl
    | some content =>
      have loaded : load name (shown machine frame callers) = .ok content (shown machine frame callers) := by
        rw [load, bind_ok (declared_some machine frame callers linked found),
          bind_ok (current_eq machine frame callers), value, known]
        rfl
      rw [bind_ok loaded]
      exact same content

/-- Setting a local, or a fault if it is not declared. That every slot has a place is needed here. -/
theorem store_same (name : Text) (value : Cell) :
    Reference.store name value (shown machine frame callers) =
      (machine.continueWith callers (frame.store name value)).result := by
  rw [Reference.store, Frame.store, Frame.withSlot]
  cases found : frame.blueprint.slot? name with
  | none =>
    rw [bind_error (declared_none machine frame callers linked found)]
    rfl
  | some slot =>
    have inside : slot < frame.locals.length := places ▸ linked.slot_inside found
    rw [bind_ok (declared_some machine frame callers linked found)]
    dsimp only
    rw [if_pos inside]
    have stored : { frame with locals := frame.locals.set slot (some value) }.record =
        { frame.record with values := frame.values.set name value } := by
      rw [Frame.record, frame.values_stored found inside value linked.slots_nodup]
      rfl
    exact congrArg (fun record => EStateM.Result.ok ()
      { shown machine frame callers with records := record :: callers.map Frame.record }) stored.symm

/-- An instruction that touches nothing but its frame. There is one case for each opcode, and immediate values are
those of the literals that the reference interpreter reads. -/
theorem perform_same {instruction : Instruction}
    (stands : frame.blueprint.code[frame.pc.toNat]? = some instruction)
    (own : instruction.opcode ∉ [.invokevirtual, .ireturn, .input, .output, .halt]) :
    dispatch instruction (shown machine frame callers) =
      (machine.continueWith callers (frame.perform machine.program instruction)).result := by
  have sound := linked.sound instruction (Array.mem_of_getElem? stands)
  have immediate := linked.immediate_of_code stands
  -- Linking has seen to it that an instruction has the operands that it wants, so that none is missing below.
  have count := sound.count
  obtain ⟨opcode, operands, line⟩ := instruction
  cases opcode with
  | invokevirtual | ireturn | input | output | halt => simp at own
  | label | nop | unassigned => rfl
  | bipush =>
    obtain ⟨text, rfl⟩ := List.length_eq_one_iff.mp count
    have read : Literal.parse text = .ok (Blueprint.valueOf ⟨.bipush, [text], line⟩) := (sound.literal rfl).parse
    rw [Frame.perform, Frame.withImmediate, immediate]
    exact bind_ok (literal_eq read _)
  | iload =>
    obtain ⟨name, rfl⟩ := List.length_eq_one_iff.mp count
    exact load_then machine frame callers linked places name fun value => rfl
  | iinc =>
    obtain ⟨name, rest, rfl⟩ := List.exists_cons_of_length_eq_add_one count
    obtain ⟨text, rfl⟩ := List.length_eq_one_iff.mp (Nat.succ.inj count)
    have read : Literal.parse text = .ok (Blueprint.valueOf ⟨.iinc, [name, text], line⟩) := (sound.literal rfl).parse
    refine load_then machine frame callers linked places name fun value => ?_
    rw [Frame.withImmediate, immediate]
    exact (bind_ok (literal_eq read _)).trans (store_same machine frame callers linked places name _)
  | ldcw =>
    obtain ⟨name, rfl⟩ := List.length_eq_one_iff.mp count
    have named : dispatch ⟨.ldcw, [name], line⟩ (shown machine frame callers) =
        (constant name >>= push) (shown machine frame callers) := rfl
    simp only [named, Frame.perform, Frame.withOperand]
    cases found : machine.program.constant? name with
    | none => exact bind_error (constant_none machine frame callers found)
    | some value => exact bind_ok (constant_some machine frame callers found)
  | goto =>
    obtain ⟨name, rfl⟩ := List.length_eq_one_iff.mp count
    exact branch_same machine frame callers linked rfl (Iff.refl (true = true))
  | istore =>
    obtain ⟨name, rfl⟩ := List.length_eq_one_iff.mp count
    obtain ⟨blueprint, pc, returnPc, stack, locals⟩ := frame
    cases stack with
    | nil => rfl
    | cons top rest => exact store_same machine ⟨blueprint, pc, returnPc, rest, locals⟩ callers linked places name top
  | dup | pop =>
    obtain ⟨blueprint, pc, returnPc, stack, locals⟩ := frame
    cases stack with
    | nil => rfl
    | cons top rest => rfl
  | iadd | isub | iand | ior => exact combine_same machine frame callers _
  | swap =>
    obtain ⟨blueprint, pc, returnPc, stack, locals⟩ := frame
    rcases stack with _ | ⟨upper, _ | ⟨lower, rest⟩⟩
    · rfl
    · rfl
    · rfl
  | ifeq =>
    obtain ⟨name, rfl⟩ := List.length_eq_one_iff.mp count
    exact tested_branch_same machine frame callers linked rfl fun value => decide_eq_true_iff.trans beq_iff_eq.symm
  | iflt =>
    obtain ⟨name, rfl⟩ := List.length_eq_one_iff.mp count
    exact tested_branch_same machine frame callers linked rfl fun value => Iff.rfl
  | ificmpeq =>
    obtain ⟨name, rfl⟩ := List.length_eq_one_iff.mp count
    obtain ⟨blueprint, pc, returnPc, stack, locals⟩ := frame
    rcases stack with _ | ⟨upper, _ | ⟨lower, rest⟩⟩
    · rfl
    · rfl
    · exact branch_same machine ⟨blueprint, pc, returnPc, rest, locals⟩ callers linked rfl decide_eq_true_iff

end Squares

section Calls

open Reference

variable (machine : Machine) (frame : Frame) (callers : List Frame)

/-- Popping the arguments and the reference of a call, and opening an activation. If an argument or the reference is
missing, all values are popped and the fault is the same. -/
theorem enter_same {method : Blueprint} (isLinked : method.Linked) :
    Reference.enter method.routine (shown machine frame callers) =
      if frame.stack.length ≤ method.params.length then
        .error (frame.fault .stackUnderflow) (shown machine { frame with stack := [] } callers)
      else
        .ok () (shown machine (Frame.enter method frame.pc (frame.stack.take method.params.length).reverse)
          ({ frame with stack := frame.stack.drop (method.params.length + 1) } :: callers)) := by
  have popped := pop_many machine frame callers method.params.length
  by_cases enough : method.params.length ≤ frame.stack.length
  · rw [if_pos enough] at popped
    refine (bind_ok popped).trans ?_
    cases rest : frame.stack.drop method.params.length with
    | nil =>
      rw [if_pos (List.drop_eq_nil_iff.mp rest)]
      rfl
    | cons reference below =>
      have long : ¬ frame.stack.length ≤ method.params.length := by
        intro short
        rw [List.drop_eq_nil_iff.mpr short] at rest
        cases rest
      have left : frame.stack.drop (method.params.length + 1) = below := by
        rw [← List.drop_drop, rest]
        rfl
      have few : (frame.stack.take method.params.length).reverse.length ≤ method.params.length := by
        rw [List.length_reverse]
        exact List.length_take_le _ _
      rw [if_neg long, left]
      change _ = EStateM.Result.ok () { shown machine frame callers with
        records := (Frame.enter method frame.pc (frame.stack.take method.params.length).reverse).record ::
          { frame with stack := below }.record :: callers.map Frame.record }
      rw [Frame.enter_record isLinked frame.pc few]
      rfl
  · rw [if_neg enough] at popped
    rw [if_pos (Nat.le_of_not_le enough)]
    exact bind_error popped

/-- Going through the blocks for a method finds what the table has, without its tables. -/
theorem scan_method {program : Program} (linked : program.Linked) (name : Text) :
    (program.outline.routines.tail.find? fun method => method.name.fold = name.fold) =
      (program.method? name).map Blueprint.routine := by
  rw [linked.method_eq_scan, Program.outline, ← List.map_tail, List.find?_map]
  rfl

/-- Calling a method. The two agree on which of several faults comes first. -/
theorem invoke_same (linked : machine.program.Linked) (frames : machine.frames = frame :: callers) (name : Text) :
    Reference.invoke name (shown machine frame callers) = (machine.invoke frame callers name).result := by
  rw [Reference.invoke, bind_ok (get_eq _), Machine.invoke]
  rw [show (shown machine frame callers).outline = machine.program.outline from rfl, scan_method linked]
  cases found : machine.program.method? name with
  | none => rfl
  | some method =>
    have limit : (shown machine frame callers).depthLimit ≤ (shown machine frame callers).records.length ↔
        machine.depthLimit ≤ machine.frames.length := by
      rw [frames]
      change machine.depthLimit ≤ ((frame :: callers).map Frame.record).length ↔ _
      rw [List.length_map]
    change Reference.call name method.routine (shown machine frame callers) = _
    rw [Reference.call, bind_ok (get_eq _)]
    dsimp only
    by_cases full : machine.depthLimit ≤ machine.frames.length
    · rw [if_pos (limit.mpr full), if_pos full]
      rfl
    · rw [if_neg (mt limit.mp full), if_neg full]
      rw [enter_same machine frame callers (linked.blueprints method (linked.method_member found))]
      by_cases short : frame.stack.length ≤ method.params.length
      · rw [if_pos short, if_pos short]
        rfl
      · rw [if_neg short, if_neg short]
        rfl

/-- Writing a value, with the same failure if the output has one. -/
theorem output_same (value : Cell) :
    Reference.output value (shown machine frame callers) =
      ({ machine with output := (machine.output.put value).2 }.continueWith callers
        { state := frame
          trap := (machine.output.put value).1.map fun text => frame.fault .outputError [] (some text) }).result := by
  have reported : Reference.output value (shown machine frame callers) =
      report (machine.output.put value).1
        (shown { machine with output := (machine.output.put value).2 } frame callers) := rfl
  rw [reported]
  rcases machine.output.put value with ⟨_ | failure, output⟩
  · rfl
  · rfl

/-- Executing an instruction at which the innermost frame stands. Linking has seen to it that it has its operands. -/
theorem execute_in_same (linked : machine.program.Linked) (sound : frame.Sound machine.program)
    (frames : machine.frames = frame :: callers) {instruction : Instruction}
    (stands : frame.blueprint.code[frame.pc.toNat]? = some instruction) :
    dispatch instruction (shown machine frame callers) = (machine.executeIn frame callers instruction).result := by
  have isLinked : frame.blueprint.Linked := linked.blueprints _ sound.blueprint
  have count := (isLinked.sound instruction (Array.mem_of_getElem? stands)).count
  have performed (others : instruction.opcode ∉ [.invokevirtual, .ireturn, .input, .output, .halt]) :=
    perform_same machine frame callers isLinked sound.locals_length stands others
  obtain ⟨opcode, operands, line⟩ := instruction
  cases opcode with
  | invokevirtual =>
    obtain ⟨name, rfl⟩ := List.length_eq_one_iff.mp count
    exact invoke_same machine frame callers linked frames name
  | ireturn =>
    obtain ⟨blueprint, pc, returnPc, stack, locals⟩ := frame
    cases stack with
    | nil => rfl
    | cons value rest => rfl
  | input =>
    have received : dispatch ⟨.input, operands, line⟩ (shown machine frame callers) =
        receive machine.input.readValue.1
          (shown { machine with input := machine.input.readValue.2 } frame callers) := rfl
    rw [received, Machine.executeIn]
    dsimp only
    rcases machine.input.readValue with ⟨_ | value, input⟩
    · rfl
    · rfl
  | output =>
    obtain ⟨blueprint, pc, returnPc, stack, locals⟩ := frame
    cases stack with
    | nil => rfl
    | cons value rest => exact output_same machine ⟨blueprint, pc, returnPc, rest, locals⟩ callers value
  | halt => rfl
  | _ => exact performed (by simp)

end Calls

/-- What an outcome of the machine stands for. -/
def Outcome.reference (outcome : Outcome Machine) : Outcome Reference.State :=
  { state := outcome.state.reference, trap := outcome.trap }

/-- What the machine has done after an iteration, if there was one. -/
def Machine.Phase.outcome? : Machine.Phase → Option (Outcome Machine)
  | .over => none
  | .left machine => some { state := machine }
  | .ready machine instruction => some (machine.execute instruction)

section Runs

variable {program : Program} {limit : Nat} (linked : program.Linked)

/-- Leaving a frame. The caller receives the pending value, and the last record is kept. -/
theorem leave_same (machine : Machine) (frame : Frame) (callers : List Frame) :
    Reference.leave machine.reference frame.record (callers.map Frame.record) =
      (machine.leave frame callers).reference := by
  cases callers with
  | nil =>
    obtain ⟨_, _, final, _, _, _, _, _, _, _⟩ := machine
    cases final with
    | none => rfl
    | some main => rfl
  | cons caller below => rfl

include linked

/-- Executing the instruction that comes next. It is counted by both if it is completed. -/
theorem execute_same {machine : Machine} {instruction : Instruction}
    (upright : Stage.Upright program limit (.ready machine instruction)) :
    Reference.execute instruction machine.reference = (machine.execute instruction).reference := by
  obtain ⟨frame, callers, frames, -, stands⟩ := upright.stands
  have loaded : machine.program = program := upright.loaded
  have sound : frame.Sound machine.program := loaded ▸ (upright.stack frames).top_sound
  obtain ⟨journal, traced⟩ := machine.trace_eq frame instruction
  have here : shown { machine with journal } frame callers = machine.reference := by
    rw [Machine.reference, frames]
    rfl
  have same := execute_in_same { machine with journal } frame callers (loaded ▸ linked) sound frames stands
  have executed : machine.execute instruction =
      Machine.count (Machine.executeIn { machine with journal } frame callers instruction) := by
    rw [← traced, Machine.execute, frames]
  rw [Reference.execute, ← here, same, executed]
  obtain ⟨state, trap⟩ := Machine.executeIn { machine with journal } frame callers instruction
  cases trap with
  | none => rfl
  | some trap => rfl

/-- One iteration, whether it leaves a frame, executes an instruction or finds the run ended. -/
theorem step_same {machine : Machine} (upright : Stage.Upright program limit (.between machine)) :
    Reference.step machine.reference = machine.next.outcome?.map Outcome.reference := by
  obtain ⟨loaded, frames, final, pending, halted, executed, depthLimit, input, output, journal⟩ := machine
  cases halted with
  | true => rfl
  | false =>
    cases frames with
    | nil => rfl
    | cons frame callers =>
      have code : frame.record.routine.code[(frame.record.pc + 1).toNat]? =
          frame.blueprint.code[(frame.pc + 1).toNat]? := Array.getElem?_toList
      simp only [Reference.step, Machine.next, Machine.reference, List.map_cons, code]
      cases stands : frame.blueprint.code[(frame.pc + 1).toNat]? with
      | none =>
        have left := leave_same
          ⟨loaded, frame :: callers, final, pending, false, executed, depthLimit, input, output, journal⟩ frame callers
        exact congrArg (fun after => some (Outcome.mk after none)) left
      | some instruction => exact congrArg some (execute_same linked (upright.advance rfl stands ⟨rfl, rfl, rfl⟩))

/-- Any number of iterations. The induction is on this number, and the invariant is that the stage is upright. -/
theorem loop_same {machine : Machine} (upright : Stage.Upright program limit (.between machine)) (fuel : Nat) :
    Reference.loop fuel machine.reference =
      ((machine.loop Machine.noHook fuel ()).machine.reference, (machine.loop Machine.noHook fuel ()).ending) := by
  induction fuel generalizing machine with
  | zero => rfl
  | succ fuel ih =>
    have step := step_same linked upright
    rw [Reference.loop, step, Machine.loop]
    cases phase : machine.next with
    | «over» => rfl
    | left after => exact ih (upright.step linked (.left phase))
    | ready reached instruction =>
      have ready := upright.step linked (.advanced phase ⟨rfl, rfl, rfl⟩)
      dsimp only [Machine.Phase.outcome?, Option.map_some, Outcome.reference, Machine.noHook]
      cases raised : (reached.execute instruction).trap with
      | some trap => rfl
      | none => exact ih (ready.step linked (.executed raised))

/-- The start of a run, with one record of the main block. A linked program has a main block. -/
theorem start_same {machine : Machine} (loaded : machine.program = program) :
    Reference.start program.outline machine.depthLimit machine.input machine.output = machine.restart.reference := by
  obtain ⟨main, isMain⟩ := linked.main
  have isLinked : main.Linked := linked.blueprints main (List.mem_of_mem_head? isMain)
  have head : program.outline.routines.head? = some main.routine := by
    rw [Program.outline, List.head?_map]
    exact congrArg (Option.map Blueprint.routine) isMain
  have entered : (Frame.enter main (-1) []).record = { routine := main.routine, returnPc := -1 } := by
    rw [Frame.enter_record isLinked (-1) (Nat.zero_le _), Reference.Values.bind_nil]
  subst loaded
  rw [Reference.start, Machine.restart, Machine.reference, head, isMain, Option.map_some, Option.map_some,
    Option.toList_some, Option.toList_some, List.map_singleton, entered]
  rfl

end Runs

/-- Every run of a linked program goes through the states of the reference interpreter, iteration by iteration, and
ends as it does. -/
theorem run_refines_reference {program : Program} (linked : program.Linked) (machine : Machine)
    (loaded : machine.program = program) (positive : 0 < machine.depthLimit) (fuel : Nat) :
    Reference.loop fuel (Reference.start program.outline machine.depthLimit machine.input machine.output) =
      ((machine.restart.loop Machine.noHook fuel ()).machine.reference,
        (machine.restart.loop Machine.noHook fuel ()).ending) ∧
    Reference.run program.outline machine.depthLimit machine.input machine.output fuel =
      ((machine.run Machine.noHook fuel ()).machine.reference, (machine.run Machine.noHook fuel ()).ending) := by
  have same := loop_same linked (.start linked loaded rfl positive) fuel
  rw [← start_same linked loaded] at same
  refine ⟨same, ?_⟩
  have hasMain : machine.program.main?.isSome = true := by rw [loaded]; exact linked.has_main
  rw [Reference.run, same, Machine.run, if_pos hasMain, Machine.finish]
  rfl

/-- A program whose names are written in different cases. The method that it calls jumps over the setting of a
variable, which is read then. -/
def mixedCase : Source := .ofText ".main
BIPUSH 0
INVOKEVIRTUAL Count
.end-main
.method count
.var
total
.end-var
GOTO Skip
BIPUSH 1
ISTORE Total
skip:
IINC TOTAL 1
IRETURN
.end-method
"

/-- Both interpreters find the method, the label and the variable, which has no value. -/
theorem mixed_case_refines : ∃ program, (mixedCase.compile "m").2 = .ok program ∧
    (Reference.run program.outline 2 [] {} 9).2 =
      .trapped (.fault { kind := .unsetLocal, scope := "count", pc := 4, subject := "TOTAL" }) ∧
    ∀ fuel,
      Reference.loop fuel (Reference.start program.outline 2 [] {}) =
        ((({ program, depthLimit := 2 } : Machine).restart.loop Machine.noHook fuel ()).machine.reference,
          (({ program, depthLimit := 2 } : Machine).restart.loop Machine.noHook fuel ()).ending) ∧
      Reference.run program.outline 2 [] {} fuel =
        ((({ program, depthLimit := 2 } : Machine).run Machine.noHook fuel ()).machine.reference,
          (({ program, depthLimit := 2 } : Machine).run Machine.noHook fuel ()).ending) := by
  have traps : (mixedCase.compile "m").2.toOption.any (fun program =>
      (Reference.run program.outline 2 [] {} 9).2 =
        .trapped (.fault { kind := .unsetLocal, scope := "count", pc := 4, subject := "TOTAL" })) = true := by
    decide +kernel
  obtain ⟨program, compiled, passes⟩ := exists_ok_of_any traps
  refine ⟨program, compiled, of_decide_eq_true passes, ?_⟩
  intro fuel
  exact run_refines_reference (mixedCase.compile_linked "m" program compiled) { program, depthLimit := 2 } rfl
    (Nat.succ_pos 1) fuel

end IntegerMachine
