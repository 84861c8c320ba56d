import IntegerMachine.Machine.Run
import IntegerMachine.Proofs.Effects
import IntegerMachine.Proofs.Folding
import IntegerMachine.Source.Parse

/-!
# Runs that are carried over to another program

Names are looked up in folded form, so a run does not depend on how they are spelled; and it asks a program for
nothing but its main block, its methods and its constants by name, so it does not depend on their order either.
Both are one fact. A run is carried over from one program to another by putting in the other program and spelling
every name otherwise; and the run that was carried over is the run of the other program, step by step.

Literal operands are no names and keep their text, and so does the name of an opcode in a fault.
-/
namespace IntegerMachine

/-- A way to spell names that is not seen in folded form. The empty text, which stands for no name, is kept. -/
structure Respelling where
  spell : Text → Text
  folded : ∀ name, (spell name).fold = name.fold
  empty : spell [] = []

namespace Respelling

/-- The spelling in folded form. -/
def folding : Respelling := { spell := Text.fold, folded := Text.fold_fold, empty := rfl }

/-- The spelling as it is. -/
def unchanged : Respelling := { spell := id, folded := fun _ => rfl, empty := rfl }

variable (respelling : Respelling)

/-- An operand at its index, which is a name unless the opcode takes a literal there. -/
def operand (opcode : Opcode) (index : Nat) (text : Text) : Text :=
  if Source.operandKind opcode index = .literal then text else respelling.spell text

/-- An instruction with its names spelled otherwise. -/
def instruction (given : Instruction) : Instruction :=
  { given with operands := given.operands.mapIdx (respelling.operand given.opcode) }

/-- A blueprint with its names spelled otherwise. Its tables have the folded names and stay as they are. -/
def blueprint (given : Blueprint) : Blueprint :=
  { given with
    name := respelling.spell given.name
    params := given.params.map respelling.spell
    vars := given.vars.map respelling.spell
    code := given.code.map respelling.instruction }

/-- A frame of the blueprint with its names spelled otherwise. -/
def frame (given : Frame) : Frame := { given with blueprint := respelling.blueprint given.blueprint }

/-- A fault in the block with its names spelled otherwise. -/
def fault (given : Fault) : Fault :=
  { given with
    scope := respelling.spell given.scope
    subject := if given.kind = .unknownOpcode then given.subject else respelling.spell given.subject }

/-- A trap of the block with its names spelled otherwise. -/
def trap : Trap → Trap
  | .fault cause => .fault (respelling.fault cause)
  | .badIndex index length => .badIndex index length
  | .missing => .missing

/-- An outcome, where it is known what becomes of the state. -/
def outcome {State : Type} (carry : State → State) (given : Outcome State) : Outcome State :=
  { state := carry given.state, trap := given.trap.map respelling.trap }

/-- An event with its names spelled otherwise. -/
def event : Event → Event
  | .traced block pc traced stack => .traced (respelling.spell block) pc (respelling.instruction traced) stack
  | .called method caller pc depth => .called (respelling.spell method) (respelling.spell caller) pc depth
  | .returned method caller pc => .returned (respelling.spell method) (respelling.spell caller) pc
  | .halted block pc => .halted (respelling.spell block) pc

/-- A journal whose events have their names spelled otherwise. -/
def journal (given : Journal) : Journal := { given with events := given.events.map respelling.event }

/-- A machine that is carried over to a program. -/
def machine (program : Program) (given : Machine) : Machine :=
  { given with
    program
    frames := given.frames.map respelling.frame
    final := given.final.map respelling.frame
    journal := respelling.journal given.journal }

/-- The end of a run that is carried over. -/
def ending : Ending → Ending
  | .trapped trap => .trapped (respelling.trap trap)
  | .completed => .completed
  | .stopped reason => .stopped reason
  | .flushFailed failure => .flushFailed failure
  | .suspended => .suspended

/-- A run that is carried over to a program. -/
def finish {State : Type} (program : Program) (given : Finish State) : Finish State :=
  { given with
    machine := respelling.machine program given.machine
    ending := respelling.ending given.ending }

/-- The program `target` has what the program `source` has, spelled otherwise and perhaps in another order. -/
structure Carries (source target : Program) : Prop where
  main : target.main? = source.main?.map respelling.blueprint
  methods : ∀ name, target.method? name = (source.method? name).map respelling.blueprint
  constants : ∀ name, target.constant? name = source.constant? name

/-! ## Frames -/

@[simp] theorem instruction_opcode (given : Instruction) : (respelling.instruction given).opcode = given.opcode := rfl

@[simp] theorem frame_blueprint (given : Frame) :
    (respelling.frame given).blueprint = respelling.blueprint given.blueprint := rfl

@[simp] theorem frame_stack (given : Frame) : (respelling.frame given).stack = given.stack := rfl

@[simp] theorem frame_pc (given : Frame) : (respelling.frame given).pc = given.pc := rfl

@[simp] theorem frame_locals (given : Frame) : (respelling.frame given).locals = given.locals := rfl

@[simp] theorem machine_program (program : Program) (given : Machine) :
    (respelling.machine program given).program = program := rfl

@[simp] theorem machine_halted (program : Program) (given : Machine) :
    (respelling.machine program given).halted = given.halted := rfl

@[simp] theorem machine_limit (program : Program) (given : Machine) :
    (respelling.machine program given).depthLimit = given.depthLimit := rfl

@[simp] theorem machine_input (program : Program) (given : Machine) :
    (respelling.machine program given).input = given.input := rfl

@[simp] theorem machine_output (program : Program) (given : Machine) :
    (respelling.machine program given).output = given.output := rfl

@[simp] theorem machine_frames (program : Program) (given : Machine) :
    (respelling.machine program given).frames = given.frames.map respelling.frame := rfl

/-- A label is found under both spellings of its name, as look-up folds the name and the table has folded names. -/
theorem label_found (given : Blueprint) (name : Text) :
    (respelling.blueprint given).label? (respelling.spell name) = given.label? name := by
  rw [Blueprint.label?, Blueprint.label?, respelling.folded]
  rfl

/-- A local is found under both spellings of its name, for the same reason. -/
theorem slot_found (given : Blueprint) (name : Text) :
    (respelling.blueprint given).slot? (respelling.spell name) = given.slot? name := by
  rw [Blueprint.slot?, Blueprint.slot?, respelling.folded]
  rfl

/-- The code of a blueprint has the instruction with its names spelled otherwise at each index. -/
theorem code_found (given : Blueprint) (index : Nat) :
    (respelling.blueprint given).code[index]? = (given.code[index]?).map respelling.instruction :=
  Array.getElem?_map

/-- A blueprint has as many locals as before, since each of them is spelled by itself. -/
theorem locals_length (given : Blueprint) :
    (respelling.blueprint given).locals.length = given.locals.length := by
  simp [Blueprint.locals, blueprint]

/-- A fault about a name is the fault about its other spelling. An unknown opcode is the exception, as its subject is
no name. -/
theorem fault_named (given : Frame) (kind : FaultKind) (known : kind ≠ .unknownOpcode) (subject : Text)
    (device : Option Text) :
    (respelling.frame given).fault kind (respelling.spell subject) device =
      respelling.trap (given.fault kind subject device) := by
  simp only [Frame.fault, trap, fault, frame, blueprint, if_neg known]

/-- A fault about no name stays one. This is what the empty text is kept for. -/
theorem fault_unnamed (given : Frame) (kind : FaultKind) (known : kind ≠ .unknownOpcode) (device : Option Text) :
    (respelling.frame given).fault kind [] device = respelling.trap (given.fault kind [] device) := by
  have about := respelling.fault_named given kind known [] device
  rwa [respelling.empty] at about

/-- A lack of operands is one under both spellings, and takes the same values from the stack. -/
theorem underflow_carried (given : Frame) :
    (respelling.frame given).underflow = respelling.outcome respelling.frame given.underflow := by
  rw [Frame.underflow, Frame.underflow, fault_unnamed _ _ .stackUnderflow (by decide)]
  rfl

/-- The first operand is spelled otherwise if the opcode takes a name there. What goes on with it has to be carried
over for each name. -/
theorem with_operand_carried (given : Frame) (wanted : Instruction)
    (isName : Source.operandKind wanted.opcode 0 ≠ .literal) (own other : Text → Outcome Frame)
    (carried : ∀ name, other (respelling.spell name) = respelling.outcome respelling.frame (own name)) :
    (respelling.frame given).withOperand (respelling.instruction wanted) other =
      respelling.outcome respelling.frame (given.withOperand wanted own) := by
  rw [Frame.withOperand, Frame.withOperand, instruction]
  cases wanted.operands with
  | nil => rfl
  | cons name rest =>
    simp only [List.mapIdx_cons, operand, if_neg isName]
    exact carried name

/-- The literal operand is the same under both spellings, as its value is taken from a table. -/
theorem with_immediate_carried (given : Frame) (own other : Cell → Outcome Frame)
    (carried : ∀ value, other value = respelling.outcome respelling.frame (own value)) :
    (respelling.frame given).withImmediate other =
      respelling.outcome respelling.frame (given.withImmediate own) := by
  simp only [Frame.withImmediate, frame, blueprint]
  cases given.blueprint.immediates[given.pc.toNat]? with
  | none => rfl
  | some value => exact carried value

/-- The slot of a local is the same under both spellings, and a local that is missing gives faults that correspond. -/
theorem with_slot_carried (given : Frame) (name : Text) (own other : Nat → Outcome Frame)
    (carried : ∀ slot, other slot = respelling.outcome respelling.frame (own slot)) :
    (respelling.frame given).withSlot (respelling.spell name) other =
      respelling.outcome respelling.frame (given.withSlot name own) := by
  rw [Frame.withSlot, Frame.withSlot, frame_blueprint, slot_found, fault_named _ _ .missingLocal (by decide)]
  cases given.blueprint.slot? name with
  | none => rfl
  | some slot => exact carried slot

/-- The value of a local is the same under both spellings. Values are kept by slot and not by name. -/
theorem with_local_carried (given : Frame) (name : Text) (own other : Cell → Outcome Frame)
    (carried : ∀ value, other value = respelling.outcome respelling.frame (own value)) :
    (respelling.frame given).withLocal (respelling.spell name) other =
      respelling.outcome respelling.frame (given.withLocal name own) := by
  refine respelling.with_slot_carried given name _ _ fun slot => ?_
  rw [frame_locals, fault_named _ _ .unsetLocal (by decide)]
  rcases given.locals[slot]? with - | - | value
  · rfl
  · rfl
  · exact carried value

/-- A local is set under both spellings, at the same slot. -/
theorem store_carried (given : Frame) (name : Text) (value : Cell) :
    (respelling.frame given).store (respelling.spell name) value =
      respelling.outcome respelling.frame (given.store name value) := by
  refine respelling.with_slot_carried given name _ _ fun slot => ?_
  rw [frame_locals]
  split <;> rfl

/-- A jump goes to the same place under both spellings, or faults under both. -/
theorem jump_carried (given : Frame) (name : Text) :
    (respelling.frame given).jump (respelling.spell name) =
      respelling.outcome respelling.frame (given.jump name) := by
  rw [Frame.jump, Frame.jump, frame_blueprint, label_found, fault_named _ _ .missingLabel (by decide)]
  cases given.blueprint.label? name <;> rfl

/-- Two values are combined under both spellings. -/
theorem combine_carried (given : Frame) (operation : Cell → Cell → Cell) :
    (respelling.frame given).combine operation =
      respelling.outcome respelling.frame (given.combine operation) := by
  rw [Frame.combine, Frame.combine, underflow_carried, frame_stack]
  rcases given.stack with - | ⟨upper, - | ⟨lower, rest⟩⟩ <;> rfl

/-- A branch that takes a label is decided alike under both spellings, as the test looks at a value only. -/
theorem branch_carried (given : Frame) (wanted : Instruction)
    (isName : Source.operandKind wanted.opcode 0 ≠ .literal) (test : Cell → Bool) :
    (respelling.frame given).branch (respelling.instruction wanted) test =
      respelling.outcome respelling.frame (given.branch wanted test) := by
  rw [Frame.branch, Frame.branch, underflow_carried, frame_stack]
  cases given.stack with
  | nil => rfl
  | cons value rest =>
    dsimp only
    split
    · exact respelling.with_operand_carried { given with stack := rest } wanted isName _ _
        (respelling.jump_carried { given with stack := rest })
    · rfl

/-- An instruction that touches nothing but its frame does the same under both spellings. There is one case for each
opcode, and constants are looked up in the two programs. -/
theorem perform_carried {source target : Program} (carries : respelling.Carries source target)
    (wanted : Instruction) (given : Frame) :
    (respelling.frame given).perform target (respelling.instruction wanted) =
      respelling.outcome respelling.frame (given.perform source wanted) := by
  -- The text of a literal operand is not looked at: its value was put into the blueprint when it was linked.
  have named (isName : Source.operandKind wanted.opcode 0 ≠ .literal) :=
    respelling.with_operand_carried given wanted isName
  cases opcode : wanted.opcode with
  | label | nop => simp only [Frame.perform, instruction_opcode, opcode]; rfl
  | bipush =>
    simp only [Frame.perform, instruction_opcode, opcode]
    exact respelling.with_immediate_carried given _ _ fun _ => rfl
  | dup | pop =>
    simp only [Frame.perform, instruction_opcode, opcode, frame_stack, underflow_carried]
    cases given.stack <;> rfl
  | swap =>
    simp only [Frame.perform, instruction_opcode, opcode, frame_stack, underflow_carried]
    rcases given.stack with - | ⟨upper, - | ⟨lower, rest⟩⟩ <;> rfl
  | iadd | isub | iand | ior =>
    simp only [Frame.perform, instruction_opcode, opcode]
    exact respelling.combine_carried given _
  | iload =>
    simp only [Frame.perform, instruction_opcode, opcode]
    refine named (by rw [opcode]; decide) _ _ fun name => ?_
    exact respelling.with_local_carried given name _ _ fun _ => rfl
  | istore =>
    simp only [Frame.perform, instruction_opcode, opcode, frame_stack, underflow_carried]
    cases given.stack with
    | nil => rfl
    | cons value rest =>
      exact respelling.with_operand_carried { given with stack := rest } wanted (by rw [opcode]; decide) _ _
        fun name => respelling.store_carried { given with stack := rest } name value
  | iinc =>
    simp only [Frame.perform, instruction_opcode, opcode]
    refine named (by rw [opcode]; decide) _ _ fun name => ?_
    refine respelling.with_local_carried given name _ _ fun value => ?_
    exact respelling.with_immediate_carried given _ _ fun increment => respelling.store_carried given name _
  | ldcw =>
    simp only [Frame.perform, instruction_opcode, opcode]
    refine named (by rw [opcode]; decide) _ _ fun name => ?_
    have found : target.constant? (respelling.spell name) = source.constant? name := by
      rw [carries.constants, Program.constant?, Program.constant?, respelling.folded]
    rw [found, fault_named _ _ .missingConstant (by decide)]
    cases source.constant? name <;> rfl
  | goto =>
    simp only [Frame.perform, instruction_opcode, opcode]
    exact named (by rw [opcode]; decide) _ _ (respelling.jump_carried given)
  | ifeq | iflt =>
    simp only [Frame.perform, instruction_opcode, opcode]
    exact respelling.branch_carried given wanted (by rw [opcode]; decide) _
  | ificmpeq =>
    simp only [Frame.perform, instruction_opcode, opcode, frame_stack, underflow_carried]
    rcases given.stack with - | ⟨upper, - | ⟨lower, rest⟩⟩
    · rfl
    · rfl
    · dsimp only
      split
      · exact respelling.with_operand_carried { given with stack := rest } wanted (by rw [opcode]; decide) _ _
          (respelling.jump_carried { given with stack := rest })
      · rfl
  | halt | input | invokevirtual | ireturn | output | unassigned code =>
    simp only [Frame.perform, instruction_opcode, opcode]
    rfl

/-! ## Machines -/

/-- A new activation is one under both spellings, with the same arguments in the same slots. -/
theorem enter_carried (given : Blueprint) (returnPc : Int) (arguments : List Cell) :
    Frame.enter (respelling.blueprint given) returnPc arguments =
      respelling.frame (Frame.enter given returnPc arguments) := by
  rw [Frame.enter, locals_length]
  rfl

/-- What is recorded is the event with its names spelled otherwise, if anything is recorded at all. -/
theorem record_carried (given : Journal) (recorded : Event) :
    (respelling.journal given).record (respelling.event recorded) = respelling.journal (given.record recorded) := by
  rw [Journal.record, Journal.record]
  cases active : given.active <;> simp [journal, active]

/-- What a machine that is carried over is about to do. -/
def phase (program : Program) : Machine.Phase → Machine.Phase
  | .over => .over
  | .left given => .left (respelling.machine program given)
  | .ready given wanted => .ready (respelling.machine program given) (respelling.instruction wanted)

/-- A frame is left under both spellings, and its caller receives the same value. -/
theorem leave_carried (program : Program) (given : Machine) (frame : Frame) (callers : List Frame) :
    (respelling.machine program given).leave (respelling.frame frame) (callers.map respelling.frame) =
      respelling.machine program (given.leave frame callers) := by
  cases callers with
  | nil => cases final : given.final <;> simp [Machine.leave, machine, final]
  | cons caller callers =>
    have recorded := respelling.record_carried given.journal
      (.returned frame.blueprint.name caller.blueprint.name frame.returnPc)
    rw [List.map_cons, Machine.leave, Machine.leave, machine, machine, ← recorded]
    rfl

/-- The machine that is carried over is about to do the same. What comes next is decided by places and by the length
of the code. -/
theorem next_carried (program : Program) (given : Machine) :
    (respelling.machine program given).next = respelling.phase program given.next := by
  rw [Machine.next, Machine.next, machine_frames, machine_halted]
  cases given.halted with
  | true => rfl
  | false =>
    cases given.frames with
    | nil => rfl
    | cons frame callers =>
      simp only [List.map_cons, frame_blueprint, frame_pc, code_found]
      cases frame.blueprint.code[(frame.pc + 1).toNat]? with
      | none => exact congrArg _ (respelling.leave_carried program given frame callers)
      | some wanted => rfl

/-- An instruction is recorded with its names spelled otherwise, if tracing is on. -/
theorem trace_carried (program : Program) (given : Machine) (frame : Frame) (wanted : Instruction) :
    (respelling.machine program given).trace (respelling.frame frame) (respelling.instruction wanted) =
      respelling.machine program (given.trace frame wanted) := by
  have recorded := respelling.record_carried given.journal
    (.traced frame.blueprint.name frame.pc wanted frame.stack)
  have tracing : (respelling.machine program given).journal.tracing = given.journal.tracing := rfl
  rw [Machine.trace, Machine.trace, tracing]
  cases given.journal.tracing with
  | false => rfl
  | true =>
    rw [if_pos rfl, if_pos rfl, machine, machine, ← recorded]
    rfl

/-- An instruction is counted under both spellings, or under none if it has trapped. -/
theorem count_carried (program : Program) (given : Outcome Machine) :
    Machine.count (respelling.outcome (respelling.machine program) given) =
      respelling.outcome (respelling.machine program) (Machine.count given) := by
  rw [Machine.count, Machine.count, outcome]
  cases trap : given.trap with
  | none => rfl
  | some raised => simp [outcome, trap]

section Execution

variable {respelling} {source target : Program} (carries : respelling.Carries source target) {given : Machine}
  (loaded : given.program = source)

include carries loaded

/-- A method is called under both spellings of its name. The other program has the same methods, spelled otherwise,
with as many parameters. -/
theorem invoke_carried (frame : Frame) (callers : List Frame) (name : Text) :
    (respelling.machine target given).invoke (respelling.frame frame) (callers.map respelling.frame)
        (respelling.spell name) =
      respelling.outcome (respelling.machine target) (given.invoke frame callers name) := by
  have found : target.method? (respelling.spell name) = (given.program.method? name).map respelling.blueprint := by
    rw [carries.methods, loaded, Program.method?, Program.method?, respelling.folded]
  rw [Machine.invoke, Machine.invoke, machine_program, found, machine_frames, List.length_map, machine_limit,
    fault_named _ _ .missingMethod (by decide), fault_named _ _ .callOverflow (by decide), underflow_carried]
  cases given.program.method? name with
  | none => rfl
  | some method =>
    have params : (respelling.blueprint method).params.length = method.params.length := List.length_map _
    simp only [Option.map_some, frame_stack, params]
    by_cases deep : given.depthLimit ≤ given.frames.length
    · rw [if_pos deep, if_pos deep]
      rfl
    · rw [if_neg deep, if_neg deep]
      by_cases few : frame.stack.length ≤ method.params.length
      · rw [if_pos few, if_pos few]
        rfl
      · have recorded := respelling.record_carried given.journal
          (.called method.name frame.blueprint.name frame.pc (given.frames.length + 1))
        rw [if_neg few, if_neg few, enter_carried, outcome, machine, machine, ← recorded]
        rfl

/-- An instruction does the same in the innermost frame of the machine that is carried over. The devices are the same,
so that reading and writing give the same. -/
theorem execute_in_carried (frame : Frame) (callers : List Frame) (wanted : Instruction) :
    (respelling.machine target given).executeIn (respelling.frame frame) (callers.map respelling.frame)
        (respelling.instruction wanted) =
      respelling.outcome (respelling.machine target) (given.executeIn frame callers wanted) := by
  cases opcode : wanted.opcode with
  | invokevirtual =>
    simp only [Machine.executeIn, instruction_opcode, opcode]
    simp only [instruction, opcode]
    cases wanted.operands with
    | nil => rfl
    | cons name rest =>
      rw [List.mapIdx_cons]
      exact invoke_carried carries loaded frame callers name
  | ireturn =>
    simp only [Machine.executeIn, instruction_opcode, opcode, frame_stack, underflow_carried]
    cases frame.stack <;> rfl
  | input =>
    simp only [Machine.executeIn, instruction_opcode, opcode, machine_input]
    rcases given.input.readValue with ⟨failure | value, input⟩
    · dsimp only
      rw [fault_unnamed _ _ .inputError (by decide)]
      rfl
    · rfl
  | output =>
    simp only [Machine.executeIn, instruction_opcode, opcode, frame_stack, underflow_carried, machine_output]
    cases frame.stack with
    | nil => rfl
    | cons value rest =>
      have failed := respelling.fault_unnamed { frame with stack := rest } .outputError (by decide)
      dsimp only
      rcases given.output.put value with ⟨_ | text, output⟩
      · rfl
      · exact congrArg (fun trap => ({
          state := respelling.machine target { given with frames := { frame with stack := rest } :: callers, output }
          trap := some trap } : Outcome Machine)) (failed (some text))
  | halt =>
    have recorded := respelling.record_carried given.journal (.halted frame.blueprint.name frame.pc)
    simp only [Machine.executeIn, instruction_opcode, opcode]
    rw [outcome, machine, machine, Machine.continueWith, Machine.continueWith, ← recorded]
    rfl
  | _ =>
    have performed := respelling.perform_carried carries wanted frame
    simp only [Machine.executeIn, instruction_opcode, opcode, machine_program, performed, loaded]
    rfl

/-- An instruction does the same on the machine that is carried over, with tracing and counting around it. -/
theorem execute_carried (wanted : Instruction) :
    (respelling.machine target given).execute (respelling.instruction wanted) =
      respelling.outcome (respelling.machine target) (given.execute wanted) := by
  rw [Machine.execute, Machine.execute, machine_frames]
  cases given.frames with
  | nil => rfl
  | cons frame callers =>
    have traced : (given.trace frame wanted).program = source := by
      obtain ⟨journal, eq⟩ := given.trace_eq frame wanted
      rw [eq]
      exact loaded
    rw [List.map_cons]
    dsimp only
    rw [trace_carried, execute_in_carried carries traced, count_carried]

end Execution

/-! ## Runs -/

/-- What a machine that is about to do something holds is the program that it held before. No step exchanges the
program. -/
theorem phase_loaded {given after : Machine}
    (goesOn : given.next = .left after ∨ ∃ wanted, given.next = .ready after wanted) :
    after.program = given.program := by
  rcases goesOn with left | ⟨wanted, advanced⟩
  · obtain ⟨frame, callers, -, -, rfl⟩ := Machine.next_eq_left left
    cases callers <;> rfl
  · obtain ⟨frame, callers, -, -, rfl⟩ := Machine.next_eq_ready advanced
    rfl

/-- An instruction leaves the program as it is, also if it traps. -/
theorem execute_loaded (given : Machine) (wanted : Instruction) :
    (given.execute wanted).state.program = given.program := by
  cases frames : given.frames with
  | nil => simp only [Machine.execute, frames]
  | cons frame callers =>
    rcases Machine.execute_effect frames wanted with stays | ⟨name, method, calls⟩
    · exact stays.program
    · exact calls.program

/-- The output is flushed at the end of a run that is carried over, with the same failure if there is one. -/
theorem finish_carried (program : Program) (given : Finish Unit) :
    Machine.finish (respelling.finish program given) = respelling.finish program (Machine.finish given) := by
  obtain ⟨state, last, ending⟩ := given
  simp only [Machine.finish, finish, machine_output]
  rcases last.output.flush with ⟨failure, output⟩
  cases ending with
  | completed => cases failure <;> rfl
  | _ => rfl

section Runs

variable {respelling} {source target : Program} (carries : respelling.Carries source target)

include carries

/-- As many steps as there is fuel for do the same on the machine that is carried over. The induction is on the
fuel. -/
theorem loop_carried (fuel : Nat) (given : Machine) (loaded : given.program = source) :
    Machine.loop Machine.noHook fuel () (respelling.machine target given) =
      respelling.finish target (Machine.loop Machine.noHook fuel () given) := by
  -- Along the run the machine holds the same program, which is what the other program was compared with.
  induction fuel generalizing given with
  | zero => rfl
  | succ fuel ih =>
    rw [Machine.loop, Machine.loop, next_carried]
    cases phase : given.next with
    | «over» => rfl
    | left after => exact ih after ((phase_loaded (.inl phase)).trans loaded)
    | ready reached wanted =>
      have reachedLoaded := (phase_loaded (.inr ⟨wanted, phase⟩)).trans loaded
      have executed := execute_carried carries reachedLoaded wanted
      simp only [Respelling.phase, Machine.noHook, executed, outcome]
      cases (reached.execute wanted).trap with
      | some raised => rfl
      | none => exact ih _ ((execute_loaded reached wanted).trans reachedLoaded)

/-- A run starts with the frame that is carried over, or without one in both programs. -/
theorem restart_carried (given : Machine) (loaded : given.program = source) :
    (respelling.machine target given).restart = respelling.machine target given.restart := by
  have frames : (target.main?.map fun main => Frame.enter main (-1) []).toList =
      (given.program.main?.map fun main => Frame.enter main (-1) []).toList.map respelling.frame := by
    rw [carries.main, loaded]
    cases source.main? with
    | none => rfl
    | some main => simp only [Option.map_some, Option.toList_some, List.map_cons, List.map_nil, enter_carried]
  rw [Machine.restart, machine_program, frames]
  rfl

/-- A run of the machine that is carried over is the run that is carried over. It is the loop between its start and
the flush at its end. -/
theorem run_carried (fuel : Nat) (given : Machine) (loaded : given.program = source) :
    (respelling.machine target given).run Machine.noHook fuel () =
      respelling.finish target (given.run Machine.noHook fuel ()) := by
  have hasMain : target.main?.isSome = given.program.main?.isSome := by rw [carries.main, loaded, Option.isSome_map]
  rw [Machine.run, Machine.run, machine_program, hasMain]
  cases given.program.main?.isSome with
  | true =>
    rw [if_pos rfl, if_pos rfl, restart_carried carries given loaded, loop_carried carries fuel given.restart loaded,
      finish_carried]
  | false => exact respelling.finish_carried target { state := (), machine := given, ending := .trapped .missing }

end Runs

end Respelling

/-! ## Runs in step -/

/-- What a frame shows apart from names. -/
structure Activation where
  pc : Int
  returnPc : Int
  stack : List Cell
  locals : List (Option Cell)
  deriving DecidableEq, Repr

/-- The activation of a frame. -/
def Frame.activation (frame : Frame) : Activation :=
  { pc := frame.pc, returnPc := frame.returnPc, stack := frame.stack, locals := frame.locals }

/-- A trap without names. -/
def Trap.anonymous : Trap → Trap
  | fault cause => .fault { cause with scope := [], subject := [] }
  | badIndex index length => .badIndex index length
  | missing => .missing

/-- The end of a run without names. -/
def Ending.anonymous : Ending → Ending
  | trapped trap => .trapped trap.anonymous
  | completed => .completed
  | stopped reason => .stopped reason
  | flushFailed failure => .flushFailed failure
  | suspended => .suspended

/-- Two runs are at the same point: their calls in progress, pending values, counters and devices are the same, and
they have ended alike, all apart from names. -/
structure Finish.InStep (one other : Finish Unit) : Prop where
  output : one.machine.output = other.machine.output
  input : one.machine.input = other.machine.input
  frames : one.machine.frames.map Frame.activation = other.machine.frames.map Frame.activation
  depth : one.machine.frames.length = other.machine.frames.length
  final : one.machine.final.map Frame.activation = other.machine.final.map Frame.activation
  pending : one.machine.pending = other.machine.pending
  halted : one.machine.halted = other.machine.halted
  executed : one.machine.executed = other.machine.executed
  ending : one.ending.anonymous = other.ending.anonymous

/-- The end of a run that is carried over is the same apart from names, since nothing else of it is changed. -/
theorem Respelling.ending_anonymous (respelling : Respelling) (given : Ending) :
    (respelling.ending given).anonymous = given.anonymous := by
  cases given with
  | trapped raised => cases raised <;> rfl
  | _ => rfl

/-- Runs are in step if they become one run when they are carried over. Whatever is no name is the same before and
after, so that it can be compared there. -/
theorem Respelling.in_step (respelling : Respelling) {target : Program} {one other : Finish Unit}
    (same : respelling.finish target one = respelling.finish target other) : one.InStep other := by
  have machines : respelling.machine target one.machine = respelling.machine target other.machine :=
    congrArg Finish.machine same
  have frames := congrArg (fun given : Machine => given.frames.map Frame.activation) machines
  have final := congrArg (fun given : Machine => given.final.map Frame.activation) machines
  have endings := congrArg (fun given : Finish Unit => given.ending.anonymous) same
  simp only [Respelling.machine, List.map_map, Option.map_map] at frames final
  have output := congrArg Machine.output machines
  have input := congrArg Machine.input machines
  have pending := congrArg Machine.pending machines
  have halted := congrArg Machine.halted machines
  have executed := congrArg Machine.executed machines
  refine ⟨output, input, frames, ?_, final, pending, halted, executed, ?_⟩
  · have lengths := congrArg List.length frames
    rwa [List.length_map, List.length_map] at lengths
  · rwa [Respelling.finish, Respelling.finish, ending_anonymous, ending_anonymous] at endings

end IntegerMachine
