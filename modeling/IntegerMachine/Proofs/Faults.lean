import IntegerMachine.Machine.Run
import IntegerMachine.Proofs.Resolution

/-!
# Faults of closed programs

A run of a closed program can fail for want of a value only: a local that is unset, an operand stack or an input
that has run out, an output that refuses a value, or a call that goes too deep. It never fails for want of a label,
a local, a constant or a method, and never meets an instruction that it does not know.

What a run relies on is that its frames are activations of blocks of the program with a place for each local. One
lemma for each way in which an instruction touches its frame says that this stays so and how it can trap; they are
put together for instructions, for steps of the machine, and for runs of any length.
-/
namespace IntegerMachine

/-- The kinds of faults that a closed program can run into. -/
def FaultKind.possible : List FaultKind := [unsetLocal, stackUnderflow, callOverflow, inputError, outputError]

/-- A fault of one of the kinds that are possible. -/
def Trap.Possible (trap : Trap) : Prop := ∃ fault, trap = .fault fault ∧ fault.kind ∈ FaultKind.possible

namespace Frame

/-- A frame is an activation of a block of the program with a place for each local. -/
structure Fits (program : Program) (frame : Frame) : Prop where
  blueprint : frame.blueprint ∈ program.blueprints
  locals : frame.locals.length = frame.blueprint.locals.length

/-- An outcome leaves a frame of the same block with the same number of locals, and traps in a possible way at
most. -/
structure Steady (frame : Frame) (outcome : Outcome Frame) : Prop where
  blueprint : outcome.state.blueprint = frame.blueprint
  locals : outcome.state.locals.length = frame.locals.length
  trap : ∀ trap, outcome.trap = some trap → trap.Possible

namespace Steady

variable {frame : Frame}

/-- A frame that was left steady is an activation with a place for each local, as it was before. -/
theorem fits {program : Program} {outcome : Outcome Frame} (steady : Steady frame outcome)
    (fits : Fits program frame) : Fits program outcome.state :=
  ⟨steady.blueprint ▸ fits.blueprint, by rw [steady.locals, steady.blueprint, fits.locals]⟩

/-- What was steady for a frame with another stack is steady for the frame. Stacks are not spoken of, so values may be
taken before the rest of an instruction is looked at. -/
theorem of_stack (stack : List Cell) {outcome : Outcome Frame} (steady : Steady { frame with stack } outcome) :
    Steady frame outcome :=
  ⟨steady.blueprint, steady.locals, steady.trap⟩

/-- A frame that is left as it is. -/
theorem done : Steady frame frame.done := ⟨rfl, rfl, nofun⟩

/-- A value on top of the stack. -/
theorem push (value : Cell) : Steady frame (frame.push value).done := ⟨rfl, rfl, nofun⟩

/-- A fault of a possible kind. -/
theorem trapped (kind : FaultKind) (subject : Text) (device : Option Text) (possible : kind ∈ FaultKind.possible) :
    Steady frame (frame.trapped (frame.fault kind subject device)) := by
  refine ⟨rfl, rfl, fun trap raised => ?_⟩
  cases raised
  exact ⟨_, rfl, possible⟩

/-- A lack of values is a possible fault, and all values that there were are gone. -/
theorem underflow : Steady frame frame.underflow := by
  have emptied : Steady { frame with stack := [] } frame.underflow := trapped .stackUnderflow [] none (by decide)
  exact emptied.of_stack []

/-- Two values are combined to one, or are not both there. -/
theorem combine (operation : Cell → Cell → Cell) : Steady frame (frame.combine operation) := by
  unfold Frame.combine
  split
  · exact of_stack _ done
  · exact underflow

/-- A jump to a label that is found. -/
theorem jump {name : Text} {index : Nat} (found : frame.blueprint.label? name = some index) :
    Steady frame (frame.jump name) := by
  rw [Frame.jump, found]
  exact ⟨rfl, rfl, nofun⟩

/-- Storing into a local that has a place. Both the slot and the place are needed, as a look-up outside of the locals
would not even be a fault. -/
theorem store {name : Text} {slot : Nat} (found : frame.blueprint.slot? name = some slot)
    (inside : slot < frame.locals.length) (value : Cell) : Steady frame (frame.store name value) := by
  rw [Frame.store, withSlot, found]
  dsimp only
  rw [if_pos inside]
  exact ⟨rfl, List.length_set .., nofun⟩

/-- Going on with the value of a local that has a place, or trapping because it is unset. -/
theorem withLocal {name : Text} {slot : Nat} (found : frame.blueprint.slot? name = some slot)
    (inside : slot < frame.locals.length) {next : Cell → Outcome Frame} (steady : ∀ value, Steady frame (next value)) :
    Steady frame (frame.withLocal name next) := by
  rw [Frame.withLocal, withSlot, found]
  dsimp only
  rw [List.getElem?_eq_getElem inside]
  cases frame.locals[slot] with
  | none => exact trapped .unsetLocal name none (by decide)
  | some value => exact steady value

/-- Going on with the literal operand of an instruction that has one. -/
theorem withImmediate (inside : frame.pc.toNat < frame.blueprint.immediates.size) {next : Cell → Outcome Frame}
    (steady : ∀ value, Steady frame (next value)) : Steady frame (frame.withImmediate next) := by
  rw [Frame.withImmediate, Array.getElem?_eq_getElem inside]
  exact steady _

/-- A test of the uppermost value, and a jump to a label that is found. The label must be there whether or not the
test comes out true. -/
theorem branch {instruction : Instruction} {name : Text} {rest : List Text} {index : Nat}
    (operands : instruction.operands = name :: rest) (found : frame.blueprint.label? name = some index)
    (test : Cell → Bool) : Steady frame (frame.branch instruction test) := by
  unfold Frame.branch
  split
  · exact underflow
  · rename_i below _
    refine of_stack below ?_
    dsimp only
    split
    · rw [withOperand, operands]
      exact jump found
    · exact done

end Steady

/-- An instruction that stands in the code of a block of a closed program and finds what it names is steady, unless it
is one for the machine. -/
theorem perform_steady {program : Program} {frame : Frame} (closed : program.Closed) (fits : Fits program frame)
    {instruction : Instruction} (stands : frame.blueprint.code[frame.pc.toNat]? = some instruction)
    (own : instruction.opcode ∉ [.invokevirtual, .ireturn, .input, .output, .halt]) :
    Steady frame (frame.perform program instruction) := by
  obtain ⟨inCode, _⟩ := Array.getElem?_eq_some_iff.mp stands
  have immediate : frame.pc.toNat < frame.blueprint.immediates.size := by
    rw [closed.immediates _ fits.blueprint]
    exact inCode
  have names := closed.names _ fits.blueprint instruction (Array.mem_of_getElem? stands)
  obtain ⟨opcode, operands, line⟩ := instruction
  unfold perform
  cases opcode with
  | label | nop => exact Steady.done
  | bipush => exact Steady.withImmediate immediate Steady.push
  | dup =>
    dsimp only
    split
    · exact Steady.underflow
    · exact Steady.push _
  | pop =>
    dsimp only
    split
    · exact Steady.underflow
    · exact Steady.of_stack _ Steady.done
  | swap =>
    dsimp only
    split
    · exact Steady.of_stack _ Steady.done
    · exact Steady.underflow
  | iadd | isub | iand | ior => exact Steady.combine _
  | iload =>
    obtain ⟨name, rest, slot, rfl, found, inside⟩ := names.slot (by simp)
    rw [← fits.locals] at inside
    exact Steady.withLocal found inside Steady.push
  | istore =>
    obtain ⟨name, rest, slot, rfl, found, inside⟩ := names.slot (by simp)
    rw [← fits.locals] at inside
    dsimp only
    split
    · exact Steady.underflow
    · rename_i value below _
      exact Steady.of_stack below (@Steady.store { frame with stack := below } name slot found inside value)
  | iinc =>
    obtain ⟨name, rest, slot, rfl, found, inside⟩ := names.slot (by simp)
    rw [← fits.locals] at inside
    apply Steady.withLocal found inside
    intro value
    apply Steady.withImmediate immediate
    intro increment
    exact Steady.store found inside (value + increment)
  | ldcw =>
    cases operands with
    | nil => exact absurd names id
    | cons name rest =>
      obtain ⟨value, found⟩ := names
      dsimp only [withOperand]
      rw [found]
      exact Steady.push value
  | goto =>
    obtain ⟨name, rest, index, rfl, found⟩ := names.target (by simp)
    exact Steady.jump found
  | ifeq | iflt =>
    obtain ⟨name, rest, index, rfl, found⟩ := names.target (by simp)
    exact Steady.branch rfl found _
  | ificmpeq =>
    obtain ⟨name, rest, index, rfl, found⟩ := names.target (by simp)
    dsimp only
    split
    · rename_i upper lower below _
      apply Steady.of_stack below
      split
      · exact Steady.jump found
      · exact Steady.done
    · exact Steady.underflow
  | invokevirtual | ireturn | input | output | halt => exact absurd own (by simp)
  | unassigned code => exact absurd names id

end Frame

namespace Machine

/-- A machine runs the program, and its frames are activations of blocks of the program. -/
structure Intact (program : Program) (machine : Machine) : Prop where
  runs : machine.program = program
  frames : ∀ frame ∈ machine.frames, frame.Fits program

/-- An outcome leaves an intact machine, and traps in a possible way at most. -/
structure Kept (program : Program) (outcome : Outcome Machine) : Prop where
  state : Intact program outcome.state
  trap : ∀ trap, outcome.trap = some trap → trap.Possible

/-- A new activation of a block of the program has a place for each local if there are not more arguments than
locals. -/
theorem enter_fits {program : Program} {method : Blueprint} (member : method ∈ program.blueprints) (returnPc : Int)
    (arguments : List Cell) (few : arguments.length ≤ method.locals.length) :
    (Frame.enter method returnPc arguments).Fits program := by
  refine ⟨member, ?_⟩
  simp only [Frame.enter, List.length_append, List.length_map, List.length_replicate]
  omega

/-- A machine that goes on with a steady outcome of its innermost frame is kept, whatever else was changed. Devices
and records may be others than before. -/
theorem continue_kept {program : Program} {machine : Machine} {frame : Frame} {callers : List Frame}
    (runs : machine.program = program) (fits : ∀ inner ∈ frame :: callers, inner.Fits program)
    {outcome : Outcome Frame} (steady : frame.Steady outcome) :
    Kept program (machine.continueWith callers outcome) := by
  rw [List.forall_mem_cons] at fits
  exact ⟨⟨runs, List.forall_mem_cons.mpr ⟨steady.fits fits.1, fits.2⟩⟩, steady.trap⟩

/-- A call of a method that is found keeps the machine: it takes as many arguments as there are parameters. If it goes
too deep or lacks values, it traps in a possible way. -/
theorem invoke_kept {program : Program} {machine : Machine} {frame : Frame} {callers : List Frame}
    (runs : machine.program = program) (fits : ∀ inner ∈ frame :: callers, inner.Fits program) {name : Text}
    {method : Blueprint} (member : method ∈ program.blueprints) (found : program.method? name = some method) :
    Kept program (machine.invoke frame callers name) := by
  unfold invoke
  rw [← runs] at found
  rw [found]
  dsimp only
  split
  · exact continue_kept runs fits (Frame.Steady.trapped .callOverflow name none (by decide))
  · split
    · exact continue_kept runs fits Frame.Steady.underflow
    · rw [List.forall_mem_cons] at fits
      refine ⟨⟨runs, ?_⟩, nofun⟩
      refine List.forall_mem_cons.mpr ⟨enter_fits member _ _ ?_, List.forall_mem_cons.mpr ⟨?_, fits.2⟩⟩
      · rw [List.length_reverse, List.length_take, Blueprint.locals, List.length_append]
        omega
      · exact ⟨fits.1.blueprint, fits.1.locals⟩

/-- An instruction in the code of the innermost frame keeps the machine. What it names is found, because the program
is closed. -/
theorem execute_in_kept {program : Program} (closed : program.Closed) {machine : Machine} {frame : Frame}
    {callers : List Frame} (runs : machine.program = program) (fits : ∀ inner ∈ frame :: callers, inner.Fits program)
    {instruction : Instruction} (stands : frame.blueprint.code[frame.pc.toNat]? = some instruction) :
    Kept program (machine.executeIn frame callers instruction) := by
  have own : frame.Fits program := fits frame List.mem_cons_self
  have names := closed.names _ own.blueprint instruction (Array.mem_of_getElem? stands)
  unfold executeIn
  split
  · rename_i isCall
    rw [Resolves, isCall] at names
    cases operands : instruction.operands with
    | nil =>
      rw [operands] at names
      exact absurd names id
    | cons name rest =>
      rw [operands] at names
      obtain ⟨method, member, found⟩ := names
      exact invoke_kept runs fits member found
  · split
    · exact continue_kept runs fits Frame.Steady.underflow
    · refine continue_kept ?_ fits (Frame.Steady.of_stack _ Frame.Steady.done)
      exact runs
  · split
    · exact continue_kept (by exact runs) fits (Frame.Steady.trapped .inputError [] _ (by decide))
    · exact continue_kept (by exact runs) fits (Frame.Steady.push _)
  · split
    · exact continue_kept runs fits Frame.Steady.underflow
    · rename_i value below _
      refine continue_kept ?_ fits ⟨rfl, rfl, fun trap raised => ?_⟩
      · exact runs
      · obtain ⟨failure, _, rfl⟩ := Option.map_eq_some_iff.mp raised
        exact ⟨_, rfl, by simp [FaultKind.possible]⟩
  · exact continue_kept (by exact runs) fits Frame.Steady.done
  · rename_i notCall notReturn notInput notOutput notHalt
    rw [runs]
    refine continue_kept runs fits (Frame.perform_steady closed own stands ?_)
    simp only [List.mem_cons, List.not_mem_nil, or_false, not_or]
    exact ⟨notCall, notReturn, notInput, notOutput, notHalt⟩

/-- Recording an instruction does not change the program. -/
theorem trace_program (machine : Machine) (frame : Frame) (instruction : Instruction) :
    (machine.trace frame instruction).program = machine.program := by
  unfold trace
  split <;> rfl

/-- Counting an instruction changes neither the program nor the frames, so what is kept stays kept. -/
theorem count_kept {program : Program} {outcome : Outcome Machine} (kept : Kept program outcome) :
    Kept program (count outcome) := by
  unfold count
  split
  · exact kept
  · exact ⟨⟨kept.state.runs, kept.state.frames⟩, nofun⟩

/-- Leaving a frame keeps the machine. The caller may get a value on its stack and goes on behind its call; its block
and its locals are as before. -/
theorem leave_intact {program : Program} {machine : Machine} {frame : Frame} {callers : List Frame}
    (runs : machine.program = program) (fits : ∀ inner ∈ callers, inner.Fits program) :
    Intact program (machine.leave frame callers) := by
  unfold leave
  split
  · exact ⟨runs, nofun⟩
  · rw [List.forall_mem_cons] at fits
    exact ⟨runs, List.forall_mem_cons.mpr ⟨⟨fits.1.blueprint, fits.1.locals⟩, fits.2⟩⟩

/-- A machine that has left a frame is intact if it was before, also when no frame is left and the run is over. -/
theorem next_left {program : Program} {machine after : Machine} (intact : Intact program machine)
    (left : machine.next = .left after) : Intact program after := by
  unfold next at left
  split at left
  · cases left
  · cases left
  · rename_i frame callers _ frames
    have fits := intact.frames
    rw [frames, List.forall_mem_cons] at fits
    dsimp only at left
    split at left
    · cases left
      exact leave_intact intact.runs fits.2
    · cases left

/-- A machine that has advanced to an instruction is intact if it was before, and the instruction stands at the place
that the innermost frame has reached. -/
theorem next_ready {program : Program} {machine after : Machine} {instruction : Instruction}
    (intact : Intact program machine) (ready : machine.next = .ready after instruction) :
    Intact program after ∧ ∃ frame callers, after.frames = frame :: callers ∧
      frame.blueprint.code[frame.pc.toNat]? = some instruction := by
  unfold next at ready
  split at ready
  · cases ready
  · cases ready
  · rename_i frame callers _ frames
    have fits := intact.frames
    rw [frames, List.forall_mem_cons] at fits
    dsimp only at ready
    split at ready
    · cases ready
    · rename_i stands
      cases ready
      exact ⟨⟨intact.runs, List.forall_mem_cons.mpr ⟨⟨fits.1.blueprint, fits.1.locals⟩, fits.2⟩⟩,
        _, callers, rfl, stands⟩

/-- Executing the instruction to which the innermost frame has advanced keeps the machine. It is recorded before and
counted afterwards, which makes no difference. -/
theorem execute_kept {program : Program} (closed : program.Closed) {machine : Machine} (intact : Intact program machine)
    {frame : Frame} {callers : List Frame} (frames : machine.frames = frame :: callers) {instruction : Instruction}
    (stands : frame.blueprint.code[frame.pc.toNat]? = some instruction) :
    Kept program (machine.execute instruction) := by
  have fits := intact.frames
  rw [frames] at fits
  rw [execute, frames]
  refine count_kept (execute_in_kept closed ?_ fits stands)
  rw [trace_program, intact.runs]

/-! ## Runs -/

/-- A hook that looks at the machine and may stop it, but neither changes it nor deals with instructions itself. -/
def Observes {State : Type} (hook : Hook State) : Prop :=
  ∀ state machine, (hook state machine).machine = machine ∧
    ((hook state machine).verdict = .proceed ∨ ∃ reason, (hook state machine).verdict = .stop reason)

/-- No hook at all observes: it changes nothing and always lets the run proceed. -/
theorem no_hook_observes : Observes noHook := fun _ _ => ⟨rfl, .inl rfl⟩

/-- A run that traps has reached an instruction that traps, and a property that steps preserve holds there. The
induction is on the fuel; it is stated for any property, so that other invariants can use it. -/
theorem loop_trapped {State : Type} {hook : Hook State} (observes : Observes hook) {Holds : Machine → Prop}
    (leaves : ∀ machine after, Holds machine → machine.next = .left after → Holds after)
    (executes : ∀ machine ready instruction, Holds machine → machine.next = .ready ready instruction →
      (ready.execute instruction).trap = none → Holds (ready.execute instruction).state)
    (fuel : Nat) (state : State) (machine : Machine) (holds : Holds machine) (trap : Trap)
    (ended : (loop hook fuel state machine).ending = .trapped trap) :
    ∃ before ready instruction, Holds before ∧ before.next = .ready ready instruction ∧
      (ready.execute instruction).trap = some trap := by
  induction fuel generalizing state machine with
  | zero => cases ended
  | succ fuel ih =>
    rw [loop] at ended
    cases phase : machine.next with
    | «over» => simp [phase] at ended
    | left after =>
      rw [phase] at ended
      exact ih state after (leaves machine after holds phase) ended
    | ready ready instruction =>
      obtain ⟨unchanged, verdict⟩ := observes state ready
      rw [phase] at ended
      dsimp only at ended
      rcases verdict with proceeds | ⟨reason, stops⟩
      · rw [proceeds, unchanged] at ended
        dsimp only at ended
        cases trapped : (ready.execute instruction).trap with
        | some own =>
          rw [trapped] at ended
          cases ended
          exact ⟨machine, ready, instruction, holds, phase, trapped⟩
        | none =>
          rw [trapped] at ended
          exact ih _ _ (executes machine ready instruction holds phase trapped) ended
      · rw [stops] at ended
        cases ended

/-- Flushing the output does not make a run trap. It may fail, but this is another way to end. -/
theorem finish_trapped {State : Type} (result : Finish State) (trap : Trap)
    (ended : (Machine.finish result).ending = .trapped trap) : result.ending = .trapped trap := by
  unfold Machine.finish at ended
  dsimp only at ended
  split at ended
  · cases ended
  · exact ended

/-- A machine is intact at the start of a run: the only frame is one of the main block. -/
theorem restart_intact {program : Program} (machine : Machine) (loaded : machine.program = program) :
    Intact program machine.restart := by
  refine ⟨loaded, fun frame member => ?_⟩
  obtain ⟨main, isMain, rfl⟩ := Option.map_eq_some_iff.mp (Option.mem_toList.mp member)
  rw [loaded] at isMain
  exact enter_fits (List.mem_of_head? isMain) (-1) [] (Nat.zero_le _)

/-- A run of a closed program traps in a possible way at most. Being intact is the invariant, and an instruction that
is executed on an intact machine has only the possible faults left. -/
theorem run_trapped {program : Program} (closed : program.Closed) {State : Type} {hook : Hook State}
    (observes : Observes hook) (machine : Machine) (loaded : machine.program = program) (fuel : Nat) (state : State)
    (trap : Trap) (ended : (machine.run hook fuel state).ending = .trapped trap) : trap.Possible := by
  have looped := finish_trapped _ trap ended
  rw [loaded, if_pos closed.main] at looped
  have leaves : ∀ machine after, Intact program machine → machine.next = .left after → Intact program after :=
    fun machine after intact left => next_left intact left
  have executes : ∀ machine ready instruction, Intact program machine → machine.next = .ready ready instruction →
      Kept program (ready.execute instruction) := by
    intro machine ready instruction intact reached
    obtain ⟨intactReady, frame, callers, frames, stands⟩ := next_ready intact reached
    exact execute_kept closed intactReady frames stands
  obtain ⟨before, ready, instruction, intact, reached, trapped⟩ := loop_trapped observes leaves
    (fun machine ready instruction intact reached _ => (executes machine ready instruction intact reached).state)
    fuel state machine.restart (restart_intact machine loaded) trap looped
  exact (executes before ready instruction intact reached).trap trap trapped

end Machine

/-- Whatever the depth limit, the input and the output, a run of the program of a source that compiles traps, however
long it lasts, only because a local is unset, a value is missing on the stack, calls go too deep, or the input or the
output fails. Faults for want of a label, a local, a constant or a method can be written down, but do not occur. -/
theorem compiled_program_traps (source : Source) (file : Text) (program : Program)
    (compiled : (source.compile file).2 = .ok program) (machine : Machine) (loaded : machine.program = program)
    {State : Type} (hook : Hook State) (observes : Machine.Observes hook) (fuel : Nat) (state : State) (trap : Trap)
    (ended : (machine.run hook fuel state).ending = .trapped trap) :
    ∃ fault, trap = .fault fault ∧
      fault.kind ∈ [.unsetLocal, .stackUnderflow, .callOverflow, .inputError, .outputError] :=
  Machine.run_trapped (source.compile_closed file program compiled) observes machine loaded fuel state trap ended

/-- A source in which a method calls itself without end. -/
def endless : Source := .ofText ".main
BIPUSH 0
INVOKEVIRTUAL f
.end-main
.method f
BIPUSH 0
INVOKEVIRTUAL F
IRETURN
.end-method
"

/-- The method that calls itself traps at the depth limit. It is one of the faults that analysis cannot exclude. -/
theorem endless_traps : ∃ program trap, (endless.compile "e").2 = .ok program ∧
    (({ program, depthLimit := 3 } : Machine).run Machine.noHook 20 ()).ending = .trapped trap ∧
    ∃ fault, trap = .fault fault ∧
      fault.kind ∈ [.unsetLocal, .stackUnderflow, .callOverflow, .inputError, .outputError] := by
  have traps : (endless.compile "e").2.toOption.any (fun program =>
      (({ program, depthLimit := 3 } : Machine).run Machine.noHook 20 ()).ending =
        .trapped (.fault { kind := .callOverflow, scope := "f", pc := 1, subject := "F" })) = true := by
    decide +kernel
  obtain ⟨program, compiled, passes⟩ := exists_ok_of_any traps
  have ended := of_decide_eq_true passes
  exact ⟨program, _, compiled, ended, compiled_program_traps endless "e" program compiled _ rfl Machine.noHook
    Machine.no_hook_observes 20 () _ ended⟩

end IntegerMachine
