import IntegerMachine.Image
import IntegerMachine.Proofs.CallStack

/-!
# Index safety

An instruction looks up its operands, the immediate value at its place, a slot or a label by name, and the frame in
which it is executed. None of these look-ups is outside of its table in a run of a program that was read from an image
or linked, whether it makes sense or not. All that this needs is what linking has checked and what holds of the call
stack.

So the only traps are faults of the program, and a run ends as the hook wants, with a fault, with a failure of the
output or because the program is at its end.
-/
namespace IntegerMachine

/-- Whatever an instruction of a frame may look up is inside of its table. -/
structure Frame.InRange (program : Program) (frame : Frame) (instruction : Instruction) : Prop where
  place : 0 ≤ frame.pc ∧ frame.blueprint.code[frame.pc.toNat]? = some instruction
  operands : instruction.operands.length = instruction.opcode.operands.count
  immediate : frame.pc.toNat < frame.blueprint.immediates.size
  slots : ∀ name slot, frame.blueprint.slot? name = some slot → slot < frame.locals.length
  labels : ∀ name index, frame.blueprint.label? name = some index → index < frame.blueprint.code.size
  /-- A method that is found has a place for each of its parameters. -/
  params : ∀ name method arguments, program.method? name = some method → arguments.length = method.params.length →
    method.params.length ≤ (Frame.enter method frame.pc arguments).locals.length

/-- An instruction whose look-ups are inside of their tables traps with a fault. Every other reason for a trap is a
look-up that has failed. -/
theorem Frame.InRange.faults {program : Program} {frame : Frame} {instruction : Instruction}
    (inRange : frame.InRange program instruction) {outcome : Outcome Frame}
    (effect : frame.Effect program instruction outcome) {trap : Trap} (raised : outcome.trap = some trap) :
    ∃ fault, trap = .fault fault := by
  cases effect with
  | moved | stored | jumped => cases raised
  | starved =>
    cases raised
    exact ⟨_, rfl⟩
  | refused stack reasonTrap reason =>
    cases raised
    cases reason with
    | fault fault => exact ⟨fault, rfl⟩
    | unset => exact ⟨_, rfl⟩
    | noOperand wants absent =>
      have count := inRange.operands
      rw [absent, List.length_nil] at count
      omega
    | noImmediate absent => exact absurd inRange.immediate (Nat.not_lt.mpr (Array.getElem?_eq_none_iff.mp absent))
    | noPlace name slot found outside => exact absurd (inRange.slots name slot found) (Nat.not_lt.mpr outside)

namespace Stage

/-- All look-ups of an instruction that comes next are inside of their tables, and a trap is a fault. -/
def Safe (program : Program) : Stage → Prop
  | between _ => True
  | ready machine instruction =>
    ∃ frame callers, machine.frames = frame :: callers ∧ frame.InRange program instruction
  | trapped _ trap => ∃ fault, trap = .fault fault

variable {program : Program} {limit : Nat}

/-- What linking has checked and what holds of the call stack keep look-ups inside of their tables. Whether names are
found is not asked; a name that is not found is a fault. -/
theorem Upright.in_range (linked : program.Linked) {machine : Machine} {instruction : Instruction}
    (upright : Upright program limit (ready machine instruction)) :
    ∃ frame callers, machine.frames = frame :: callers ∧ frame.InRange program instruction := by
  obtain ⟨frame, callers, frames, inFront, stands⟩ := upright.stands
  have sound : frame.Sound program := (upright.stack frames).top_sound
  have isLinked : frame.blueprint.Linked := linked.blueprints _ sound.blueprint
  refine ⟨frame, callers, frames, ⟨inFront, stands⟩, ?_, ?_, ?_, ?_, ?_⟩
  · exact (isLinked.sound instruction (Array.mem_of_getElem? stands)).count
  · rw [isLinked.immediates_size]
    exact (Array.getElem?_eq_some_iff.mp stands).1
  · intro name slot found
    rw [sound.locals_length]
    exact isLinked.slot_inside found
  · intro name index found
    exact isLinked.label_inside found
  · intro name method arguments _ count
    rw [Frame.enter, List.length_append, List.length_map, count]
    exact Nat.le_add_right _ _

/-- Every stage that is reached is safe. Only the last step is looked at: the stage before it is upright. -/
theorem Upright.reaches_safe (linked : program.Linked) {start stage : Stage} (upright : Upright program limit start)
    (safe : start.Safe program) (reaches : Reaches Machine.Touches start stage) : stage.Safe program := by
  cases reaches with
  | refl => exact safe
  | tail earlier last =>
    have before := upright.reaches linked earlier
    cases last with
    | left | executed => exact trivial
    | advanced isReady change => exact (before.step linked (.advanced isReady change)).in_range linked
    | failed raised =>
      obtain ⟨frame, callers, frames, inRange⟩ := before.in_range linked
      rcases Machine.execute_effect frames _ with stays | ⟨name, method, calls⟩
      · obtain ⟨outcome, effect, same, -⟩ := stays.effect
        exact inRange.faults (before.loaded ▸ effect) (same.symm.trans raised)
      · cases calls.trap.symm.trans raised

end Stage

/-- A program that was read from bytes, or linked from linked blueprints. -/
inductive Program.Constructed : Program → Prop where
  | decoded (bytes : Text) (program : Program) (accepted : Program.decode bytes = .ok program) : Constructed program
  | linked (constants : List (Text × Cell)) (blueprints : List Blueprint) (program : Program)
      (each : ∀ blueprint ∈ blueprints, blueprint.Linked) (accepted : Program.link constants blueprints = .ok program) :
      Constructed program

/-- What a list of computations gives comes from its members, so that each result has passed the check of its own
computation. -/
theorem mem_map_ok {Given Error Result : Type} {build : Given → Except Error Result} {list : List Given}
    {results : List Result} (built : list.mapM build = .ok results) (result : Result) (member : result ∈ results) :
    ∃ element ∈ list, build element = .ok result := by
  induction list generalizing results with
  | nil =>
    cases built
    cases member
  | cons first rest ih =>
    rw [List.mapM_cons, bind_ok_iff] at built
    obtain ⟨head, builtHead, others⟩ := built
    obtain ⟨tail, builtTail, same⟩ := (bind_ok_iff _ _ _).mp others
    cases same
    rcases List.mem_cons.mp member with rfl | later
    · exact ⟨first, List.mem_cons_self, builtHead⟩
    · obtain ⟨element, listed, builtElement⟩ := ih builtTail later
      exact ⟨element, List.mem_cons_of_mem _ listed, builtElement⟩

/-- A blueprint that was stored is linked when it is loaded. Labels, slots and immediate values are not stored but
made again. -/
theorem Image.load_blueprint_linked {stored : StoredBlueprint} {blueprint : Blueprint}
    (loaded : loadBlueprint stored = .ok blueprint) : blueprint.Linked := by
  rw [loadBlueprint, bind_ok_iff] at loaded
  obtain ⟨code, -, made⟩ := loaded
  split at made
  · rename_i accepted
    cases made
    exact ⟨_, _, _, _, accepted⟩
  · cases made

/-- The program of an image is linked. The mark and the version of the image come first, and nothing is loaded from an
image without them. -/
theorem Image.load_linked {image : Image} {program : Program} (loaded : image.load = .ok program) : program.Linked := by
  by_cases marked : image.mark = imageMark
  case neg => simp [load, marked, throw, throwThe, MonadExceptOf.throw, bind, Except.bind] at loaded
  by_cases current : image.version = imageVersion
  case neg => simp [load, marked, current, throw, throwThe, MonadExceptOf.throw, bind, Except.bind] at loaded
  simp only [load, marked, current, ne_eq, not_true_eq_false, if_false, bind_ok_iff] at loaded
  obtain ⟨blueprints, loadedBlueprints, made⟩ := loaded
  split at made
  · rename_i accepted
    cases made
    refine ⟨_, blueprints, ?_, accepted⟩
    intro blueprint member
    obtain ⟨stored, -, loadedOne⟩ := mem_map_ok loadedBlueprints blueprint member
    exact load_blueprint_linked loadedOne
  · cases made

/-- A program that was read or linked is linked. There are no other ways to come by a program, apart from writing its
tables by hand. -/
theorem Program.Constructed.isLinked {program : Program} (constructed : program.Constructed) : program.Linked := by
  cases constructed with
  | decoded bytes _ accepted =>
    unfold decode at accepted
    split at accepted
    · cases accepted
    · exact Image.load_linked accepted
  | linked constants blueprints _ each accepted => exact ⟨constants, blueprints, each, accepted⟩

/-- A program that was read or linked is executed without a look-up outside of a table, at every stage of every run.
The run is completed, suspended for lack of fuel, stopped by the hook, ended by a fault, or completed with a failure
of the output. -/
theorem constructed_program_in_range {program : Program} (constructed : program.Constructed) (machine : Machine)
    (loaded : machine.program = program) (positive : 0 < machine.depthLimit) {State : Type} (hook : Hook State)
    (respects : Machine.Respects Machine.Touches hook) (fuel : Nat) (state : State) :
    (∀ reached instruction,
      Stage.Reaches Machine.Touches (.between machine.restart) (.ready reached instruction) →
        ∃ frame callers, reached.frames = frame :: callers ∧ frame.InRange program instruction) ∧
    ((machine.run hook fuel state).ending = .completed ∨
      (machine.run hook fuel state).ending = .suspended ∨
      (∃ reason, (machine.run hook fuel state).ending = .stopped reason ∧
        ∃ asked reached, (hook asked reached).verdict = .stop reason) ∨
      (∃ fault, (machine.run hook fuel state).ending = .trapped (.fault fault)) ∨
      ∃ failure, (machine.run hook fuel state).ending = .flushFailed failure) := by
  have linked := constructed.isLinked
  have start := Stage.Upright.start linked loaded rfl positive
  refine ⟨fun reached instruction reaches => (start.reaches linked reaches).in_range linked, ?_⟩
  have hasMain : machine.program.main?.isSome = true := by rw [loaded]; exact linked.has_main
  obtain ⟨stage, output, reaches, -, ends | failed⟩ := Machine.run_reaches respects machine hasMain fuel state
  · have safe := start.reaches_safe linked trivial reaches
    generalize (machine.run hook fuel state).ending = ending at ends
    cases ends with
    | completed => exact .inl rfl
    | suspended => exact .inr (.inl rfl)
    | stopped reason asked => exact .inr (.inr (.inl ⟨reason, rfl, asked⟩))
    | interrupted fault => exact .inr (.inr (.inr (.inl ⟨fault, rfl⟩)))
    | trapped =>
      obtain ⟨fault, rfl⟩ := safe
      exact .inr (.inr (.inr (.inl ⟨fault, rfl⟩)))
  · exact .inr (.inr (.inr (.inr failed)))

/-- An image whose main block has a parameter and stores into a local that there is not. -/
def nonsense : Image :=
  { mark := Image.imageMark
    version := Image.imageVersion
    blueprints := [
      { name := "main"
        params := ["p"]
        code := [{ opcode := "BIPUSH", operands := ["7"] }, { opcode := "ISTORE", operands := ["nowhere"] }] }] }

/-- The program of the image runs into a fault, with every look-up inside of its table. Analysis would have refused
it, but an image need not come from a source. -/
theorem nonsense_in_range : ∃ program, Program.decode nonsense.encode = .ok program ∧
    (({ program } : Machine).run Machine.noHook 9 ()).ending =
      .trapped (.fault { kind := .missingLocal, scope := "main", pc := 1, subject := "nowhere" }) ∧
    ∀ reached instruction,
      Stage.Reaches Machine.Touches (.between ({ program } : Machine).restart) (.ready reached instruction) →
        ∃ frame callers, reached.frames = frame :: callers ∧ frame.InRange program instruction := by
  have faults : (Program.decode nonsense.encode).toOption.any (fun program =>
      (({ program } : Machine).run Machine.noHook 9 ()).ending =
        .trapped (.fault { kind := .missingLocal, scope := "main", pc := 1, subject := "nowhere" })) = true := by
    decide +kernel
  obtain ⟨program, read, passes⟩ := exists_ok_of_any faults
  exact ⟨program, read, of_decide_eq_true passes,
    (constructed_program_in_range (.decoded _ program read) { program } rfl (Nat.succ_pos _) Machine.noHook
      (Machine.no_hook_respects fun _ => ⟨rfl, rfl, rfl⟩) 9 ()).1⟩

end IntegerMachine
