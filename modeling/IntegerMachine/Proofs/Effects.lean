import IntegerMachine.Machine.Step

/-!
# What an instruction does

An instruction takes values from the operand stack of its frame and gives others back, and may store into one local or
continue at one label. A call opens a frame on top of its own. Whatever is below the innermost frame is left alone.
If an instruction traps there is a reason for it, which is found in the frame.

All of this is said about any frame and any machine, linked or not. The case split over the opcodes is made here, once
for instructions that touch nothing but their frame and once for those of the machine; what a run preserves is derived
from the descriptions.
-/
namespace IntegerMachine

namespace Opcode

/-- The number of values that an opcode takes from the stack. A call takes as many as its method wants, which is not
counted here. -/
def takes : Opcode → Nat
  | dup | pop | istore | ifeq | iflt | ireturn | output => 1
  | swap | iadd | isub | iand | ior | ificmpeq => 2
  | _ => 0

/-- The number of values that an opcode puts onto the stack. -/
def gives : Opcode → Nat
  | bipush | ldcw | iload | input | iadd | isub | iand | ior => 1
  | dup | swap => 2
  | _ => 0

end Opcode

/-- The number of values that an instruction takes from the stack: for a call the arguments of the method and the
reference below them. -/
def Program.takes (program : Program) (instruction : Instruction) : Nat :=
  match instruction.opcode, instruction.operands with
  | .invokevirtual, name :: _ => ((program.method? name).map fun method => method.params.length + 1).getD 0
  | opcode, _ => opcode.takes

/-- An instruction that is no call takes what its opcode takes. Only for calls does the number depend on the
program. -/
theorem Program.takes_of_other (program : Program) {instruction : Instruction}
    (other : instruction.opcode ≠ .invokevirtual) : program.takes instruction = instruction.opcode.takes := by
  unfold Program.takes
  split
  · contradiction
  · rfl

namespace Frame

/-- Why an instruction traps, apart from a lack of values on the stack. -/
inductive Refuses (instruction : Instruction) (frame : Frame) : Trap → Prop where
  /-- A name is not found, calls go too deep, or a device fails. -/
  | fault (fault : Fault) (other : fault.kind ∉ [.stackUnderflow, .unsetLocal]) : Refuses instruction frame (.fault fault)
  /-- A local that is to be read is unset. -/
  | unset (name : Text) (slot : Nat) (reads : instruction.opcode ∈ [.iload, .iinc])
      (named : instruction.operands.head? = some name) (found : frame.blueprint.slot? name = some slot)
      (isUnset : frame.locals[slot]? = some none) : Refuses instruction frame (frame.fault .unsetLocal name)
  /-- There is no operand although one is wanted. -/
  | noOperand (wants : 0 < instruction.opcode.operands.count) (absent : instruction.operands = []) :
      Refuses instruction frame (.badIndex 0 0)
  /-- There is no immediate value. -/
  | noImmediate (absent : frame.blueprint.immediates[frame.pc.toNat]? = none) :
      Refuses instruction frame (.badIndex frame.pc.toNat frame.blueprint.immediates.size)
  /-- There is no place for a local. -/
  | noPlace (name : Text) (slot : Nat) (found : frame.blueprint.slot? name = some slot)
      (outside : frame.locals.length ≤ slot) : Refuses instruction frame (.badIndex slot frame.locals.length)

/-- What an instruction makes of its frame when it opens no other one. -/
inductive Effect (program : Program) (instruction : Instruction) (frame : Frame) : Outcome Frame → Prop where
  /-- Values were taken from the stack and others put onto it. -/
  | moved (results : List Cell) (enough : program.takes instruction ≤ frame.stack.length)
      (count : results.length = instruction.opcode.gives) (other : instruction.opcode ∉ [.istore, .invokevirtual]) :
      Effect program instruction frame
        { frame with stack := results ++ frame.stack.drop (program.takes instruction) }.done
  /-- A local was set. -/
  | stored (name : Text) (slot : Nat) (value : Cell) (enough : program.takes instruction ≤ frame.stack.length)
      (stores : instruction.opcode ∈ [.istore, .iinc]) (named : instruction.operands.head? = some name)
      (found : frame.blueprint.slot? name = some slot) (inside : slot < frame.locals.length) :
      Effect program instruction frame
        { frame with
          stack := frame.stack.drop (program.takes instruction)
          locals := frame.locals.set slot (some value) }.done
  /-- Execution goes on at a label. -/
  | jumped (name : Text) (index : Nat) (enough : program.takes instruction ≤ frame.stack.length)
      (jumps : instruction.opcode.isJump = true) (named : instruction.operands.head? = some name)
      (found : frame.blueprint.label? name = some index) :
      Effect program instruction frame
        { frame with stack := frame.stack.drop (program.takes instruction), pc := index }.done
  /-- There were not enough values on the stack. -/
  | starved (short : frame.stack.length < program.takes instruction) : Effect program instruction frame frame.underflow
  /-- The instruction trapped for another reason; values that it has taken before are gone. -/
  | refused (stack : List Cell) (trap : Trap) (reason : frame.Refuses instruction trap) :
      Effect program instruction frame ({ frame with stack }.trapped trap)

namespace Effect

variable {program : Program} {instruction : Instruction} {frame : Frame}

/-- An effect keeps the block and the place to which its frame returns. A frame thus stays an activation of the same
call, whatever it executes. -/
theorem keeps {outcome : Outcome Frame} (effect : Effect program instruction frame outcome) :
    outcome.state.blueprint = frame.blueprint ∧ outcome.state.returnPc = frame.returnPc := by
  cases effect <;> exact ⟨rfl, rfl⟩

/-- An effect keeps the number of locals. -/
theorem keeps_length {outcome : Outcome Frame} (effect : Effect program instruction frame outcome) :
    outcome.state.locals.length = frame.locals.length := by
  cases effect with
  | stored => exact List.length_set
  | moved | jumped | starved | refused => rfl

/-- The values on top of the stack were replaced by others. The numbers on both sides must be those of the opcode,
which is how the table of effects is checked against what is executed. -/
theorem replaced {opcode : Opcode} (known : instruction.opcode = opcode) (taken results : List Cell) {rest : List Cell}
    (stack : frame.stack = taken ++ rest) (takes : opcode.takes = taken.length) (gives : results.length = opcode.gives)
    (other : opcode ∉ [.istore, .invokevirtual]) :
    Effect program instruction frame { frame with stack := results ++ rest }.done := by
  subst known
  have number : program.takes instruction = taken.length := by
    rw [program.takes_of_other fun isCall => other (by simp [isCall]), takes]
  have below : frame.stack.drop (program.takes instruction) = rest := by rw [stack, number, List.drop_left]
  have enough : program.takes instruction ≤ frame.stack.length := by
    rw [stack, number, List.length_append]
    exact Nat.le_add_right _ _
  rw [← below]
  exact .moved results enough gives other

/-- There was nothing on the stack to be taken. Opcodes that take two values have a case with one value as well, which
is treated where they are. -/
theorem unfed {opcode : Opcode} (known : instruction.opcode = opcode) (empty : frame.stack = [])
    (takes : 0 < opcode.takes) (other : opcode ≠ .invokevirtual) :
    Effect program instruction frame frame.underflow := by
  subst known
  apply Effect.starved
  rw [empty, program.takes_of_other other]
  exact takes

/-- What goes on with the first operand, after values were taken from the stack. Without an operand the instruction is
refused, as it can only be in code that was not linked. -/
theorem withOperand (stack : List Cell) {next : Text → Outcome Frame} (wants : 0 < instruction.opcode.operands.count)
    (goesOn : ∀ name, instruction.operands.head? = some name → Effect program instruction frame (next name)) :
    Effect program instruction frame ({ frame with stack }.withOperand instruction next) := by
  unfold Frame.withOperand
  split
  · rename_i absent
    exact .refused stack _ (.noOperand wants absent)
  · rename_i name rest operands
    exact goesOn name (by rw [operands, List.head?_cons])

/-- What goes on with the immediate value of the current instruction, or is refused if there is none at its place. -/
theorem withImmediate {next : Cell → Outcome Frame} (goesOn : ∀ value, Effect program instruction frame (next value)) :
    Effect program instruction frame (frame.withImmediate next) := by
  unfold Frame.withImmediate
  split
  · rename_i absent
    exact .refused frame.stack _ (.noImmediate absent)
  · exact goesOn _

/-- What goes on with the slot of a local, after values were taken from the stack. A name that is not found is a
fault. -/
theorem withSlot (stack : List Cell) {name : Text} {next : Nat → Outcome Frame}
    (goesOn : ∀ slot, frame.blueprint.slot? name = some slot → Effect program instruction frame (next slot)) :
    Effect program instruction frame ({ frame with stack }.withSlot name next) := by
  unfold Frame.withSlot
  split
  · exact .refused stack _ (.fault _ (by simp))
  · rename_i slot found
    exact goesOn slot found

/-- What goes on with the value of a local. It may lack a slot, a place or a value, and each lack has its own
reason. -/
theorem withLocal {name : Text} {next : Cell → Outcome Frame} (reads : instruction.opcode ∈ [.iload, .iinc])
    (named : instruction.operands.head? = some name)
    (goesOn : ∀ value, Effect program instruction frame (next value)) :
    Effect program instruction frame (frame.withLocal name next) := by
  apply withSlot frame.stack
  intro slot found
  split
  · rename_i absent
    exact .refused frame.stack _ (.noPlace name slot found (List.getElem?_eq_none_iff.mp absent))
  · rename_i isUnset
    exact .refused frame.stack _ (.unset name slot reads named found isUnset)
  · exact goesOn _

/-- Storing into a local, after the values that the instruction takes were taken from the stack. -/
theorem store (name : Text) (value : Cell) (enough : program.takes instruction ≤ frame.stack.length)
    (stores : instruction.opcode ∈ [.istore, .iinc]) (named : instruction.operands.head? = some name) :
    Effect program instruction frame
      ({ frame with stack := frame.stack.drop (program.takes instruction) }.store name value) := by
  apply withSlot
  intro slot found
  dsimp only
  split
  · rename_i inside
    exact .stored name slot value enough stores named found inside
  · rename_i outside
    exact .refused _ _ (.noPlace name slot found (Nat.le_of_not_lt outside))

/-- Continuing at the label that the instruction names, after the values that it takes were taken from the stack. A
label that is not found is a fault. -/
theorem jump (enough : program.takes instruction ≤ frame.stack.length) (jumps : instruction.opcode.isJump = true)
    (wants : 0 < instruction.opcode.operands.count) :
    let taken := { frame with stack := frame.stack.drop (program.takes instruction) }
    Effect program instruction frame (taken.withOperand instruction taken.jump) := by
  apply withOperand
  · exact wants
  · intro name named
    unfold Frame.jump
    split
    · exact .refused _ _ (.fault _ (by simp))
    · rename_i index found
      exact .jumped name index enough jumps named found

end Effect

/-- What an instruction that touches nothing but its frame does. The case split over the opcodes is made here; all
that is said later of such instructions goes back to it. -/
theorem perform_effect (program : Program) (instruction : Instruction) (frame : Frame)
    (own : instruction.opcode ∉ [.invokevirtual, .ireturn, .input, .output, .halt]) :
    Effect program instruction frame (frame.perform program instruction) := by
  obtain ⟨opcode, operands, line⟩ := instruction
  obtain ⟨blueprint, pc, returnPc, stack, locals⟩ := frame
  cases opcode with
  | invokevirtual | ireturn | input | output | halt => simp at own
  | label | nop => exact .moved [] (Nat.zero_le _) rfl (by simp)
  | bipush => exact Effect.withImmediate fun value => .moved [value] (Nat.zero_le _) rfl (by simp)
  | iload =>
    refine Effect.withOperand stack (by exact Nat.one_pos) fun name named => ?_
    exact Effect.withLocal (by simp) named fun value => .moved [value] (Nat.zero_le _) rfl (by simp)
  | ldcw =>
    refine Effect.withOperand stack (by exact Nat.one_pos) fun name named => ?_
    cases program.constant? name with
    | none => exact .refused stack _ (.fault _ (by simp))
    | some value => exact .moved [value] (Nat.zero_le _) rfl (by simp)
  | iinc =>
    refine Effect.withOperand stack (by exact Nat.two_pos) fun name named => ?_
    refine Effect.withLocal (by simp) named fun value => Effect.withImmediate fun increment => ?_
    exact Effect.store name (value + increment) (Nat.zero_le _) (by simp) named
  | goto => exact Effect.jump (Nat.zero_le _) rfl Nat.one_pos
  | unassigned code => exact .refused stack _ (.fault _ (by simp))
  | dup =>
    cases stack with
    | nil => exact .starved Nat.one_pos
    | cons top rest => exact .moved [top, top] (Nat.le_add_left 1 _) rfl (by simp)
  | pop =>
    cases stack with
    | nil => exact .starved Nat.one_pos
    | cons top rest => exact .moved [] (Nat.le_add_left 1 _) rfl (by simp)
  | istore =>
    cases stack with
    | nil => exact .starved Nat.one_pos
    | cons top rest =>
      refine Effect.withOperand rest (by exact Nat.one_pos) fun name named => ?_
      exact Effect.store name top (Nat.le_add_left 1 _) (by simp) named
  | ifeq | iflt =>
    cases stack with
    | nil => exact .starved Nat.one_pos
    | cons top rest =>
      unfold perform Frame.branch
      dsimp only
      split
      · exact Effect.jump (Nat.le_add_left 1 _) rfl Nat.one_pos
      · exact .moved [] (Nat.le_add_left 1 _) rfl (by simp)
  | swap =>
    rcases stack with _ | ⟨upper, _ | ⟨lower, rest⟩⟩
    · exact .starved Nat.two_pos
    · exact .starved Nat.one_lt_two
    · exact .moved [lower, upper] (Nat.le_add_left 2 _) rfl (by simp)
  | iadd | isub | iand | ior =>
    rcases stack with _ | ⟨upper, _ | ⟨lower, rest⟩⟩
    · exact .starved Nat.two_pos
    · exact .starved Nat.one_lt_two
    · exact .moved [_] (Nat.le_add_left 2 _) rfl (by simp)
  | ificmpeq =>
    rcases stack with _ | ⟨upper, _ | ⟨lower, rest⟩⟩
    · exact .starved Nat.two_pos
    · exact .starved Nat.one_lt_two
    · unfold perform
      dsimp only
      split
      · exact Effect.jump (Nat.le_add_left 2 _) rfl Nat.one_pos
      · exact .moved [] (Nat.le_add_left 2 _) rfl (by simp)

end Frame

namespace Machine

/-- An instruction has had an effect on the innermost frame, and the frames below it are as before. A return has made
the uppermost value the pending one. -/
structure Stays (machine : Machine) (frame : Frame) (callers : List Frame) (instruction : Instruction)
    (result : Outcome Machine) : Prop where
  effect : ∃ outcome, frame.Effect machine.program instruction outcome ∧ result.trap = outcome.trap ∧
    result.state.frames = outcome.state :: callers
  program : result.state.program = machine.program
  depthLimit : result.state.depthLimit = machine.depthLimit
  pending : result.state.pending =
    if instruction.opcode = .ireturn ∧ result.trap = none then frame.stack.head? else machine.pending

/-- An instruction has called a method: the arguments and the reference below them are gone from the stack of the
caller, and a frame with the arguments is the innermost one. -/
structure Calls (machine : Machine) (frame : Frame) (callers : List Frame) (instruction : Instruction) (name : Text)
    (method : Blueprint) (result : Outcome Machine) : Prop where
  opcode : instruction.opcode = .invokevirtual
  named : instruction.operands.head? = some name
  found : machine.program.method? name = some method
  room : machine.frames.length < machine.depthLimit
  enough : method.params.length < frame.stack.length
  trap : result.trap = none
  frames : result.state.frames =
    Frame.enter method frame.pc (frame.stack.take method.params.length).reverse ::
      { frame with stack := frame.stack.drop (method.params.length + 1) } :: callers
  program : result.state.program = machine.program
  depthLimit : result.state.depthLimit = machine.depthLimit
  pending : result.state.pending = machine.pending

namespace Stays

variable {machine : Machine} {frame : Frame} {callers : List Frame} {instruction : Instruction} {result : Outcome Machine}
  (stays : machine.Stays frame callers instruction result) (completed : result.trap = none)

include stays completed

/-- A call that goes well opens a frame. So if the frames below the innermost one are as before and nothing has
trapped, it was no call. -/
theorem no_call : instruction.opcode ≠ .invokevirtual := by
  intro isCall
  obtain ⟨outcome, effect, same, -⟩ := stays.effect
  rw [completed] at same
  cases effect with
  | moved results enough gives other => simp [isCall] at other
  | stored name slot value enough stores => simp [isCall] at stores
  | jumped name index enough jumps => simp [isCall, Opcode.isJump] at jumps
  | starved | refused => cases same

/-- A return that goes well takes the uppermost value from the stack and makes it the pending one. The frame itself is
left later. -/
theorem returned (isReturn : instruction.opcode = .ireturn) : ∃ value rest, frame.stack = value :: rest ∧
    result.state.frames = { frame with stack := rest } :: callers ∧ result.state.pending = some value := by
  obtain ⟨outcome, effect, same, after⟩ := stays.effect
  rw [completed] at same
  have pending := stays.pending
  rw [if_pos ⟨isReturn, completed⟩] at pending
  have takes : machine.program.takes instruction = 1 := by
    rw [Program.takes_of_other _ (by simp [isReturn]), isReturn]
    rfl
  cases effect with
  | moved results enough count other =>
    rw [isReturn] at count
    obtain rfl := List.eq_nil_of_length_eq_zero count
    rw [takes] at enough after
    obtain ⟨value, rest, stack⟩ := List.exists_cons_of_length_pos enough
    refine ⟨value, rest, stack, ?_, ?_⟩
    · rw [List.nil_append, stack] at after
      exact after
    · rw [pending, stack, List.head?_cons]
  | stored name slot value enough stores => simp [isReturn] at stores
  | jumped name index enough jumps => simp [isReturn, Opcode.isJump] at jumps
  | starved | refused => cases same

end Stays

/-- Going on with an effect on the innermost frame that returns nothing, whatever happened to the devices. The pending
value is that of the machine. -/
theorem continue_stays {machine changed : Machine} {frame : Frame} {callers : List Frame} {instruction : Instruction}
    {outcome : Outcome Frame} (effect : frame.Effect machine.program instruction outcome)
    (other : instruction.opcode ≠ .ireturn ∨ outcome.trap ≠ none)
    (program : changed.program = machine.program) (depthLimit : changed.depthLimit = machine.depthLimit)
    (pending : changed.pending = machine.pending) :
    machine.Stays frame callers instruction (changed.continueWith callers outcome) := by
  refine ⟨⟨outcome, effect, rfl, rfl⟩, program, depthLimit, ?_⟩
  have unreturned : ¬ (instruction.opcode = .ireturn ∧ outcome.trap = none) :=
    fun both => other.elim (fun different => different both.1) (fun trapped => trapped both.2)
  exact pending.trans (if_neg unreturned).symm

/-- A call opens a frame, or traps in its own: because there is no such method, because values are missing, or because
there are as many frames as there may be. -/
theorem invoke_effect (machine : Machine) {frame : Frame} {callers : List Frame} {instruction : Instruction}
    (isCall : instruction.opcode = .invokevirtual) {name : Text} {rest : List Text}
    (operands : instruction.operands = name :: rest) :
    machine.Stays frame callers instruction (machine.invoke frame callers name) ∨
      ∃ method, machine.Calls frame callers instruction name method (machine.invoke frame callers name) := by
  have other : instruction.opcode ≠ .ireturn := by rw [isCall]; decide
  unfold invoke
  split
  · exact .inl (continue_stays (.refused frame.stack _ (.fault _ (by simp))) (.inl other) rfl rfl rfl)
  · rename_i method found
    have takes : machine.program.takes instruction = method.params.length + 1 := by
      rw [Program.takes, isCall, operands]
      dsimp only
      rw [found]
      rfl
    split
    · exact .inl (continue_stays (.refused frame.stack _ (.fault _ (by simp))) (.inl other) rfl rfl rfl)
    · rename_i room
      dsimp only
      split
      · rename_i short
        exact .inl (continue_stays (.starved (by omega)) (.inl other) rfl rfl rfl)
      · rename_i enough
        refine .inr ⟨method, isCall, ?_, found, by omega, by omega, rfl, rfl, rfl, rfl, rfl⟩
        rw [operands, List.head?_cons]

/-- What an instruction in the innermost frame does. Instructions for the machine are treated here, and all others are
left to their frame. -/
theorem execute_in_effect (machine : Machine) (frame : Frame) (callers : List Frame) (instruction : Instruction) :
    machine.Stays frame callers instruction (machine.executeIn frame callers instruction) ∨
      ∃ name method, machine.Calls frame callers instruction name method
        (machine.executeIn frame callers instruction) := by
  unfold executeIn
  split
  · rename_i isCall
    split
    · rename_i absent
      have wants : 0 < instruction.opcode.operands.count := by rw [isCall]; decide
      exact .inl (continue_stays (.refused frame.stack _ (.noOperand wants absent)) (.inr nofun) rfl rfl rfl)
    · rename_i name rest operands
      exact (invoke_effect machine isCall operands).imp_right fun ⟨method, calls⟩ => ⟨name, method, calls⟩
  · rename_i isReturn
    split
    · rename_i empty
      exact .inl (continue_stays (.unfed isReturn empty (by decide) nofun) (.inr nofun) rfl rfl rfl)
    · rename_i value rest stack
      have popped : frame.Effect machine.program instruction { frame with stack := rest }.done :=
        .replaced isReturn [value] [] stack rfl rfl (by decide)
      refine .inl ⟨⟨_, popped, rfl, rfl⟩, rfl, rfl, ?_⟩
      rw [if_pos ⟨isReturn, rfl⟩, stack, List.head?_cons]
      rfl
  · rename_i isInput
    have other : instruction.opcode ≠ .ireturn := by rw [isInput]; decide
    split
    · exact .inl (continue_stays (.refused frame.stack _ (.fault _ (by simp))) (.inl other) rfl rfl rfl)
    · rename_i value input _
      have pushed : frame.Effect machine.program instruction (frame.push (Int32.ofInt value)).done :=
        .replaced isInput [] [_] rfl rfl rfl (by decide)
      exact .inl (continue_stays pushed (.inl other) rfl rfl rfl)
  · rename_i isOutput
    have other : instruction.opcode ≠ .ireturn := by rw [isOutput]; decide
    split
    · rename_i empty
      exact .inl (continue_stays (.unfed isOutput empty (by decide) nofun) (.inl other) rfl rfl rfl)
    · rename_i value rest stack
      dsimp only
      refine .inl (continue_stays ?_ (.inl other) rfl rfl rfl)
      cases (machine.output.put value).1 with
      | none => exact .replaced isOutput [value] [] stack rfl rfl (by decide)
      | some failure => exact .refused rest _ (.fault _ (by simp))
  · rename_i isHalt
    have other : instruction.opcode ≠ .ireturn := by rw [isHalt]; decide
    have idle : frame.Effect machine.program instruction frame.done := .replaced isHalt [] [] rfl rfl rfl (by decide)
    exact .inl (continue_stays idle (.inl other) rfl rfl rfl)
  · rename_i notCall notReturn notInput notOutput notHalt
    refine .inl (continue_stays (frame.perform_effect machine.program instruction ?_) (.inl notReturn) rfl rfl rfl)
    simp only [List.mem_cons, List.not_mem_nil, or_false, not_or]
    exact ⟨notCall, notReturn, notInput, notOutput, notHalt⟩

/-- Recording an instruction changes the journal at most, and nothing that execution depends on. -/
theorem trace_eq (machine : Machine) (frame : Frame) (instruction : Instruction) :
    ∃ journal, machine.trace frame instruction = { machine with journal } := by
  unfold trace
  split
  · exact ⟨_, rfl⟩
  · exact ⟨machine.journal, rfl⟩

/-- Counting an instruction changes the number of instructions at most. A trap is not counted. -/
theorem count_eq (outcome : Outcome Machine) :
    ∃ executed, count outcome = { outcome with state := { outcome.state with executed } } := by
  unfold count
  split
  · exact ⟨outcome.state.executed, rfl⟩
  · rename_i completed
    exact ⟨outcome.state.executed + 1, by rw [completed]⟩

/-- What an instruction does that a machine with frames executes. It stays in its frame or calls, and this is the
inversion from which every invariant of a run is derived. -/
theorem execute_effect {machine : Machine} {frame : Frame} {callers : List Frame}
    (frames : machine.frames = frame :: callers) (instruction : Instruction) :
    machine.Stays frame callers instruction (machine.execute instruction) ∨
      ∃ name method, machine.Calls frame callers instruction name method (machine.execute instruction) := by
  obtain ⟨journal, traced⟩ := machine.trace_eq frame instruction
  obtain ⟨executed, counted⟩ := count_eq ((machine.trace frame instruction).executeIn frame callers instruction)
  rw [execute, frames]
  dsimp only
  rw [counted, traced]
  rcases execute_in_effect { machine with journal } frame callers instruction with stays | ⟨name, method, calls⟩
  · exact .inl ⟨stays.effect, stays.program, stays.depthLimit, stays.pending⟩
  · exact .inr ⟨name, method, calls.opcode, calls.named, calls.found, calls.room, calls.enough, calls.trap, calls.frames,
      calls.program, calls.depthLimit, calls.pending⟩

/-- A machine that leaves a frame has one that is at its end: there is no instruction behind the current one. -/
theorem next_eq_left {machine after : Machine} (left : machine.next = .left after) :
    ∃ frame callers, machine.frames = frame :: callers ∧
      frame.blueprint.code[(frame.pc + 1).toNat]? = none ∧ after = machine.leave frame callers := by
  unfold next at left
  split at left
  · cases left
  · cases left
  · rename_i frame callers _ frames
    dsimp only at left
    split at left
    · rename_i atEnd
      cases left
      exact ⟨frame, callers, frames, atEnd, rfl⟩
    · cases left

/-- A machine that advances to an instruction finds it behind the place of its innermost frame, and changes nothing
but this place. -/
theorem next_eq_ready {machine after : Machine} {instruction : Instruction}
    (advanced : machine.next = .ready after instruction) :
    ∃ frame callers, machine.frames = frame :: callers ∧
      frame.blueprint.code[(frame.pc + 1).toNat]? = some instruction ∧
      after = { machine with frames := { frame with pc := frame.pc + 1 } :: callers } := by
  unfold next at advanced
  split at advanced
  · cases advanced
  · cases advanced
  · rename_i frame callers _ frames
    dsimp only at advanced
    split at advanced
    · cases advanced
    · rename_i stands
      cases advanced
      exact ⟨frame, callers, frames, stands, rfl⟩

end Machine

end IntegerMachine
