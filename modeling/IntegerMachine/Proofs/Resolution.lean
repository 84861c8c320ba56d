import IntegerMachine.Proofs.Building

/-!
# Programs in which every name is found

A program is closed if every instruction finds what it names: its locals have slots, its constants, methods and jump
targets exist, and the literals it takes have values. Nothing is said about how the program came about, so that
closedness is what execution may rely on.

Programs of accepted sources are closed. Analysis resolves names in scopes, with labels apart from all others, and
the machine resolves them in tables of its own; that both find the same is the content of this module.
-/
namespace IntegerMachine

/-- An instruction of a blueprint finds what it names and has the operands that it wants. -/
def Resolves (program : Program) (blueprint : Blueprint) (instruction : Instruction) : Prop :=
  match instruction.opcode, instruction.operands with
  | .iload, name :: _ | .istore, name :: _ | .iinc, name :: _ =>
    ∃ slot, blueprint.slot? name = some slot ∧ slot < blueprint.locals.length
  | .ldcw, name :: _ => ∃ value, program.constant? name = some value
  | .invokevirtual, name :: _ => ∃ method ∈ program.blueprints, program.method? name = some method
  | .goto, name :: _ | .ifeq, name :: _ | .iflt, name :: _ | .ificmpeq, name :: _ =>
    ∃ index, blueprint.label? name = some index
  | .iload, [] | .istore, [] | .iinc, [] | .ldcw, [] | .invokevirtual, []
  | .goto, [] | .ifeq, [] | .iflt, [] | .ificmpeq, [] => False
  | .unassigned _, _ => False
  | _, _ => True

/-- An instruction that uses a local has its name as an operand and finds its slot, which lies among the locals of its
block. -/
theorem Resolves.slot {program : Program} {blueprint : Blueprint} {instruction : Instruction}
    (resolves : Resolves program blueprint instruction) (uses : instruction.opcode ∈ [.iload, .istore, .iinc]) :
    ∃ name rest slot, instruction.operands = name :: rest ∧ blueprint.slot? name = some slot ∧
      slot < blueprint.locals.length := by
  obtain ⟨opcode, operands, line⟩ := instruction
  simp only [List.mem_cons, List.not_mem_nil, or_false] at uses
  rcases uses with rfl | rfl | rfl
  all_goals
    cases operands with
    | nil => exact absurd resolves id
    | cons name rest =>
      obtain ⟨slot, found⟩ := resolves
      exact ⟨name, rest, slot, rfl, found⟩

/-- A jump has the name of a label as an operand and finds its place. This includes jumps that depend on values of the
stack. -/
theorem Resolves.target {program : Program} {blueprint : Blueprint} {instruction : Instruction}
    (resolves : Resolves program blueprint instruction)
    (jumps : instruction.opcode ∈ [.goto, .ifeq, .iflt, .ificmpeq]) :
    ∃ name rest index, instruction.operands = name :: rest ∧ blueprint.label? name = some index := by
  obtain ⟨opcode, operands, line⟩ := instruction
  simp only [List.mem_cons, List.not_mem_nil, or_false] at jumps
  rcases jumps with rfl | rfl | rfl | rfl
  all_goals
    cases operands with
    | nil => exact absurd resolves id
    | cons name rest =>
      obtain ⟨index, found⟩ := resolves
      exact ⟨name, rest, index, rfl, found⟩

/-- A program has a main block, and in each of its blocks every instruction finds what it names and has a value for
its literal. -/
structure Program.Closed (program : Program) : Prop where
  main : program.main?.isSome = true
  immediates : ∀ blueprint ∈ program.blueprints, blueprint.immediates.size = blueprint.code.size
  names : ∀ blueprint ∈ program.blueprints, ∀ instruction ∈ blueprint.code,
    Resolves program blueprint instruction

section Accepted

variable {given : Token → Prop} {tree : Tree} (grammatical : Source.Grammatical given tree)
  (wellFormed : tree.WellFormed) {block : Block} (member : block ∈ tree.blocks)

include grammatical member

/-- A label of the block is found, since the names of its labels are those in the table that linking makes. -/
theorem index_of_label (name : Text) (label : name.fold ∈ block.labelNames) :
    ∃ index, block.linked.label? name = some index := by
  rw [← label_table_names grammatical member, ← lookup_is_some_iff] at label
  exact Option.isSome_iff_exists.mp label

include wellFormed

/-- A local that the block declares has a slot. Declarations and slots are both compared by folded names. -/
theorem slot_of_declared (name : Text) (declared : block.Declares name) :
    ∃ slot, block.linked.slot? name = some slot ∧ slot < block.linked.locals.length := by
  rw [Block.Declares, ← block.local_names_eq] at declared
  obtain ⟨listed, inLocals, same⟩ := List.mem_map.mp declared
  obtain ⟨slot, found⟩ := List.mem_iff_getElem?.mp inLocals
  have linkable := block_linkable grammatical wellFormed member
  exact ⟨slot, (linkable.slot_iff block.name name slot).mpr ⟨listed, found, same⟩,
    (List.getElem?_eq_some_iff.mp found).1⟩

/-- Every statement of an accepted tree finds what it names in the program. The rule of its opcode says that the name
is declared, and the hypotheses say that the program has what the tree declares. -/
theorem statement_resolves (program : Program)
    (constants : ∀ name : Text, name.fold ∈ tree.constantNames → ∃ value, program.constant? name = some value)
    (methods : ∀ name : Text, name.fold ∈ tree.methodNames →
      ∃ method ∈ program.blueprints, program.method? name = some method)
    (statement : Statement) (listed : statement ∈ block.statements) :
    Resolves program block.linked statement.build := by
  cases statement with
  | label position name => trivial
  | instruction position opcode operands =>
    obtain ⟨assigned, count⟩ := grammatical.instruction_shape block member position opcode operands listed
    obtain ⟨before, after, split⟩ := List.append_of_mem listed
    have has : block.Has before opcode operands := ⟨position, after, split⟩
    have rules := wellFormed.blocks block member
    have slot := slot_of_declared grammatical wellFormed member
    have index := index_of_label grammatical member
    cases opcode with
    | unassigned code => exact absurd (Opcode.valid_of_instruction assigned).1 nofun
    | label | bipush | dup | halt | iadd | iand | input | ior | ireturn | isub | nop | output | pop | swap => trivial
    | iload =>
      obtain ⟨name, rfl⟩ := List.length_eq_one_iff.mp count
      exact slot name.name (rules.loaded before name has).1
    | istore =>
      obtain ⟨name, rfl⟩ := List.length_eq_one_iff.mp count
      exact slot name.name (rules.stored before name has)
    | iinc =>
      obtain ⟨name, rest, rfl⟩ := List.exists_cons_of_length_eq_add_one count
      obtain ⟨literal, rfl⟩ := List.length_eq_one_iff.mp (Nat.succ.inj count)
      exact slot name.name (rules.increased before name literal has).1
    | ldcw =>
      obtain ⟨name, rfl⟩ := List.length_eq_one_iff.mp count
      exact constants name.name (rules.constants before name has).2
    | invokevirtual =>
      obtain ⟨name, rfl⟩ := List.length_eq_one_iff.mp count
      exact methods name.name (rules.methods before name has).2
    | goto | ifeq | iflt | ificmpeq =>
      obtain ⟨name, rfl⟩ := List.length_eq_one_iff.mp count
      exact index name.name (rules.targets before _ name rfl has)

end Accepted

/-- The program of an accepted tree is closed. Locals and labels are found in the block, and constants and methods by
the tables of the program. -/
theorem tree_program_closed {given : Token → Prop} {tree : Tree} (grammatical : Source.Grammatical given tree)
    (wellFormed : tree.WellFormed) (program : Program) (built : tree.build = .ok program) : program.Closed := by
  obtain ⟨main, blocks, linked, _⟩ := tree_build grammatical wellFormed
  obtain rfl := Except.ok.inj (linked.symm.trans built)
  have blueprints := Tree.linked_blueprints blocks
  have constants (name : Text) (declared : name.fold ∈ tree.constantNames) :
      ∃ value, (tree.linked main).constant? name = some value := by
    obtain ⟨constant, listed, same⟩ := List.mem_map.mp declared
    exact ⟨_, (constants_mirror wellFormed main name _).mpr
      ⟨constant, listed, same, (wellFormed.values constant listed).parse⟩⟩
  have methods (name : Text) (declared : name.fold ∈ tree.methodNames) :
      ∃ method ∈ (tree.linked main).blueprints, (tree.linked main).method? name = some method := by
    obtain ⟨method, listed, same⟩ := List.mem_map.mp declared
    refine ⟨method.linked, ?_, (methods_mirror wellFormed main name _).mpr ⟨method, listed, same, rfl⟩⟩
    exact List.mem_cons_of_mem _ (List.mem_map.mpr ⟨method, listed, rfl⟩)
  refine ⟨rfl, fun blueprint member => ?_, fun blueprint member instruction stands => ?_⟩
  · rw [blueprints] at member
    obtain ⟨block, _, rfl⟩ := List.mem_map.mp member
    exact (List.size_toArray.trans (List.length_map _)).trans List.size_toArray.symm
  · rw [blueprints] at member
    obtain ⟨block, listed, rfl⟩ := List.mem_map.mp member
    obtain ⟨statement, inBlock, rfl⟩ := List.mem_map.mp (List.mem_toArray.mp stands)
    exact statement_resolves grammatical wellFormed listed _ constants methods statement inBlock

/-- The program of every source that compiles is closed. From here on analysis plays no part, and faults for want of a
name are excluded by this alone. -/
theorem Source.compile_closed (source : Source) (file : Text) (program : Program)
    (compiled : (source.compile file).2 = .ok program) : program.Closed := by
  obtain ⟨grammatical, wellFormed, built⟩ := source.compile_tree file program compiled
  exact tree_program_closed grammatical wellFormed program built

end IntegerMachine
