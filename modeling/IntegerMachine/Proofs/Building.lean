import IntegerMachine.Build
import IntegerMachine.Proofs.Acceptance
import IntegerMachine.Proofs.Linking

/-!
# Building accepted trees

Linking checks once more what analysis has checked: that locals, labels and methods have different names, that
instructions have the operands that they want, and that literals are literals. A tree that analysis accepts passes
all of it, so that building an accepted tree always gives a program.

The program mirrors the tree: its blocks, their statements and their names are those of the tree, in the same order,
and each table finds exactly what the tree declares. The order in which constants are entered does not matter.
-/
namespace IntegerMachine

/-- A blueprint has the name, the locals and the statements of a block, and finds its labels and locals. -/
structure Blueprint.Mirrors (blueprint : Blueprint) (block : Block) : Prop where
  name : blueprint.name = block.name
  params : blueprint.params = block.params.map Ident.name
  vars : blueprint.vars = (block.vars.flatMap VarBlock.names).map Ident.name
  size : blueprint.code.size = block.statements.length
  label : ∀ (index : Nat) position name, block.statements[index]? = some (.label position name) →
    blueprint.code[index]? = some { opcode := .label, operands := [name], line := position.line }
  instruction : ∀ (index : Nat) position opcode operands,
    block.statements[index]? = some (.instruction position opcode operands) →
      blueprint.code[index]? = some { opcode, operands := operands.map Ident.name, line := position.line }
  labels : ∀ name index, blueprint.label? name = some index ↔
    ∃ position label, block.statements[index]? = some (.label position label) ∧ label.fold = name.fold
  slots : ∀ name slot, blueprint.slot? name = some slot ↔
    ∃ declared, blueprint.locals[slot]? = some declared ∧ declared.fold = name.fold

/-- A program has the blocks of a tree in their order, finds its methods and constants, and does not depend on the
order in which constants are entered. -/
structure Program.Mirrors (program : Program) (tree : Tree) : Prop where
  count : program.blueprints.length = tree.blocks.length
  blocks : ∀ (index : Nat) block, tree.blocks[index]? = some block →
    ∃ blueprint, program.blueprints[index]? = some blueprint ∧ blueprint.Mirrors block
  methods : ∀ name blueprint, program.method? name = some blueprint ↔
    ∃ (index : Nat) (method : Block), tree.blocks[index]? = some method ∧ method.isMain = false ∧ method.name.fold = name.fold ∧
      program.blueprints[index]? = some blueprint
  constants : ∀ name value, program.constant? name = some value ↔
    ∃ constant ∈ tree.constants, constant.name.fold = name.fold ∧ Literal.parse constant.value = .ok value
  anyOrder : ∃ pool, tree.constants.mapM ConstantDecl.build = .ok pool ∧
    ∀ order, order.Perm pool → Program.link order program.blueprints = .ok program

/-! ## Blocks -/

namespace Block

/-- The code of a block. -/
def code (block : Block) : List Instruction := block.statements.map Statement.build

/-- The blueprint of a block that can be linked. -/
def linked (block : Block) : Blueprint :=
  .linked block.name (block.params.map Ident.name) (block.variables.map Ident.name) block.code

end Block

/-- The folded names of the locals of a block, in the order of their slots: parameters come before variables. -/
theorem Block.local_names_eq (block : Block) :
    (block.params.map Ident.name ++ block.variables.map Ident.name).map Text.fold = block.localNames := by
  rw [List.map_append, List.map_map, List.map_map]
  rfl

section Accepted

variable {given : Token → Prop} {tree : Tree} (grammatical : Source.Grammatical given tree)
  (wellFormed : tree.WellFormed) {block : Block} (member : block ∈ tree.blocks)

include grammatical member

/-- The table of labels has the names of the labels of the block: no instruction is taken for a label, as the parser
gives none the opcode of labels. -/
theorem label_table_names : (Blueprint.labelsFrom 0 block.code).map Prod.fst = block.labelNames := by
  have shape := grammatical.instruction_shape block member
  rw [Blueprint.labels_from_names, Block.code, Block.labelNames]
  generalize block.statements = statements at shape
  induction statements with
  | nil => rfl
  | cons statement rest ih =>
    have later := ih fun position opcode operands listed => shape position opcode operands (List.mem_cons_of_mem _ listed)
    cases statement with
    | label position name =>
      rw [List.map_cons, List.filter_cons_of_pos (by simp [Statement.build]), List.map_cons, later]
      rfl
    | instruction position opcode operands =>
      have other := (Opcode.valid_of_instruction (shape position opcode operands List.mem_cons_self).1).2
      rw [List.map_cons, List.filter_cons_of_neg (by simp [Statement.build, other]), later]
      rfl

include wellFormed

/-- The statements of an accepted tree can be linked. Literals were checked by analysis, and the number of operands by
the parser. -/
theorem statement_sound (statement : Statement) (listed : statement ∈ block.statements) :
    Blueprint.Sound statement.build := by
  cases statement with
  | label position name => exact ⟨rfl, rfl, nofun⟩
  | instruction position opcode operands =>
    obtain ⟨assigned, count⟩ := grammatical.instruction_shape block member position opcode operands listed
    obtain ⟨before, after, split⟩ := List.append_of_mem listed
    have has : block.Has before opcode operands := ⟨position, after, split⟩
    have rules := wellFormed.blocks block member
    refine ⟨(Opcode.valid_of_instruction assigned).1, by simpa [Statement.build] using count, fun takes => ?_⟩
    cases opcode with
    | bipush =>
      obtain ⟨literal, rfl⟩ := List.length_eq_one_iff.mp count
      exact rules.pushed before literal has
    | iinc =>
      obtain ⟨name, rest, rfl⟩ := List.exists_cons_of_length_eq_add_one count
      obtain ⟨literal, rfl⟩ := List.length_eq_one_iff.mp (Nat.succ.inj count)
      exact rules.added before name literal has
    | _ => cases takes

/-- The blocks of an accepted tree can be linked. Each of the conditions that linking checks is one of the rules for
blocks. -/
theorem block_linkable :
    Blueprint.Linkable (block.params.map Ident.name ++ block.variables.map Ident.name) block.code := by
  have rules := wellFormed.blocks block member
  refine ⟨by rw [block.local_names_eq]; exact rules.locals, ?_, ?_⟩
  · intro instruction listed
    obtain ⟨statement, inBlock, rfl⟩ := List.mem_map.mp listed
    exact statement_sound grammatical wellFormed member statement inBlock
  · rw [label_table_names grammatical member]
    exact rules.labels

/-- The blocks of an accepted tree are built, and each is built to the blueprint that is defined by its contents
alone. -/
theorem block_build : block.build = .ok block.linked := by
  have built : Blueprint.link block.name (block.params.map Ident.name) (block.variables.map Ident.name)
      (block.statements.map Statement.build) = .ok block.linked :=
    (Blueprint.link_ok_iff _ _ _ _ _).mpr ⟨block_linkable grammatical wellFormed member, rfl⟩
  rw [Block.build, built]

/-- The blueprint of a block of an accepted tree mirrors it. Labels and locals are found by folded names; as these are
different, each name finds the one that is declared with it. -/
theorem linked_mirrors : block.linked.Mirrors block := by
  have linkable := block_linkable grammatical wellFormed member
  have shape := grammatical.instruction_shape block member
  have coded (index : Nat) : block.linked.code[index]? = (block.statements[index]?).map Statement.build := by
    rw [← List.getElem?_map]
    exact List.getElem?_toArray
  refine ⟨rfl, rfl, rfl, ?_, ?_, ?_, ?_, linkable.slot_iff block.name⟩
  · exact List.size_toArray.trans (List.length_map _)
  · intro index position name found
    rw [coded, found]
    rfl
  · intro index position opcode operands found
    rw [coded, found]
    rfl
  · intro name index
    refine (linkable.label_iff block.name name index).trans ?_
    rw [Block.code, List.getElem?_map]
    constructor
    · rintro ⟨instruction, found, isLabel, named⟩
      obtain ⟨statement, stands, rfl⟩ := Option.map_eq_some_iff.mp found
      cases statement with
      | label position label => exact ⟨position, label, stands, named⟩
      | instruction position opcode operands =>
        have assigned := (shape position opcode operands (List.mem_of_getElem? stands)).1
        exact absurd isLabel (Opcode.valid_of_instruction assigned).2
    · rintro ⟨position, label, stands, named⟩
      exact ⟨_, Option.map_eq_some_iff.mpr ⟨_, stands, rfl⟩, rfl, named⟩

end Accepted

/-! ## Trees -/

/-- The names and values of the constants of a tree. -/
def Tree.pool (tree : Tree) : List (Text × Cell) :=
  tree.constants.map fun constant => (constant.name, literalValue constant.value)

/-- The program of a tree with the given main block. -/
def Tree.linked (tree : Tree) (main : Block) : Program :=
  .linked tree.pool main.linked (tree.methods.map Block.linked)

/-- The blueprints of the program are those of the blocks, with the main block in front. -/
theorem Tree.linked_blueprints {tree : Tree} {main : Block} (blocks : tree.blocks = main :: tree.methods) :
    (tree.linked main).blueprints = tree.blocks.map Block.linked := by
  rw [blocks]
  rfl

/-- The folded names of the pool are those of the constants, in the order of the tree. -/
theorem Tree.pool_names (tree : Tree) :
    (tree.pool.map fun constant => (constant.1.fold, constant.2)).map Prod.fst = tree.constantNames := by
  rw [Tree.pool, List.map_map, List.map_map]
  rfl

/-- The constants of an accepted tree have values, since their texts are literals. -/
theorem pool_build {tree : Tree} (wellFormed : tree.WellFormed) :
    tree.constants.mapM ConstantDecl.build = .ok tree.pool := by
  refine map_ok _ fun constant member => ?_
  rw [ConstantDecl.build, (wellFormed.values constant member).parse]

/-- The constants of an accepted tree are found with their values. Names are compared in folded form, and no two
constants have the same. -/
theorem constants_mirror {tree : Tree} (wellFormed : tree.WellFormed) (main : Block) (name : Text) (value : Cell) :
    (tree.linked main).constant? name = some value ↔
      ∃ constant ∈ tree.constants, constant.name.fold = name.fold ∧ Literal.parse constant.value = .ok value := by
  obtain ⟨distinct, _⟩ := List.nodup_append.mp wellFormed.globals
  rw [← tree.pool_names] at distinct
  rw [Program.constant?, Tree.linked, Program.linked, Constants.lookup_of_list distinct, lookup_iff_mem distinct,
    Tree.pool, List.map_map, List.mem_map]
  refine exists_congr fun constant => and_congr_right fun member => ?_
  rw [(wellFormed.values constant member).parse, Except.ok.injEq]
  rw [Function.comp_apply, Prod.mk.injEq]

/-- The methods of an accepted tree are found with their blueprints. The main block is not among them, although a
method may be called like it. -/
theorem methods_mirror {tree : Tree} (wellFormed : tree.WellFormed) (main : Block) (name : Text)
    (blueprint : Blueprint) :
    (tree.linked main).method? name = some blueprint ↔
      ∃ method ∈ tree.methods, method.name.fold = name.fold ∧ method.linked = blueprint := by
  obtain ⟨_, distinct, _⟩ := List.nodup_append.mp wellFormed.globals
  have names : (Program.methodTable (tree.methods.map Block.linked)).map Prod.fst = tree.methodNames := by
    rw [Program.methodTable, List.map_map, List.map_map]
    rfl
  rw [← names] at distinct
  rw [Program.method?, Tree.linked, Program.linked, lookup_iff_mem distinct, Program.methodTable, List.map_map,
    List.mem_map]
  refine exists_congr fun method => and_congr_right fun _ => ?_
  rw [Function.comp_apply, Prod.mk.injEq]
  exact Iff.rfl

section Accepted

variable {given : Token → Prop} {tree : Tree} (grammatical : Source.Grammatical given tree)
  (wellFormed : tree.WellFormed)

include grammatical wellFormed

/-- An accepted tree with any order of its constants is linked to one program, which is the one that is built.
Constants are sorted by their names when they are entered, and so their order is lost. -/
theorem tree_build : ∃ main, tree.blocks = main :: tree.methods ∧ tree.build = .ok (tree.linked main) ∧
    ∀ order, order.Perm tree.pool →
      Program.link order (tree.blocks.map Block.linked) = .ok (tree.linked main) := by
  obtain ⟨main, known, blocks⟩ := grammatical.blocks_eq
  obtain ⟨distinctConstants, distinctMethods, _⟩ := List.nodup_append.mp wellFormed.globals
  have built : tree.blocks.mapM Block.build = .ok (tree.blocks.map Block.linked) :=
    map_ok _ fun block member => block_build grammatical wellFormed member
  have link (order : List (Text × Cell)) (reordered : order.Perm tree.pool) :
      Program.link order (tree.blocks.map Block.linked) = .ok (tree.linked main) := by
    refine (Program.link_ok_iff _ _ _).mpr ⟨main.linked, tree.methods.map Block.linked, by rw [blocks]; rfl, ?_, ?_⟩
    · rw [List.map_map]
      exact distinctMethods
    · rw [← tree.pool_names] at distinctConstants
      rw [Tree.linked, Program.linked, Program.linked, Constants.of_list_perm distinctConstants (reordered.map _)]
  refine ⟨main, blocks, ?_, link⟩
  simp only [Tree.build, known, pool_build wellFormed, built, bind, Except.bind]
  simp only [link tree.pool (List.Perm.refl _)]
  rfl

/-- An accepted tree is built, and its program mirrors it. The two sides are compared place by place, block by block
and name by name. -/
theorem tree_build_mirrors : ∃ program, tree.build = .ok program ∧ program.Mirrors tree := by
  obtain ⟨main, blocks, built, anyOrder⟩ := tree_build grammatical wellFormed
  have blueprints := Tree.linked_blueprints blocks
  refine ⟨_, built, ?_, ?_, ?_, constants_mirror wellFormed main, tree.pool, pool_build wellFormed, ?_⟩
  · rw [blueprints, List.length_map]
  · intro index block found
    refine ⟨block.linked, ?_, linked_mirrors grammatical wellFormed (List.mem_of_getElem? found)⟩
    rw [blueprints, List.getElem?_map, found]
    rfl
  · intro name blueprint
    rw [methods_mirror wellFormed, blueprints]
    constructor
    · rintro ⟨method, member, named, rfl⟩
      have listed : method ∈ tree.blocks := List.mem_append_right _ member
      obtain ⟨index, found⟩ := List.mem_iff_getElem?.mp listed
      refine ⟨index, method, found, (grammatical.contents.methods method member).1, named, ?_⟩
      rw [List.getElem?_map, found]
      rfl
    · rintro ⟨index, method, found, notMain, named, same⟩
      rw [List.getElem?_map, found] at same
      have member : method ∈ tree.methods := by
        rw [← grammatical.methods_eq]
        exact List.mem_filter.mpr ⟨List.mem_of_getElem? found, by rw [notMain]; rfl⟩
      exact ⟨method, member, named, Option.some.inj same⟩
  · rw [blueprints]
    exact anyOrder

end Accepted

/-! ## Sources -/

/-- A source is not refused exactly if it has no syntax errors and analysis reports no errors. Warnings do not
matter. -/
theorem Review.accepted_iff (review : Review) :
    review.refusal? = none ↔ review.syntaxErrors = [] ∧ review.errors = [] := by
  rw [Review.refusal?]
  cases review.syntaxErrors with
  | cons => simp
  | nil => cases review.errors <;> simp

/-- A review has no errors exactly if there are no syntax errors and analysis reports no errors about the tree. A tree
with syntax errors is not analysed at all. -/
theorem Source.review_faultless_iff (source : Source) (file : Text) :
    (source.review file).syntaxErrors = [] ∧ (source.review file).errors = [] ↔
      (source.parse file).2 = [] ∧ (Analysis.check (source.parse file).1).errors = [] := by
  refine and_congr_right fun noSyntaxErrors => ?_
  have faultless : (source.parse file).2.isEmpty = true := List.isEmpty_iff.mpr noSyntaxErrors
  have analysed : (source.review file).analysis = some (Analysis.check (source.parse file).1) := if_pos faultless
  rw [Review.errors, analysed]
  exact Iff.rfl

/-- A source without errors was read to a tree without syntax errors that is well-formed. From here on nothing has to
be known about how the source was read or checked. -/
theorem Source.review_accepted (source : Source) (file : Text) (noSyntaxErrors : (source.review file).syntaxErrors = [])
    (noErrors : (source.review file).errors = []) :
    Source.Grammatical source.Supplies (source.review file).tree ∧ (source.review file).tree.WellFormed := by
  obtain ⟨faultless, accepted⟩ := (source.review_faultless_iff file).mp ⟨noSyntaxErrors, noErrors⟩
  have grammatical := source.parse_grammatical file _ (source.parse_eq file faultless)
  exact ⟨grammatical, (Analysis.errors_nil_iff grammatical).mp accepted⟩

/-- A review gives a program exactly if it has no errors and the tree gives it. Building itself may still fail on a
tree, but not on one without errors. -/
theorem Review.build_ok_iff (review : Review) (program : Program) : review.build = .ok program ↔
    (review.syntaxErrors = [] ∧ review.errors = []) ∧ review.tree.build = .ok program := by
  rw [Review.build, ← review.accepted_iff]
  cases review.refusal? with
  | some refusal => simp
  | none => cases review.tree.build <;> simp

/-- A source that compiles was read to a tree without syntax errors that is well-formed, and the program is that of
the tree. -/
theorem Source.compile_tree (source : Source) (file : Text) (program : Program)
    (compiled : (source.compile file).2 = .ok program) :
    Source.Grammatical source.Supplies (source.review file).tree ∧ (source.review file).tree.WellFormed ∧
      (source.review file).tree.build = .ok program := by
  obtain ⟨⟨noSyntaxErrors, noErrors⟩, built⟩ := (Review.build_ok_iff _ _).mp compiled
  obtain ⟨grammatical, wellFormed⟩ := source.review_accepted file noSyntaxErrors noErrors
  exact ⟨grammatical, wellFormed, built⟩

/-- The program of a source is linked, so that whatever holds of linked programs holds of compiled ones. -/
theorem Source.compile_linked (source : Source) (file : Text) (program : Program)
    (compiled : (source.compile file).2 = .ok program) : program.Linked := by
  obtain ⟨grammatical, wellFormed, built⟩ := source.compile_tree file program compiled
  obtain ⟨main, _, builtMain, link⟩ := tree_build grammatical wellFormed
  cases built.symm.trans builtMain
  refine ⟨_, _, ?_, link _ (.refl _)⟩
  rw [List.forall_mem_map]
  intro block member
  exact ⟨_, _, _, _, (Blueprint.link_ok_iff _ _ _ _ _).mpr ⟨block_linkable grammatical wellFormed member, rfl⟩⟩

/-- Every source without syntax errors and errors is built, and its program mirrors its tree. So there is no source
that passes analysis and then fails to link, and linking loses nothing that analysis has looked at. -/
theorem accepted_source_builds_mirror (source : Source) (file : Text)
    (noSyntaxErrors : (source.review file).syntaxErrors = []) (noErrors : (source.review file).errors = []) :
    ∃ program, (source.review file).build = .ok program ∧ program.Mirrors (source.review file).tree := by
  obtain ⟨grammatical, wellFormed⟩ := source.review_accepted file noSyntaxErrors noErrors
  obtain ⟨program, built, mirrors⟩ := tree_build_mirrors grammatical wellFormed
  exact ⟨program, (Review.build_ok_iff _ _).mpr ⟨⟨noSyntaxErrors, noErrors⟩, built⟩, mirrors⟩

/-- The sample is built, and its program mirrors its tree. -/
theorem sample_builds_mirror :
    (Analysis.sample.review "s").syntaxErrors = [] ∧ (Analysis.sample.review "s").errors = [] ∧
      ∃ program, (Analysis.sample.review "s").build = .ok program ∧
        program.Mirrors (Analysis.sample.review "s").tree := by
  obtain ⟨noSyntaxErrors, noErrors⟩ := (Analysis.sample.review_faultless_iff "s").mpr Analysis.sample_accepted
  exact ⟨noSyntaxErrors, noErrors, accepted_source_builds_mirror Analysis.sample "s" noSyntaxErrors noErrors⟩

end IntegerMachine
