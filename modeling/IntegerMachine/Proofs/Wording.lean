import IntegerMachine.Proofs.Building
import Mathlib.Data.List.Forall2

/-!
# What trees say without their places

Two blocks that say the same at different places keep the same rules, but for the rule that no statement stands on a
line before a declaration block, and are linked to blueprints that differ in their lines at most. Declarations may be
divided among blocks of declarations in different ways.
-/
namespace IntegerMachine

/-- What a statement says: a label, or an instruction with the texts of its operands. -/
inductive Wording where
  | label (name : Text)
  | instruction (opcode : Opcode) (operands : List Text)

namespace Wording

/-- The folded name of a label. -/
def labelName? : Wording → Option Text
  | label name => some name.fold
  | instruction .. => none

/-- The instruction that is built from a statement, without a line. -/
def build : Wording → Instruction
  | label name => { opcode := .label, operands := [name], line := 0 }
  | instruction opcode operands => { opcode, operands, line := 0 }

end Wording

namespace Statement

/-- What a statement says. -/
def wording : Statement → Wording
  | label _ name => .label name
  | instruction _ opcode operands => .instruction opcode (operands.map Ident.name)

/-- A statement that says what an instruction says is one. Its position is not known, and of its operands only the
texts are. -/
theorem instruction_of_wording {statement : Statement} {opcode : Opcode} {texts : List Text}
    (worded : statement.wording = .instruction opcode texts) :
    ∃ position operands, statement = .instruction position opcode operands ∧ operands.map Ident.name = texts := by
  cases statement with
  | label position name => cases worded
  | instruction position other operands =>
    cases worded
    exact ⟨position, operands, rfl, rfl⟩

end Statement

/-- An instruction without its line. -/
def Instruction.unplaced (instruction : Instruction) : Instruction := { instruction with line := 0 }

/-- A blueprint without the lines of its instructions. -/
def Blueprint.unplaced (blueprint : Blueprint) : Blueprint :=
  { blueprint with code := blueprint.code.map Instruction.unplaced }

/-- A program without the lines of its instructions. -/
def Program.unplaced (program : Program) : Program :=
  { program with
    blueprints := program.blueprints.map Blueprint.unplaced
    methods := program.methods.map fun method => (method.1, method.2.unplaced) }

/-- Two blocks say the same. -/
structure Block.ReadsLike (one other : Block) : Prop where
  name : one.name = other.name
  params : one.params.map Ident.name = other.params.map Ident.name
  vars : one.variables.map Ident.name = other.variables.map Ident.name
  statements : one.statements.map Statement.wording = other.statements.map Statement.wording

/-- No statement stands on a line before a declaration block. -/
def Block.Placed (block : Block) : Prop :=
  ∀ declared ∈ block.vars, ∀ statement ∈ block.statements, declared.position.line ≤ statement.position.line

namespace Block.ReadsLike

variable {one other : Block} (alike : one.ReadsLike other)

include alike

/-- Saying the same goes both ways. The rules are shown to carry over in one direction only, and hold in the other one
by this. -/
theorem symm : other.ReadsLike one :=
  ⟨alike.name.symm, alike.params.symm, alike.vars.symm, alike.statements.symm⟩

/-! ## Rules -/

/-- Blocks that say the same have the same folded names of parameters, in the same order. -/
theorem param_names : other.paramNames = one.paramNames := by
  have names (block : Block) : block.paramNames = (block.params.map Ident.name).map Text.fold := by
    rw [Block.paramNames, List.map_map]
    rfl
  rw [names, names, alike.params]

/-- Blocks that say the same have the same folded names of locals. How their variables are divided among declaration
blocks does not matter. -/
theorem local_names : other.localNames = one.localNames := by
  rw [← Block.local_names_eq, ← Block.local_names_eq, alike.params, alike.vars]

/-- Blocks that say the same have the same folded names of labels. These can be told from what the statements say. -/
theorem label_names : other.labelNames = one.labelNames := by
  have names (block : Block) :
      block.labelNames = (block.statements.map Statement.wording).filterMap Wording.labelName? := by
    rw [Block.labelNames, List.filterMap_map]
    refine congrArg (fun named => block.statements.filterMap named) (funext fun statement => ?_)
    cases statement <;> rfl
  rw [names, names, alike.statements]

/-- Blocks that say the same declare the same names. -/
theorem declares {name : Text} : other.Declares name ↔ one.Declares name := by
  rw [Block.Declares, Block.Declares, alike.local_names]

/-- An instruction of the one block is found in the other one, behind statements that say the same. Its operands have
the same texts, at other places perhaps. -/
theorem has {before : List Statement} {opcode : Opcode} {operands : List Ident}
    (present : other.Has before opcode operands) :
    ∃ earlier names, one.Has earlier opcode names ∧ earlier.map Statement.wording = before.map Statement.wording ∧
      names.map Ident.name = operands.map Ident.name := by
  obtain ⟨position, after, split⟩ := present
  have same := alike.statements
  rw [split, List.map_append, List.map_cons] at same
  obtain ⟨earlier, rest, statements, before, others⟩ := List.map_eq_append_iff.mp same
  obtain ⟨statement, later, rfl, worded, _⟩ := List.map_eq_cons_iff.mp others
  obtain ⟨place, names, rfl, texts⟩ := Statement.instruction_of_wording worded
  exact ⟨earlier, names, ⟨place, later, statements⟩, before, texts⟩

/-- The same for an instruction with one operand, which is the form that most rules have. -/
theorem has_one {before : List Statement} {opcode : Opcode} {operand : Ident}
    (present : other.Has before opcode [operand]) :
    ∃ earlier name, one.Has earlier opcode [name] ∧ earlier.map Statement.wording = before.map Statement.wording ∧
      name.name = operand.name := by
  obtain ⟨earlier, names, has, before, texts⟩ := alike.has present
  obtain ⟨name, rfl, text⟩ := List.map_eq_singleton_iff.mp texts
  exact ⟨earlier, name, has, before, text⟩

/-- The same for an instruction with two operands, of which the second is a literal. -/
theorem has_two {before : List Statement} {opcode : Opcode} {first second : Ident}
    (present : other.Has before opcode [first, second]) :
    ∃ earlier name literal, one.Has earlier opcode [name, literal] ∧
      earlier.map Statement.wording = before.map Statement.wording ∧ name.name = first.name ∧
      literal.name = second.name := by
  obtain ⟨earlier, names, has, before, texts⟩ := alike.has present
  obtain ⟨name, rest, rfl, text, others⟩ := List.map_eq_cons_iff.mp texts
  obtain ⟨literal, rfl, value⟩ := List.map_eq_singleton_iff.mp others
  exact ⟨earlier, name, literal, has, before, text, value⟩

/-- What has a value behind statements has one behind statements that say the same. A store among the ones is a store
among the others, with a target of the same name. -/
theorem initialized {earlier before : List Statement}
    (same : earlier.map Statement.wording = before.map Statement.wording) {name : Text}
    (valued : one.Initialized earlier name) : other.Initialized before name := by
  rcases valued with param | ⟨position, target, stored, named⟩
  · left
    rw [alike.param_names]
    exact param
  · right
    have said := List.mem_map_of_mem (f := Statement.wording) stored
    rw [same] at said
    obtain ⟨statement, member, worded⟩ := List.mem_map.mp said
    obtain ⟨place, operands, rfl, texts⟩ := Statement.instruction_of_wording worded
    obtain ⟨operand, rfl, text⟩ := List.map_eq_singleton_iff.mp texts
    exact ⟨place, operand, member, by rw [text, named]⟩

/-- A block that says the same keeps the rules of a tree that knows the same names, if its declarations come first.
That rule alone is about places, and so has to be asked for. -/
theorem well_formed {tree again : Tree} (wellFormed : one.WellFormed tree)
    (constantNames : ∀ name ∈ tree.constantNames, name ∈ again.constantNames)
    (methodNames : again.methodNames = tree.methodNames) (placed : other.Placed) : other.WellFormed again where
  locals := by
    rw [alike.local_names]
    exact wellFormed.locals
  labels := by
    rw [alike.label_names]
    exact wellFormed.labels
  placement := placed
  pushed before literal present := by
    obtain ⟨earlier, name, has, _, same⟩ := alike.has_one present
    rw [← same]
    exact wellFormed.pushed earlier name has
  added before name literal present := by
    obtain ⟨earlier, _, value, has, _, _, same⟩ := alike.has_two present
    rw [← same]
    exact wellFormed.added earlier _ value has
  loaded before name present := by
    obtain ⟨earlier, _, has, said, same⟩ := alike.has_one present
    obtain ⟨declared, valued⟩ := wellFormed.loaded earlier _ has
    rw [← same, alike.declares]
    exact ⟨declared, alike.initialized said valued⟩
  stored before name present := by
    obtain ⟨earlier, _, has, _, same⟩ := alike.has_one present
    rw [← same, alike.declares]
    exact wellFormed.stored earlier _ has
  increased before name literal present := by
    obtain ⟨earlier, _, _, has, said, same, _⟩ := alike.has_two present
    obtain ⟨declared, valued⟩ := wellFormed.increased earlier _ _ has
    rw [← same, alike.declares]
    exact ⟨declared, alike.initialized said valued⟩
  constants before name present := by
    obtain ⟨earlier, _, has, _, same⟩ := alike.has_one present
    obtain ⟨free, known⟩ := wellFormed.constants earlier _ has
    rw [← same, alike.declares]
    exact ⟨free, constantNames _ known⟩
  methods before name present := by
    obtain ⟨earlier, _, has, _, same⟩ := alike.has_one present
    rw [← same, alike.declares, methodNames]
    exact wellFormed.methods earlier _ has
  targets before opcode name isJump present := by
    obtain ⟨earlier, _, has, _, same⟩ := alike.has_one present
    rw [← same, alike.label_names]
    exact wellFormed.targets earlier opcode _ isJump has

end Block.ReadsLike

/-- A list that is related to another one member by member has members that are related to those of the other. Rules
about all blocks of a tree are carried over by this. -/
theorem exists_related {One Other : Type} {related : One → Other → Prop} {ones : List One} {others : List Other}
    (each : List.Forall₂ related ones others) {other : Other} (member : other ∈ others) :
    ∃ one ∈ ones, related one other := by
  induction each with
  | nil => cases member
  | cons first _ ih =>
    rcases List.mem_cons.mp member with rfl | later
    · exact ⟨_, List.mem_cons_self, first⟩
    · obtain ⟨one, listed, same⟩ := ih later
      exact ⟨one, List.mem_cons_of_mem _ listed, same⟩

/-- Lists whose members are related give the same values if related members do. The lists have the same length, since
they are related. -/
theorem map_of_related {One Other Value : Type} {related : One → Other → Prop} {value : One → Value}
    {otherValue : Other → Value} (same : ∀ one other, related one other → otherValue other = value one)
    {ones : List One} {others : List Other} (each : List.Forall₂ related ones others) :
    others.map otherValue = ones.map value := by
  induction each with
  | nil => rfl
  | cons first _ ih => rw [List.map_cons, List.map_cons, same _ _ first, ih]

/-- A tree whose blocks say the same is well-formed if its constants have literals as values and the same names, and
its blocks declare before they state. The constants may come in another order. -/
theorem well_formed_again {tree again : Tree} (wellFormed : tree.WellFormed)
    (values : ∀ constant ∈ again.constants, IsLiteral constant.value)
    (constantNames : again.constantNames.Perm tree.constantNames)
    (blocks : List.Forall₂ Block.ReadsLike tree.blocks again.blocks)
    (methods : List.Forall₂ Block.ReadsLike tree.methods again.methods)
    (placed : ∀ block ∈ again.blocks, block.Placed) : again.WellFormed := by
  have methodNames : again.methodNames = tree.methodNames :=
    map_of_related (fun one other alike => by rw [alike.name]) methods
  constructor
  · exact values
  · rw [methodNames]
    exact (constantNames.append_right _).nodup_iff.mpr wellFormed.globals
  · intro block member
    obtain ⟨one, listed, alike⟩ := exists_related blocks member
    apply alike.well_formed (wellFormed.blocks one listed)
    · intro name known
      exact constantNames.mem_iff.mpr known
    · exact methodNames
    · exact placed block member
  · intro method member
    obtain ⟨one, listed, alike⟩ := exists_related methods member
    obtain ⟨before, returns⟩ := wellFormed.returns one listed
    obtain ⟨earlier, operands, has, _, none⟩ := alike.symm.has returns
    obtain rfl := List.map_eq_nil_iff.mp none
    exact ⟨earlier, has⟩

/-! ## Blueprints -/

/-- What is built from a statement depends on what it says, but for the line. The line is all that the position
contributes. -/
theorem Statement.build_unplaced (statement : Statement) : statement.build.unplaced = statement.wording.build := by
  cases statement <;> rfl

namespace Blueprint

/-- Labels stand at their indices, not on lines. Removing lines therefore leaves the table of labels. -/
theorem labels_unplaced (index : Nat) (code : List Instruction) :
    labelsFrom index (code.map Instruction.unplaced) = labelsFrom index code := by
  induction code generalizing index with
  | nil => rfl
  | cons instruction rest ih =>
    rw [List.map_cons, labelsFrom, labelsFrom, ih]
    rfl

/-- Linking does not look at lines. They are handed on to the blueprint, where faults are reported by them. -/
theorem linked_unplaced (name : Text) (params vars : List Text) (code : List Instruction) :
    (linked name params vars code).unplaced = linked name params vars (code.map Instruction.unplaced) := by
  have values : (code.map Instruction.unplaced).map valueOf = code.map valueOf := by
    rw [List.map_map]
    rfl
  rw [unplaced, linked, linked, labels_unplaced, values, List.map_toArray]

end Blueprint

/-- Blocks that say the same are linked to blueprints that differ in lines at most. Names are compared as they are
spelled here, not in folded form. -/
theorem Block.ReadsLike.linked {one other : Block} (alike : one.ReadsLike other) :
    other.linked.unplaced = one.linked.unplaced := by
  have code (block : Block) :
      block.code.map Instruction.unplaced = (block.statements.map Statement.wording).map Wording.build := by
    rw [Block.code, List.map_map, List.map_map]
    exact congrArg (fun build => block.statements.map build) (funext Statement.build_unplaced)
  rw [Block.linked, Block.linked, Blueprint.linked_unplaced, Blueprint.linked_unplaced, code, code, alike.name,
    alike.params, alike.vars, alike.statements]

/-- Programs with the same constants whose blueprints differ in lines at most differ in lines at most. The table of
methods holds blueprints too, from which the lines are removed likewise. -/
theorem Program.linked_unplaced {pool other : List (Text × Cell)} {main otherMain : Blueprint}
    {methods otherMethods : List Blueprint}
    (constants : (linked other otherMain otherMethods).constants = (linked pool main methods).constants)
    (mains : otherMain.unplaced = main.unplaced)
    (blueprints : otherMethods.map Blueprint.unplaced = methods.map Blueprint.unplaced) :
    (linked other otherMain otherMethods).unplaced = (linked pool main methods).unplaced := by
  have table (listed : List Blueprint) : (methodTable listed).map (fun method => (method.1, method.2.unplaced)) =
      methodTable (listed.map Blueprint.unplaced) := by
    rw [methodTable, methodTable, List.map_map, List.map_map]
    rfl
  rw [unplaced, unplaced, constants]
  simp only [linked, List.map_cons, mains, blueprints, table]

end IntegerMachine
