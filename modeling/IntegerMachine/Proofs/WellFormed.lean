import IntegerMachine.Literal
import IntegerMachine.Source.Tree

/-!
# Well-formed trees

The rules that a tree has to keep so that it becomes a program, stated about the tree alone. There are no passes
and no symbol table here: a name is a local of its block if the block declares it, and a local has a value at a
statement if it is a parameter or if an earlier statement of the list stores into it. Jumps are not followed.

Names are always compared in folded form. Labels have names of their own, so that a label may be called like a
local, a constant or a method.
-/
namespace IntegerMachine

/-- A text that is the text of a literal. -/
def IsLiteral (text : Text) : Prop := ∃ value, Literal.parse text = .ok value

/-- The value of a literal; zero for other texts. -/
def literalValue (text : Text) : Cell :=
  match Literal.parse text with
  | .ok value => value
  | .error _ => 0

/-- A literal has its value. The value of a text that is none is zero, and is not meant to be used. -/
theorem IsLiteral.parse {text : Text} (literal : IsLiteral text) : Literal.parse text = .ok (literalValue text) := by
  obtain ⟨value, parsed⟩ := literal
  rw [literalValue, parsed]

namespace Statement

/-- The folded name that a statement declares as a label, if it is one. -/
def labelName? : Statement → Option Text
  | label _ name => some name.fold
  | instruction .. => none

end Statement

namespace Block

/-- The folded names of the parameters. -/
def paramNames (block : Block) : List Text := block.params.map fun param => param.name.fold

/-- The folded names of the parameters and then of the variables. -/
def localNames (block : Block) : List Text :=
  block.paramNames ++ block.variables.map fun declared => declared.name.fold

/-- The folded names of the labels. -/
def labelNames (block : Block) : List Text := block.statements.filterMap Statement.labelName?

/-- The block has an instruction directly behind the given statements. -/
def Has (block : Block) (before : List Statement) (opcode : Opcode) (operands : List Ident) : Prop :=
  ∃ position after, block.statements = before ++ .instruction position opcode operands :: after

/-- A name is one of a parameter or a variable of the block. -/
def Declares (block : Block) (name : Text) : Prop := name.fold ∈ block.localNames

/-- A name is one of a parameter, or one of the statements stores into it. -/
def Initialized (block : Block) (before : List Statement) (name : Text) : Prop :=
  name.fold ∈ block.paramNames ∨
    ∃ position target, .instruction position .istore [target] ∈ before ∧ target.name.fold = name.fold

end Block

namespace Tree

/-- The folded names of the constants. -/
def constantNames (tree : Tree) : List Text := tree.constants.map fun constant => constant.name.fold

/-- The folded names of the methods. -/
def methodNames (tree : Tree) : List Text := tree.methods.map fun method => method.name.fold

end Tree

/-- The rules for a block of a tree. -/
structure Block.WellFormed (tree : Tree) (block : Block) : Prop where
  /-- Parameters and variables have different names. -/
  locals : block.localNames.Nodup
  /-- Labels have different names. -/
  labels : block.labelNames.Nodup
  /-- No statement stands on a line before a declaration block. -/
  placement : ∀ declared ∈ block.vars, ∀ statement ∈ block.statements,
    declared.position.line ≤ statement.position.line
  /-- What is pushed is a literal. -/
  pushed : ∀ before literal, block.Has before .bipush [literal] → IsLiteral literal.name
  /-- What is added to a local is a literal. -/
  added : ∀ before name literal, block.Has before .iinc [name, literal] → IsLiteral literal.name
  /-- What is loaded is a local that has a value. -/
  loaded : ∀ before name, block.Has before .iload [name] →
    block.Declares name.name ∧ block.Initialized before name.name
  /-- What is stored into is a local. -/
  stored : ∀ before name, block.Has before .istore [name] → block.Declares name.name
  /-- What is added to is a local that has a value. -/
  increased : ∀ before name literal, block.Has before .iinc [name, literal] →
    block.Declares name.name ∧ block.Initialized before name.name
  /-- What is loaded from the pool is a constant that no local hides. -/
  constants : ∀ before name, block.Has before .ldcw [name] →
    ¬ block.Declares name.name ∧ name.name.fold ∈ tree.constantNames
  /-- What is called is a method that no local hides. -/
  methods : ∀ before name, block.Has before .invokevirtual [name] →
    ¬ block.Declares name.name ∧ name.name.fold ∈ tree.methodNames
  /-- A jump goes to a label of the block. -/
  targets : ∀ before opcode name, opcode.isJump = true → block.Has before opcode [name] →
    name.name.fold ∈ block.labelNames

/-- The rules for a tree. -/
structure Tree.WellFormed (tree : Tree) : Prop where
  /-- The values of constants are literals. -/
  values : ∀ constant ∈ tree.constants, IsLiteral constant.value
  /-- Constants and methods together have different names. -/
  globals : (tree.constantNames ++ tree.methodNames).Nodup
  /-- The blocks keep their rules. -/
  blocks : ∀ block ∈ tree.blocks, block.WellFormed tree
  /-- A method returns somewhere. -/
  returns : ∀ method ∈ tree.methods, ∃ before, method.Has before .ireturn []

end IntegerMachine
