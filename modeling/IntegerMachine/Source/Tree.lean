import IntegerMachine.Opcode
import IntegerMachine.Source.Position

/-!
# Parse trees

The tree of a source: its constants, its main block and its methods. Names and literals are kept as they
are written, with their positions. Declarations and statements of a block are kept apart, each in the
order of the source.
-/
namespace IntegerMachine

/-- A name or a literal at its place. -/
structure Ident where
  position : Position
  name : Text
  deriving DecidableEq, Repr

/-- A constant with the text of its value. -/
structure ConstantDecl where
  position : Position
  name : Text
  value : Text
  deriving DecidableEq, Repr

/-- A block of variable declarations. -/
structure VarBlock where
  position : Position
  names : List Ident := []
  deriving DecidableEq, Repr

/-- A label or an instruction. -/
inductive Statement where
  | label (position : Position) (name : Text)
  | instruction (position : Position) (opcode : Opcode) (operands : List Ident)
  deriving DecidableEq, Repr

/-- The place of a statement. -/
def Statement.position : Statement → Position
  | label position _ => position
  | instruction position _ _ => position

/-- The main block or a method. -/
structure Block where
  position : Position
  name : Text
  isMain : Bool
  params : List Ident := []
  vars : List VarBlock := []
  statements : List Statement := []
  deriving DecidableEq, Repr

/-- All variables of a block in the order of their declarations. -/
def Block.variables (block : Block) : List Ident := block.vars.flatMap VarBlock.names

/-- The tree of a source. -/
structure Tree where
  /-- The name of the file, for messages. -/
  file : Text
  constants : List ConstantDecl := []
  main : Option Block := none
  methods : List Block := []
  deriving DecidableEq, Repr

/-- The main block, if there is one, and the methods. -/
def Tree.blocks (tree : Tree) : List Block := tree.main.toList ++ tree.methods

/-- The name that the main block goes by. -/
def mainName : Text := "main"

end IntegerMachine
