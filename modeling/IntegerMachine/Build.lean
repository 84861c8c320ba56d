import IntegerMachine.Program
import IntegerMachine.Review

/-!
# Building programs

A tree becomes a program: each block gives a blueprint with one instruction for each statement. Trees that
were not accepted can be built too; linking then finds what is wrong, as far as it matters to the machine.
-/
namespace IntegerMachine

/-- Why a tree does not give a program. -/
inductive BuildError where
  | noMain
  | badConstant (position : Position) (name : Text) (error : Literal.Error)
  | badBlock (position : Position) (error : Blueprint.LinkError)
  | badProgram (error : Program.LinkError)
  deriving DecidableEq, Repr

/-- The wording of the error; positions are given in the named file. -/
def BuildError.failure (file : Text) : BuildError → Failure
  | noMain => { message := "missing main block" }
  | badConstant position name error =>
    { message := error.message, contexts := [.concat [position.within file, ": constant ", name]] }
  | badBlock position error => error.failure.within (position.within file)
  | badProgram error => error.failure

/-- The instruction of a statement. -/
def Statement.build : Statement → Instruction
  | label position name => { opcode := .label, operands := [name], line := position.line }
  | instruction position opcode operands =>
    { opcode, operands := operands.map Ident.name, line := position.line }

/-- The blueprint of a block. -/
def Block.build (block : Block) : Except BuildError Blueprint :=
  match Blueprint.link block.name (block.params.map Ident.name) (block.variables.map Ident.name)
      (block.statements.map Statement.build) with
  | .ok blueprint => .ok blueprint
  | .error error => .error (.badBlock block.position error)

/-- The name and the value of a constant. -/
def ConstantDecl.build (constant : ConstantDecl) : Except BuildError (Text × Cell) :=
  match Literal.parse constant.value with
  | .ok value => .ok (constant.name, value)
  | .error error => .error (.badConstant constant.position constant.name error)

/-- The program of a tree. -/
def Tree.build (tree : Tree) : Except BuildError Program := do
  if tree.main.isNone then throw .noMain
  let constants ← tree.constants.mapM ConstantDecl.build
  let blueprints ← tree.blocks.mapM Block.build
  match Program.link constants blueprints with
  | .ok program => return program
  | .error error => throw (.badProgram error)

/-- Why a source does not give a program. -/
inductive CompileError where
  | refused (refusal : Refusal)
  | build (error : BuildError)
  deriving DecidableEq, Repr

/-- The program of a reviewed source. A source with errors has none. -/
def Review.build (review : Review) : Except CompileError Program :=
  match review.refusal? with
  | some refusal => .error (.refused refusal)
  | none =>
    match review.tree.build with
    | .ok program => .ok program
    | .error error => .error (.build error)

/-- The program of a source, with its review. -/
def Source.compile (file : Text) (source : Source) : Review × Except CompileError Program :=
  let review := source.review file
  (review, review.build)

end IntegerMachine
