import IntegerMachine.Blueprint

/-!
# Programs

A program is a constant pool and a list of blueprints, of which the first is the main block and the
others are methods. Constants are kept in the order of their folded names, so that two programs with
the same constants have the same pool.
-/
namespace IntegerMachine

/-- Named values in ascending order of their names, without duplicates. -/
abbrev Constants := List (Text × Cell)

namespace Constants

/-- The pool with a constant added, which replaces the constant of the same name. -/
def insert (name : Text) (value : Cell) : Constants → Constants
  | [] => [(name, value)]
  | (first, firstValue) :: rest =>
    match Text.compare name first with
    | .lt => (name, value) :: (first, firstValue) :: rest
    | .eq => (name, value) :: rest
    | .gt => (first, firstValue) :: insert name value rest

/-- The pool of the given constants, the last one of a name counting. -/
def ofList (constants : List (Text × Cell)) : Constants :=
  constants.foldl (fun pool constant => pool.insert constant.1 constant.2) []

end Constants

/-- A constant pool and blueprints. -/
structure Program where
  constants : Constants
  /-- The main block, then the methods. -/
  blueprints : List Blueprint
  /-- The folded name and the blueprint of each method. -/
  methods : List (Text × Blueprint) := []
  /-- Whether a block is missing behind the blueprints. No linked program lacks one. A program that does can be
  run, but neither listed nor saved. -/
  lacking : Bool := false
  deriving DecidableEq, Repr, Inhabited

namespace Program

/-- The blueprint of the main block. -/
def main? (program : Program) : Option Blueprint := program.blueprints.head?

/-- The blueprint of the method with the given name. -/
def method? (program : Program) (name : Text) : Option Blueprint :=
  program.methods.lookup name.fold

/-- The value of the constant with the given name. -/
def constant? (program : Program) (name : Text) : Option Cell :=
  program.constants.lookup name.fold

/-- Why blueprints do not make a program. -/
inductive LinkError where
  | noMain
  | duplicateMethod (name : Text)
  | missingBlock
  deriving DecidableEq, Repr

/-- The wording of the error. -/
def LinkError.failure : LinkError → Failure
  | noMain => { message := "program has no main block" }
  | duplicateMethod name => { message := .concat ["duplicate method ", name] }
  | missingBlock => .missing

/-- The method table, continuing the table of the methods before. -/
def linkMethods (table : List (Text × Blueprint)) :
    List Blueprint → Except LinkError (List (Text × Blueprint))
  | [] => .ok table
  | method :: rest =>
    if (table.lookup method.name.fold).isSome then .error (.duplicateMethod method.name)
    else linkMethods (table ++ [(method.name.fold, method)]) rest

/-- The program of the given constants and blueprints. -/
def link (constants : List (Text × Cell)) : List Blueprint → Except LinkError Program
  | [] => .error .noMain
  | main :: methods => do
    let table ← linkMethods [] methods
    return {
      constants := .ofList (constants.map fun constant => (constant.1.fold, constant.2))
      blueprints := main :: methods
      methods := table }

/-- The blueprints in front of the first block that is missing. -/
def present : List (Option Blueprint) → List Blueprint
  | some blueprint :: rest => blueprint :: present rest
  | _ => []

/-- The program of blocks of which some may be missing. What is wrong with the blocks in front of a missing one is
reported first. -/
def linkPresent (constants : List (Text × Cell)) (blocks : List (Option Blueprint)) :
    Except LinkError Program := do
  let program ← link constants (present blocks)
  if blocks.all Option.isSome then return program else throw .missingBlock

/-- The program of blocks of which some may be missing, without the tables that linking makes. -/
def unlinked (constants : List (Text × Cell)) (blocks : List (Option Blueprint)) : Program :=
  { constants := .ofList constants
    blueprints := present blocks
    lacking := !blocks.all Option.isSome }

end Program

end IntegerMachine
