import IntegerMachine.Failure
import IntegerMachine.Literal
import IntegerMachine.Opcode

/-!
# Instructions and blueprints

A blueprint is the fixed part of a block: its name, the names of its locals, and its code. `link`
checks the code and computes three tables from it: the index of each label, the slot of each local,
and the value of each literal operand. Names are compared in folded form.

Locals are numbered parameters first, then variables. A blueprint can also be put together without
`link`; its tables are then empty, so that no label and no local is ever found in it.
-/
namespace IntegerMachine

/-- An instruction with its operands as they are written in the source. -/
structure Instruction where
  opcode : Opcode
  operands : List Text := []
  /-- The line in the source; zero when it is not known. -/
  line : Int := 0
  deriving DecidableEq, Repr, Inhabited

/-- The instruction as it is shown in listings, traces and snapshots. -/
def Instruction.text (instruction : Instruction) : Text :=
  if instruction.opcode = .label then instruction.operands.headD [] ++ ":"
  else .join " " (instruction.opcode.name :: instruction.operands)

/-- The fixed part of a block. -/
structure Blueprint where
  name : Text
  /-- The parameters, in the order in which arguments are bound to them. -/
  params : List Text
  /-- The declared variables, in the order of their declarations. -/
  vars : List Text
  code : Array Instruction
  /-- The folded name and the index of each label. -/
  labels : List (Text × Nat) := []
  /-- The folded names of the locals; the slot of a local is its place in the list. -/
  slots : List Text := []
  /-- The value of the literal operand of each instruction; zero where there is none. -/
  immediates : Array Cell := #[]
  deriving DecidableEq, Repr, Inhabited

namespace Blueprint

/-- The names of all locals in the order of their slots. -/
def locals (blueprint : Blueprint) : List Text := blueprint.params ++ blueprint.vars

/-- The index of the label with the given name. -/
def label? (blueprint : Blueprint) (name : Text) : Option Nat := blueprint.labels.lookup name.fold

/-- The slot of the local with the given name. -/
def slot? (blueprint : Blueprint) (name : Text) : Option Nat := blueprint.slots.idxOf? name.fold

/-- Why a block cannot be linked. Errors in the code give the index of the instruction. -/
inductive LinkError where
  | duplicateLocal (block name : Text)
  | invalidOpcode (block : Text) (index : Nat) (code : UInt8)
  | wrongCount (block : Text) (index : Nat) (opcode : Opcode) (count : Nat)
  | duplicateLabel (block : Text) (index : Nat) (name : Text)
  | badLiteral (block : Text) (index : Nat) (error : Literal.Error)
  deriving DecidableEq, Repr

/-- An instruction's place in messages. -/
def place (block : Text) (index : Nat) : Text := .concat [block, ":", .ofNat index]

/-- The wording of the error. -/
def LinkError.failure : LinkError → Failure
  | duplicateLocal block name => { message := .concat [block, ": duplicate local ", name] }
  | invalidOpcode block index code =>
    { message := .concat [place block index, ": invalid opcode ", .ofNat code.toNat] }
  | wrongCount block index opcode count =>
    { message := .concat [place block index, ": ", opcode.name, " expects ",
        .ofNat opcode.operands.count, " arguments, got ", .ofNat count] }
  | duplicateLabel block index name =>
    { message := .concat [place block index, ": duplicate label ", name] }
  | badLiteral block index error => { message := error.message, contexts := [place block index] }

/-- The folded names of the locals, continuing the table of the locals before them. -/
def linkSlots (block : Text) (slots : List Text) : List Text → Except LinkError (List Text)
  | [] => .ok slots
  | name :: rest =>
    if name.fold ∈ slots then .error (.duplicateLocal block name)
    else linkSlots block (slots ++ [name.fold]) rest

/-- Checks an instruction's opcode and the number of its operands. -/
def checkShape (block : Text) (index : Nat) (instruction : Instruction) : Except LinkError Unit :=
  if !instruction.opcode.valid then .error (.invalidOpcode block index instruction.opcode.code)
  else if instruction.operands.length ≠ instruction.opcode.operands.count then
    .error (.wrongCount block index instruction.opcode instruction.operands.length)
  else .ok ()

/-- Whether the last operand of an instruction is a literal. -/
def takesLiteral : Opcode → Bool
  | .bipush | .iinc => true
  | _ => false

/-- The value of an instruction's literal operand, and zero when it has none. -/
def immediate (block : Text) (index : Nat) (instruction : Instruction) : Except LinkError Cell :=
  if takesLiteral instruction.opcode then
    match Literal.parse (instruction.operands.getLastD []) with
    | .ok value => .ok value
    | .error error => .error (.badLiteral block index error)
  else .ok 0

/-- The label table after an instruction. -/
def linkLabel (block : Text) (index : Nat) (instruction : Instruction) (labels : List (Text × Nat)) :
    Except LinkError (List (Text × Nat)) :=
  if instruction.opcode = .label then
    let name := instruction.operands.headD []
    if (labels.lookup name.fold).isSome then .error (.duplicateLabel block index name)
    else .ok (labels ++ [(name.fold, index)])
  else .ok labels

/-- The label table and the immediate values of code that starts at the given index, continuing the
label table of the code before it. -/
def linkCode (block : Text) (index : Nat) (labels : List (Text × Nat)) :
    List Instruction → Except LinkError (List (Text × Nat) × List Cell)
  | [] => .ok (labels, [])
  | instruction :: rest => do
    checkShape block index instruction
    let labels ← linkLabel block index instruction labels
    let value ← immediate block index instruction
    let (labels, values) ← linkCode block (index + 1) labels rest
    return (labels, value :: values)

/-- The blueprint of a block, with its tables. -/
def link (name : Text) (params vars : List Text) (code : List Instruction) :
    Except LinkError Blueprint := do
  let slots ← linkSlots name [] (params ++ vars)
  let (labels, values) ← linkCode name 0 [] code
  return { name, params, vars, code := code.toArray, labels, slots, immediates := values.toArray }

end Blueprint

end IntegerMachine
