import IntegerMachine.Delivery
import IntegerMachine.Program

/-!
# Listings

The listing of a program reads like its source: the constant pool, then each block with its variables and
its instructions, each with its index.

As a document a listing is the sequence of its writes. It is written to a courier, which is looked at behind each block
only.
-/
namespace IntegerMachine

namespace Constants

/-- The listing of a constant pool; an empty pool is left out. -/
def listing (constants : Constants) : Document :=
  if constants.isEmpty then []
  else .enclose ".constant\n"
    (constants.map fun constant => .concat ["\t", constant.1, " ", .ofInt32 constant.2, "\n"])
    ".end-constant\n"

end Constants

namespace Blueprint

/-- The number of columns that an index takes with the blank in front of it. -/
def indexWidth : Nat := 6

/-- The line of an instruction without its line feed. Labels stand further to the left. -/
def instructionLine (index : Nat) (instruction : Instruction) : Text :=
  .concat [Text.padLeft indexWidth (" " ++ Text.ofNat index), "  ",
    if instruction.opcode = .label then "" else "\t", instruction.text]

/-- The listing of instructions from the given index on; a line and its line feed are two writes. -/
def listCode (index : Nat) : List Instruction → Document
  | [] => []
  | instruction :: rest => instructionLine index instruction :: "\n" :: listCode (index + 1) rest

/-- The listing of variables; no variables are left out. -/
def listVars (vars : List Text) : Document :=
  if vars.isEmpty then []
  else .enclose ".var\n" (vars.map fun name => .concat ["\t", name, "\n"]) ".end-var\n"

/-- The listing of what stands between the first and the last line of a block. -/
def listBody (blueprint : Blueprint) : Document :=
  listVars blueprint.vars ++ listCode 0 blueprint.code.toList

/-- The listing of a main block. -/
def listMain (blueprint : Blueprint) : Document :=
  .enclose ".main\n" blueprint.listBody ".end-main\n"

/-- The first line of a method. -/
def methodLine (blueprint : Blueprint) : Text :=
  .concat [".method ", blueprint.name, "(", .join ", " blueprint.params, ")\n"]

/-- The listing of a method. -/
def listMethod (blueprint : Blueprint) : Document :=
  .enclose blueprint.methodLine blueprint.listBody ".end-method\n"

section Writing

variable {Target : Type} [Receiver Target]

/-- Writes the line of an instruction without its line feed; gives the next index. -/
def writeInstruction (index : Nat) (instruction : Instruction) (outlet : Outlet Target) : Nat × Courier Target :=
  (index + 1, outlet.courier.write (instructionLine index instruction))

/-- Writes the listing of instructions from the given index on. -/
def writeCode (courier : Courier Target) (index : Nat) : List Instruction → Courier Target
  | [] => courier
  | instruction :: rest =>
    let (next, courier) := writeInstruction index instruction (.served courier)
    writeCode (courier.write "\n") next rest

/-- Writes a block between its first and its last line. -/
def writeBlock (blueprint : Blueprint) (first last : Text) (courier : Courier Target) : Courier Target :=
  let courier := (courier.write first).writeAll (listVars blueprint.vars)
  (writeCode courier 0 blueprint.code.toList).write last

end Writing

end Blueprint

namespace Program

/-- The listing of blueprints, of which the first is the main block. -/
def listBlueprints : List Blueprint → Document
  | [] => []
  | main :: methods => main.listMain ++ methods.flatMap Blueprint.listMethod

/-- The listing of a program. -/
def listing (program : Program) : Document :=
  program.constants.listing ++ listBlueprints program.blueprints

section Writing

variable {Target : Type} [Receiver Target]

/-- Writes the listing of methods, up to the first one in which a write was refused. -/
def writeMethods (courier : Courier Target) : List Blueprint → Courier Target
  | [] => courier
  | method :: rest =>
    let courier := method.writeBlock method.methodLine ".end-method\n" courier
    if courier.failure.isSome then courier else writeMethods courier rest

/-- Writes the listing of blueprints, up to the first one in which a write was refused. -/
def writeBlueprints (courier : Courier Target) : List Blueprint → Courier Target
  | [] => courier
  | main :: methods =>
    let courier := main.writeBlock ".main\n" ".end-main\n" courier
    if courier.failure.isSome then courier else writeMethods courier methods

/-- Writes the listing of a program; gives the failure if a write was refused. -/
def list (program : Program) (outlet : Outlet Target) : Option Failure × Target :=
  let courier := outlet.courier.writeAll program.constants.listing
  (writeBlueprints courier program.blueprints).outcome

end Writing

end Program

end IntegerMachine
