import IntegerMachine.Cbor.Value
import IntegerMachine.Program

/-!
# Program images

An image is a program in the form in which it is stored: a CBOR map with a mark, a version, the constants and
the blueprints. Opcodes are stored by name. Tables are not stored; they are computed again when an image
becomes a program.

Unknown keys are skipped when an image is read, and what is missing is empty or zero. An entry of the wrong type
makes the image unreadable.
-/
namespace IntegerMachine

/-- An instruction as it is stored. -/
structure StoredInstruction where
  opcode : Text := []
  operands : List Text := []
  line : Int := 0
  deriving DecidableEq, Repr

/-- A blueprint as it is stored. -/
structure StoredBlueprint where
  name : Text := []
  params : List Text := []
  vars : List Text := []
  code : List StoredInstruction := []
  deriving DecidableEq, Repr

/-- A program as it is stored. -/
structure Image where
  mark : Text := []
  version : Int := 0
  /-- The constants in the order in which they are stored; a later one replaces an earlier one. -/
  constants : Option (List (Text × Cell)) := none
  blueprints : List StoredBlueprint := []
  deriving DecidableEq, Repr

open Cbor

/-! ## Writing -/

/-- The item of an instruction; what is empty or zero is left out. -/
def StoredInstruction.item (stored : StoredInstruction) : Item :=
  .map (Item.entry "op" (.ofText stored.opcode) ++
    Item.entry "args" (.ofTexts stored.operands) (!stored.operands.isEmpty) ++
    Item.entry "line" (.ofInt stored.line) (stored.line != 0))

/-- The item of a blueprint; empty lists of names are left out. -/
def StoredBlueprint.item (stored : StoredBlueprint) : Item :=
  .map (Item.entry "name" (.ofText stored.name) ++
    Item.entry "params" (.ofTexts stored.params) (!stored.params.isEmpty) ++
    Item.entry "vars" (.ofTexts stored.vars) (!stored.vars.isEmpty) ++
    Item.entry "code" (.ofListOrNull (stored.code.map StoredInstruction.item)))

namespace Image

/-- The mark of an image. -/
def imageMark : Text := "IJVM"

/-- The version of an image. -/
def imageVersion : Int := 1

/-- The item of constants. -/
def constantsItem (constants : List (Text × Cell)) : Item :=
  .map (constants.map fun constant => (.ofText constant.1, .ofInt constant.2.toInt))

/-- The item of an image. -/
def item (image : Image) : Item :=
  .map (Item.entry "magic" (.ofText image.mark) ++
    Item.entry "version" (.ofInt image.version) ++
    Item.entry "constants" ((image.constants.map constantsItem).getD .null) ++
    Item.entry "blueprints" (.ofListOrNull (image.blueprints.map StoredBlueprint.item)))

/-- The bytes of an image. -/
def encode (image : Image) : Text := image.item.encode

end Image

/-- An instruction as it is stored. -/
def Instruction.stored (instruction : Instruction) : StoredInstruction :=
  { opcode := instruction.opcode.name, operands := instruction.operands, line := instruction.line }

/-- A blueprint as it is stored. -/
def Blueprint.stored (blueprint : Blueprint) : StoredBlueprint :=
  { name := blueprint.name
    params := blueprint.params
    vars := blueprint.vars
    code := blueprint.code.toList.map Instruction.stored }

/-- A program as it is stored. -/
def Program.image (program : Program) : Image :=
  { mark := Image.imageMark
    version := Image.imageVersion
    constants := some program.constants
    blueprints := program.blueprints.map Blueprint.stored }

/-! ## Reading -/

/-- The fields of an instruction. -/
def StoredInstruction.fields : List (Item.Field StoredInstruction) :=
  [{ name := "op"
     read := fun stored item => return { stored with opcode := ← item.textOr [] } },
   { name := "args"
     read := fun stored item =>
      return { stored with operands := ← item.listOf "[]string" (Item.textOr []) } },
   { name := "line"
     read := fun stored item => return { stored with line := ← item.intOr 0 64 "int" } }]

/-- The instruction of an item. -/
def StoredInstruction.ofItem (item : Item) : Except Cbor.Error StoredInstruction :=
  item.recordOf "vm.instructionImage" fields {}

/-- The fields of a blueprint. -/
def StoredBlueprint.fields : List (Item.Field StoredBlueprint) :=
  [{ name := "name"
     read := fun stored item => return { stored with name := ← item.textOr [] } },
   { name := "params"
     read := fun stored item =>
      return { stored with params := ← item.listOf "[]string" (Item.textOr []) } },
   { name := "vars"
     read := fun stored item =>
      return { stored with vars := ← item.listOf "[]string" (Item.textOr []) } },
   { name := "code"
     read := fun stored item =>
      return { stored with
        code := ← item.listOf "[]vm.instructionImage" StoredInstruction.ofItem } }]

/-- The blueprint of an item. -/
def StoredBlueprint.ofItem (item : Item) : Except Cbor.Error StoredBlueprint :=
  item.recordOf "vm.blueprintImage" fields {}

namespace Image

/-- The constants of entries. Nothing for a name or a value repeats the one of the entry before. -/
def readConstants (name : Text) (value : Int) :
    List (Item × Item) → Except Cbor.Error (List (Text × Cell))
  | [] => .ok []
  | (first, second) :: rest => do
    let name ← first.textOr name
    let value ← second.intOr value 32 "vm.Cell"
    return (name, Int32.ofInt value) :: (← readConstants name value rest)

/-- The constants of an item. -/
def constantsOf (item : Item) : Except Cbor.Error (Option (List (Text × Cell))) := do
  match ← item.untagged with
  | (_, .map entries) => return some (← readConstants [] 0 entries)
  | (found, plain) => Item.orNothing none found plain "map[string]vm.Cell"

/-- The fields of an image. -/
def fields : List (Item.Field Image) :=
  [{ name := "magic"
     read := fun image item => return { image with mark := ← item.textOr [] } },
   { name := "version"
     read := fun image item => return { image with version := ← item.intOr 0 64 "int" } },
   { name := "constants"
     read := fun image item => return { image with constants := ← constantsOf item } },
   { name := "blueprints"
     read := fun image item =>
      return { image with
        blueprints := ← item.listOf "[]vm.blueprintImage" StoredBlueprint.ofItem } }]

/-- The image of an item. -/
def ofItem (item : Item) : Except Cbor.Error Image := item.recordOf "vm.image" fields {}

/-- The image at the beginning of a byte string. -/
def decode (bytes : Text) : Except Cbor.Error Image := do
  let (item, _) ← Cbor.read bytes
  ofItem item

/-- Why bytes are not an image of a program. -/
inductive Error where
  | unreadable (cause : Failure)
  | wrongMark
  | wrongVersion (version : Int)
  | unknownOpcode (block : Text) (index : Nat) (opcode : Text)
  | badBlueprint (error : Blueprint.LinkError)
  | badProgram (error : Program.LinkError)
  deriving DecidableEq, Repr

/-- The wording of the error. -/
def Error.failure : Error → Failure
  | unreadable cause => cause.within "decode failed"
  | wrongMark => { message := "not an IJVM image" }
  | wrongVersion version => { message := .concat ["unsupported image version ", .ofInt version] }
  | unknownOpcode block index opcode =>
    { message := .concat [Blueprint.place block index, ": unknown opcode ", opcode] }
  | badBlueprint error => error.failure.within "invalid image"
  | badProgram error => error.failure.within "invalid image"

/-- The opcode with the given name; the name of the label is not a mnemonic. -/
def opcode? (name : Text) : Option Opcode :=
  (Opcode.ofMnemonic? name).or (if name = Opcode.label.name then some .label else none)

/-- The instructions of stored code that starts at the given index. -/
def loadCode (block : Text) (index : Nat) : List StoredInstruction → Except Error (List Instruction)
  | [] => .ok []
  | stored :: rest =>
    match opcode? stored.opcode with
    | none => .error (.unknownOpcode block index stored.opcode)
    | some opcode => do
      let code ← loadCode block (index + 1) rest
      return { opcode, operands := stored.operands, line := stored.line } :: code

/-- The blueprint of a stored one. -/
def loadBlueprint (stored : StoredBlueprint) : Except Error Blueprint := do
  let code ← loadCode stored.name 0 stored.code
  match Blueprint.link stored.name stored.params stored.vars code with
  | .ok blueprint => return blueprint
  | .error error => throw (.badBlueprint error)

/-- The program of an image. -/
def load (image : Image) : Except Error Program := do
  if image.mark ≠ imageMark then throw .wrongMark
  if image.version ≠ imageVersion then throw (.wrongVersion image.version)
  let blueprints ← image.blueprints.mapM loadBlueprint
  match Program.link (image.constants.getD []) blueprints with
  | .ok program => return program
  | .error error => throw (.badProgram error)

end Image

/-- The bytes of a program's image. -/
def Program.encode (program : Program) : Text := program.image.encode

/-- The program of the image at the beginning of a byte string. -/
def Program.decode (bytes : Text) : Except Image.Error Program :=
  match Image.decode bytes with
  | .error error => .error (.unreadable { message := error.message })
  | .ok image => image.load

end IntegerMachine
