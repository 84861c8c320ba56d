import IntegerMachine.Text.Case

/-!
# Opcodes

The instructions of the machine, the operands that each one takes, and their mnemonics. A label is a
pseudo instruction: it carries its name and does nothing when it is reached, and no mnemonic is read
as one. Codes from 23 on are assigned to nothing; they occur only in blueprints that were put together
without being checked.
-/
namespace IntegerMachine

/-- What an instruction expects as operands. -/
inductive Operands where
  | nothing
  | literal
  | localVariable
  | localAndLiteral
  | constant
  | method
  | target
  deriving DecidableEq, Repr

namespace Operands

/-- The number of operands. -/
def count : Operands → Nat
  | nothing => 0
  | localAndLiteral => 2
  | _ => 1

/-- The number of the kind in the order above. -/
def code : Operands → Nat
  | nothing => 0
  | literal => 1
  | localVariable => 2
  | localAndLiteral => 3
  | constant => 4
  | method => 5
  | target => 6

end Operands

/-- An instruction of the machine. -/
inductive Opcode where
  | label
  | bipush
  | dup
  | goto
  | halt
  | iadd
  | iand
  | ifeq
  | iflt
  | ificmpeq
  | iinc
  | iload
  | input
  | invokevirtual
  | ior
  | ireturn
  | istore
  | isub
  | ldcw
  | nop
  | output
  | pop
  | swap
  | unassigned (code : UInt8)
  deriving DecidableEq, Repr, Inhabited

namespace Opcode

/-- The assigned opcodes, in the order of their codes. -/
def all : List Opcode :=
  [label, bipush, dup, goto, halt, iadd, iand, ifeq, iflt, ificmpeq, iinc, iload, input,
   invokevirtual, ior, ireturn, istore, isub, ldcw, nop, output, pop, swap]

/-- The opcode of a code. -/
def ofCode (code : UInt8) : Opcode := all[code.toNat]?.getD (unassigned code)

/-- The code of an opcode. -/
def code : Opcode → UInt8
  | unassigned code => code
  | opcode => (all.idxOf opcode).toUInt8

/-- Whether an opcode is assigned. -/
def valid : Opcode → Bool
  | unassigned _ => false
  | _ => true

/-- The text by which an opcode is written. -/
def name : Opcode → Text
  | label => "label"
  | bipush => "BIPUSH"
  | dup => "DUP"
  | goto => "GOTO"
  | halt => "HALT"
  | iadd => "IADD"
  | iand => "IAND"
  | ifeq => "IFEQ"
  | iflt => "IFLT"
  | ificmpeq => "IF_ICMPEQ"
  | iinc => "IINC"
  | iload => "ILOAD"
  | input => "IN"
  | invokevirtual => "INVOKEVIRTUAL"
  | ior => "IOR"
  | ireturn => "IRETURN"
  | istore => "ISTORE"
  | isub => "ISUB"
  | ldcw => "LDC_W"
  | nop => "NOP"
  | output => "OUT"
  | pop => "POP"
  | swap => "SWAP"
  | unassigned code => .concat ["op(", .ofNat code.toNat, ")"]

/-- The operands that an opcode takes. -/
def operands : Opcode → Operands
  | label | goto | ifeq | iflt | ificmpeq => .target
  | bipush => .literal
  | iinc => .localAndLiteral
  | iload | istore => .localVariable
  | invokevirtual => .method
  | ldcw => .constant
  | _ => .nothing

/-- Whether an opcode transfers control to a label. -/
def isJump : Opcode → Bool
  | goto | ifeq | iflt | ificmpeq => true
  | _ => false

/-- The opcodes that have a mnemonic: all that are assigned but the label. -/
def instructions : List Opcode := all.tail

/-- The opcode with the given mnemonic, in upper or lower case. -/
def ofMnemonic? (mnemonic : Text) : Option Opcode :=
  instructions.find? fun opcode => opcode.name == mnemonic.fold

end Opcode

end IntegerMachine
