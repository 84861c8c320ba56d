import IntegerMachine.Text.Basic

/-!
# Faults

A fault ends a run because of the program: its kind, the place of the instruction, the name it is
about if there is one, and for input and output the failure of the device.
-/
namespace IntegerMachine

/-- The kinds of faults. Apart from the last two they are inconsistencies of the program. A code above
theirs names no kind and is shown as a number. -/
inductive FaultKind where
  | missingLabel
  | missingLocal
  | unsetLocal
  | missingConstant
  | missingMethod
  | unknownOpcode
  | stackUnderflow
  | callOverflow
  | inputError
  | outputError
  | unlisted (code : Int)
  deriving DecidableEq, Repr

namespace FaultKind

/-- The kind of a code. -/
def ofCode : Int → FaultKind
  | 0 => missingLabel
  | 1 => missingLocal
  | 2 => unsetLocal
  | 3 => missingConstant
  | 4 => missingMethod
  | 5 => unknownOpcode
  | 6 => stackUnderflow
  | 7 => callOverflow
  | 8 => inputError
  | 9 => outputError
  | code => unlisted code

/-- The wording of the kind. -/
def name : FaultKind → Text
  | missingLabel => "missing label"
  | missingLocal => "missing local variable"
  | unsetLocal => "unset local variable"
  | missingConstant => "missing constant"
  | missingMethod => "missing method"
  | unknownOpcode => "unknown opcode"
  | stackUnderflow => "stack underflow"
  | callOverflow => "call stack overflow"
  | inputError => "input error"
  | outputError => "output error"
  | unlisted code => .concat ["fault ", .ofInt code]

end FaultKind

/-- A fault at the instruction `pc` of the block `scope`. -/
structure Fault where
  kind : FaultKind
  scope : Text
  pc : Int
  /-- The name that the fault is about; empty when there is none. -/
  subject : Text := []
  /-- The failure of the device, for faults of input and output. -/
  device : Option Text := none
  deriving DecidableEq, Repr

/-- The wording of the fault. -/
def Fault.message (fault : Fault) : Text :=
  .concat [fault.scope, ":", .ofInt fault.pc, ": ", fault.kind.name,
    if fault.subject.isEmpty then [] else .concat [" ", fault.subject],
    match fault.device with
    | none => []
    | some failure => .concat [": ", failure]]

end IntegerMachine
