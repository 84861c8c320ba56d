import IntegerMachine.Analysis.Symbol
import IntegerMachine.Opcode

/-!
# Diagnostics

What analysis finds. Errors keep a program from being built, warnings do not.
-/
namespace IntegerMachine

/-- How grave a finding is. -/
inductive Severity where
  | error
  | warning
  deriving DecidableEq, Repr

/-- The wording of the severity. -/
def Severity.name : Severity → Text
  | error => "error"
  | warning => "warning"

/-- What analysis finds. -/
inductive Problem where
  | badConstant (name : Text) (error : Literal.Error)
  | constantDefined (name : Text) (kind : SymbolKind) (previous : Position)
  | methodDefined (name : Text) (kind : SymbolKind) (previous : Position)
  | duplicateParam (name method : Text)
  | labelDefined (name : Text) (previous : Position)
  | misplacedVars (block : Text)
  | variableIsParam (name method : Text)
  | variableDefined (name : Text) (previous : Position)
  | underflow (opcode : Opcode) (needed depth : Nat)
  | unsupported (opcode : Opcode)
  | badLiteral (opcode : Opcode) (error : Literal.Error)
  | undefined (expected : SymbolKind) (name : Text)
  | wrongKind (name : Text) (actual expected : SymbolKind)
  | uninitialized (name : Text)
  | undefinedLabel (name block : Text) (elsewhere : Option Text)
  | unreachable (afterReturn : Position)
  | returnElsewhere (method : Text)
  | noReturn (method : Text)
  deriving DecidableEq, Repr

/-- How grave a problem is. -/
def Problem.severity : Problem → Severity
  | underflow .. | unreachable .. | returnElsewhere .. => .warning
  | _ => .error

/-- The wording of a problem; positions are given in the named file. -/
def Problem.message (file : Text) : Problem → Text
  | badConstant name error => .concat ["constant ", name, ": ", error.message]
  | constantDefined name kind previous =>
    .concat ["constant ", name, " already defined as ", kind.name, " here: ", previous.within file]
  | methodDefined name kind previous =>
    .concat ["method ", name, " already defined as ", kind.name, " here: ", previous.within file]
  | duplicateParam name method => .concat ["duplicate parameter ", name, " in method ", method]
  | labelDefined name previous =>
    .concat ["label ", name, " already defined here: ", previous.within file]
  | misplacedVars block => .concat [".var block must precede all instructions in ", block]
  | variableIsParam name method =>
    .concat ["variable ", name, " conflicts with a parameter of method ", method]
  | variableDefined name previous =>
    .concat ["variable ", name, " already defined here: ", previous.within file]
  | underflow opcode needed depth =>
    .concat ["possible stack underflow: ", opcode.name, " needs ", .ofNat needed,
      " value(s), stack may hold ", .ofNat depth]
  | unsupported opcode => .concat ["unsupported instruction ", opcode.name]
  | badLiteral opcode error => .concat [opcode.name, ": ", error.message]
  | undefined expected name => .concat ["undefined ", expected.name, " ", name]
  | wrongKind name actual expected =>
    .concat [name, " is a ", actual.name, ", not a ", expected.name]
  | uninitialized name => .concat ["variable ", name, " used before being initialized"]
  | undefinedLabel name block elsewhere =>
    .concat ["undefined label ", name, " in ", block,
      match elsewhere with
      | none => []
      | some scope => .concat [" (labels are local, found one in ", scope, ")"]]
  | unreachable afterReturn =>
    .concat ["unreachable code after IRETURN at ", afterReturn.within file]
  | returnElsewhere method =>
    .concat ["method ", method,
      " does not end with IRETURN on its primary path but has one elsewhere"]
  | noReturn method => .concat ["method ", method, " must end with IRETURN"]

/-- A problem at a position. -/
structure Diagnostic where
  position : Position
  problem : Problem
  deriving DecidableEq, Repr

namespace Diagnostic

/-- How grave a diagnostic is. -/
def severity (diagnostic : Diagnostic) : Severity := diagnostic.problem.severity

/-- The diagnostic with its position and severity. -/
def text (file : Text) (diagnostic : Diagnostic) : Text :=
  .concat [diagnostic.position.within file, ": ", diagnostic.severity.name, ": ",
    diagnostic.problem.message file]

end Diagnostic

end IntegerMachine
