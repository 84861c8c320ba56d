import IntegerMachine.Opcode
import IntegerMachine.Source.Position

/-!
# Syntax errors

What can be wrong with the text of a source, from its bytes to its blocks. Every error has a position;
at most ten are kept, the first ones.
-/
namespace IntegerMachine

/-- What is wrong with a source. -/
inductive Complaint where
  | readFailed (failure : Text)
  | invalidEncoding
  | nulCharacter
  | openComment
  | openLiteral
  | badLiteral
  | badEscape
  | unexpected (token : Text)
  | outsideBlock (token : Text)
  | secondConstants
  | secondMain (previous : Position)
  | noMethodName
  | noParenthesis (token : Text)
  | noSeparator (token : Text)
  | badParameter (token : Text)
  | openParameters
  | amongConstants (token : Text)
  | badConstantName (token : Text)
  | noValue (constant : Text)
  | badValue (token : Text)
  | amongVariables (token : Text)
  | badVariable (token : Text)
  | badLabel (token : Text)
  | unknownInstruction (token : Text)
  | wrongCount (opcode : Opcode) (count : Nat)
  | noLiteral (opcode : Opcode) (token : Text)
  | badName (opcode : Opcode) (token : Text)
  | openConstants
  | openVariables
  | openMain
  | openMethod (name : Text)
  | noMain
  deriving DecidableEq, Repr

/-- The wording of a complaint; positions are given in the named file. -/
def Complaint.message (file : Text) : Complaint → Text
  | readFailed failure => failure
  | invalidEncoding => "invalid UTF-8 encoding"
  | nulCharacter => "invalid character NUL"
  | openComment => "comment not terminated"
  | openLiteral => "literal not terminated"
  | badLiteral => "invalid char literal"
  | badEscape => "invalid char escape"
  | unexpected token => .concat ["unexpected ", token]
  | outsideBlock token => .concat ["unexpected ", token, " outside of a block"]
  | secondConstants => "duplicate .constant block"
  | secondMain previous =>
    .concat ["duplicate .main block, previous definition here: ", previous.within file]
  | noMethodName => ".method: expected method name"
  | noParenthesis token => .concat [".method: expected '(', got ", token]
  | noSeparator token => .concat [".method: expected ',' or ')', got ", token]
  | badParameter token => .concat [".method: invalid parameter name ", token]
  | openParameters => ".method: missing ')'"
  | amongConstants token => .concat ["unexpected ", token, " in .constant block"]
  | badConstantName token => .concat ["invalid constant name ", token]
  | noValue constant => .concat ["missing value for constant ", constant]
  | badValue token => .concat ["expected integer value, got ", token]
  | amongVariables token => .concat ["unexpected ", token, " in .var block"]
  | badVariable token => .concat ["invalid variable name ", token]
  | badLabel token => .concat ["invalid label name ", token]
  | unknownInstruction token => .concat ["unknown instruction ", token]
  | wrongCount opcode count =>
    .concat [opcode.name, " expects ", .ofNat opcode.operands.count, " argument(s), got ",
      .ofNat count]
  | noLiteral opcode token => .concat [opcode.name, ": expected literal, got ", token]
  | badName opcode token => .concat [opcode.name, ": invalid name ", token]
  | openConstants => "missing .end-constant"
  | openVariables => "missing .end-var"
  | openMain => "missing .end-main"
  | openMethod name => .concat ["missing .end-method for method ", name]
  | noMain => "missing .main block"

/-- A complaint at a position. -/
structure SyntaxError where
  position : Position
  complaint : Complaint
  deriving DecidableEq, Repr

namespace SyntaxError

/-- The number of errors that are kept. -/
def limit : Nat := 10

/-- The message of an error. -/
def message (file : Text) (error : SyntaxError) : Text := error.complaint.message file

/-- The error with its position. -/
def text (file : Text) (error : SyntaxError) : Text :=
  .concat [error.position.within file, ": ", error.message file]

end SyntaxError

end IntegerMachine
