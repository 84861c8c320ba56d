import IntegerMachine.Source.Parse
import Mathlib.Data.List.Forall2

/-!
# The grammar of sources

What a source looks like, without regard to how it is read. A source is a list of lines, and a line is a list of
tokens. Lines make up sections: constants, the main block and methods, in any order. The body of a block is a mix of
declarations and statements. Every part is related to what it contributes to the tree.

A name is a token whose text is a name, of whatever kind it is.
-/
namespace IntegerMachine

/-- The block with declarations and statements added behind its own. -/
def Block.extend (block : Block) (vars : List VarBlock) (statements : List Statement) : Block :=
  { block with vars := block.vars ++ vars, statements := block.statements ++ statements }

/-- To add nothing leaves the block as it is. -/
theorem Block.extend_nil (block : Block) : block.extend [] [] = block := by
  simp [extend]

/-- What is added in two steps can be added in one. Declarations and statements are kept apart, so their order among
each other does not matter. -/
theorem Block.extend_extend (block : Block) (vars more : List VarBlock) (statements others : List Statement) :
    (block.extend vars statements).extend more others = block.extend (vars ++ more) (statements ++ others) := by
  simp [extend]

namespace Grammar

/-- The tokens of a line. -/
abbrev Line := List Token

/-- Pieces that stand one after the other, and the value of each one. -/
inductive Sequence {Symbol Value : Type} (One : List Symbol → Value → Prop) : List Symbol → List Value → Prop where
  | nil : Sequence One [] []
  | cons {piece rest : List Symbol} {value : Value} {values : List Value} (first : One piece value)
      (others : Sequence One rest values) : Sequence One (piece ++ rest) (value :: values)

namespace Sequence

variable {Symbol Value : Type} {One : List Symbol → Value → Prop}

/-- A sequence behind another one is a sequence, with the values of both in the order of their pieces. -/
theorem append {before after : List Symbol} {values others : List Value} (first : Sequence One before values)
    (second : Sequence One after others) : Sequence One (before ++ after) (values ++ others) := by
  induction first with
  | nil => exact second
  | cons piece _ ih =>
    rw [List.append_assoc]
    exact .cons piece ih

/-- One more piece behind a sequence. -/
theorem snoc {symbols piece : List Symbol} {values : List Value} {value : Value}
    (sequence : Sequence One symbols values) (last : One piece value) : Sequence One (symbols ++ piece) (values ++ [value]) := by
  have single := Sequence.cons last .nil
  rw [List.append_nil] at single
  exact sequence.append single

end Sequence

/-- A token is the given directive. -/
def IsDirective (directive : Text) (token : Token) : Prop := token.directive? = some directive

/-! ## Lines -/

/-- A label: a name and a colon. -/
inductive Label : List Token → Statement → Prop where
  | mk {name colon : Token} (named : isName name.text = true) (isColon : colon.kind = .mark ':') :
      Label [name, colon] (.label name.position name.text)

/-- The tests that the operands of an instruction must pass. -/
def operandTests : Operands → List (Token → Bool)
  | .nothing => []
  | .literal => [Token.isLiteral]
  | .localAndLiteral => [fun token => isName token.text, Token.isLiteral]
  | .localVariable | .constant | .method | .target => [fun token => isName token.text]

/-- An instruction: a mnemonic with operands of the number and the kinds that its opcode wants. -/
inductive Command : List Token → Statement → Prop where
  | mk {mnemonic : Token} {opcode : Opcode} {operands : List Token} (isWord : mnemonic.kind = .word)
      (known : Opcode.ofMnemonic? mnemonic.text = some opcode)
      (fit : List.Forall₂ (fun test operand => test operand = true) (operandTests opcode.operands) operands) :
      Command (mnemonic :: operands) (.instruction mnemonic.position opcode (operands.map Token.ident))

/-- A line of statements: any number of labels, and then an instruction or nothing. -/
inductive StatementLine : Line → List Statement → Prop where
  | labels {line : Line} {labels : List Statement} (labelled : Sequence Label line labels) : StatementLine line labels
  | command {prefixes tokens : List Token} {labels : List Statement} {statement : Statement}
      (labelled : Sequence Label prefixes labels) (instructs : Command tokens statement) :
      StatementLine (prefixes ++ tokens) (labels ++ [statement])

/-- A line of any number of labels and a directive. -/
inductive DirectiveLine (directive : Text) : Line → List Statement → Position → Prop where
  | mk {prefixes : List Token} {labels : List Statement} {token : Token} (labelled : Sequence Label prefixes labels)
      (isDirective : IsDirective directive token) : DirectiveLine directive (prefixes ++ [token]) labels token.position

/-- A line of declarations has names and commas only. -/
def Declares (line : Line) : Prop := ∀ token ∈ line, isName token.text = true ∨ token.kind = .mark ','

/-- The names among tokens. -/
def names (tokens : List Token) : List Ident := (tokens.filter fun token => isName token.text).map Token.ident

/-- A line of a constant: a name and a literal. -/
inductive ConstantLine : Line → ConstantDecl → Prop where
  | mk {name value : Token} (named : isName name.text = true) (isLiteral : value.isLiteral = true) :
      ConstantLine [name, value] { position := name.position, name := name.text, value := value.text }

/-- A parameter behind another one: a comma and a name. -/
inductive Further : List Token → Ident → Prop where
  | mk {comma name : Token} (isComma : comma.kind = .mark ',') (named : isName name.text = true) :
      Further [comma, name] name.ident

/-- Parameters: names with commas between them, or nothing. -/
inductive Parameters : List Token → List Ident → Prop where
  | none : Parameters [] []
  | some {name : Token} {rest : List Token} {idents : List Ident} (named : isName name.text = true)
      (others : Sequence Further rest idents) : Parameters (name :: rest) (name.ident :: idents)

/-- The line that opens a method: its name, and optionally parameters in parentheses. -/
inductive Heading : Line → Block → Prop where
  | plain {opening name : Token} (opens : IsDirective ".method" opening) (named : isName name.text = true) :
      Heading [opening, name] { position := opening.position, name := name.text, isMain := false }
  | withParams {opening name left right : Token} {tokens : List Token} {params : List Ident}
      (opens : IsDirective ".method" opening) (named : isName name.text = true) (isLeft : left.kind = .mark '(')
      (isRight : right.kind = .mark ')') (listed : Parameters tokens params) :
      Heading (opening :: name :: left :: (tokens ++ [right]))
        { position := opening.position, name := name.text, isMain := false, params }

/-- The block that a heading opens is never the main block, which has a directive of its own. -/
theorem heading_is_method {line : Line} {block : Block} (heading : Heading line block) : block.isMain = false := by
  cases heading with
  | plain => rfl
  | withParams => rfl

/-! ## Sections -/

/-- What a part of a body contributes to its block. -/
structure Contribution where
  vars : List VarBlock := []
  statements : List Statement := []

/-- A part of a body: a line of statements, or a block of declarations. -/
inductive BodyPart : List Line → Contribution → Prop where
  | statements {line : Line} {statements : List Statement} (reads : StatementLine line statements) :
      BodyPart [line] { statements }
  | variableBlock {opening : Line} {labels : List Statement} {position : Position} {declarations : List Line}
      {closing : Token} (opens : DirectiveLine ".var" opening labels position)
      (declares : ∀ line ∈ declarations, Declares line) (closes : IsDirective ".end-var" closing) :
      BodyPart (opening :: (declarations ++ [[closing]]))
        { vars := [{ position, names := names declarations.flatten }], statements := labels }

/-- The block with the contributions of its body, and the labels of its last line. -/
def complete (block : Block) (parts : List Contribution) (labels : List Statement) : Block :=
  block.extend (parts.flatMap Contribution.vars) (parts.flatMap Contribution.statements ++ labels)

/-- A body without parts, closed by a line without labels, leaves its block as it was opened. -/
theorem complete_nil (block : Block) : complete block [] [] = block := block.extend_nil

/-- The labels of the last line are added to the others. They stand in front of the directive that closes the
block. -/
theorem complete_extend (block : Block) (parts : List Contribution) (labels : List Statement) :
    (complete block parts []).extend [] labels = complete block parts labels := by
  rw [complete, Block.extend_extend, List.append_nil, List.append_nil]
  rfl

/-- One more part of a body adds its declarations and its statements behind those of the parts before it. -/
theorem complete_snoc (block : Block) (parts : List Contribution) (part : Contribution) :
    complete block (parts ++ [part]) [] = (complete block parts []).extend part.vars part.statements := by
  rw [complete, complete, Block.extend_extend, List.flatMap_append, List.flatMap_append, List.flatMap_singleton,
    List.flatMap_singleton, List.append_nil, List.append_nil]

/-- The main block before anything in it was read. -/
def emptyMain (position : Position) : Block := { position, name := mainName, isMain := true }

/-- What a section contributes to the tree. -/
inductive Member where
  | constants (constants : List ConstantDecl)
  | main (block : Block)
  | method (block : Block)

/-- A section of a source. -/
inductive Section : List Line → Member → Prop where
  | constants {opening closing : Token} {lines : List Line} {constants : List ConstantDecl}
      (opens : IsDirective ".constant" opening) (declares : List.Forall₂ ConstantLine lines constants)
      (closes : IsDirective ".end-constant" closing) :
      Section ([opening] :: (lines ++ [[closing]])) (.constants constants)
  | main {opening : Token} {lines : List Line} {parts : List Contribution} {closing : Line} {labels : List Statement}
      {position : Position} (opens : IsDirective ".main" opening) (body : Sequence BodyPart lines parts)
      (closes : DirectiveLine ".end-main" closing labels position) :
      Section ([opening] :: (lines ++ [closing])) (.main (complete (emptyMain opening.position) parts labels))
  | method {heading : Line} {block : Block} {lines : List Line} {parts : List Contribution} {closing : Line}
      {labels : List Statement} {position : Position} (opens : Heading heading block)
      (body : Sequence BodyPart lines parts)
      (closes : DirectiveLine ".end-method" closing labels position) :
      Section (heading :: (lines ++ [closing])) (.method (complete block parts labels))

namespace Member

def isConstants : Member → Bool
  | constants _ => true
  | _ => false

def isMain : Member → Bool
  | main _ => true
  | _ => false

/-- The constants of a section. -/
def decls : Member → List ConstantDecl
  | constants listed => listed
  | _ => []

/-- The main block, if the section is one. -/
def main? : Member → Option Block
  | main block => some block
  | _ => none

/-- The method, if the section is one. -/
def method? : Member → Option Block
  | method block => some block
  | _ => none

end Member

/-- The tree of sections. -/
def assemble (file : Text) (members : List Member) : Tree :=
  { file
    constants := members.flatMap Member.decls
    main := members.findSome? Member.main?
    methods := members.filterMap Member.method? }

section Trees

variable (file : Text) (members : List Member)

/-- There is no main block in the tree exactly if no section is one. So the tree tells whether another main block may
follow. -/
theorem assemble_main_none_iff : (assemble file members).main = none ↔ members.countP Member.isMain = 0 := by
  change members.findSome? Member.main? = none ↔ _
  rw [List.findSome?_eq_none_iff, List.countP_eq_zero]
  refine forall₂_congr fun member _ => ?_
  cases member with
  | constants | main | method => simp [Member.main?, Member.isMain]

/-- A section of constants at the end adds them behind those that are there. -/
theorem assemble_constants (constants : List ConstantDecl) :
    assemble file (members ++ [.constants constants]) =
      { assemble file members with constants := (assemble file members).constants ++ constants } := by
  simp [assemble, Member.decls, Member.main?, Member.method?]

/-- A main block at the end becomes that of the tree, if it is the first one. -/
theorem assemble_main (block : Block) (isFirst : (assemble file members).main = none) :
    assemble file (members ++ [.main block]) = { assemble file members with main := some block } := by
  have none : members.findSome? Member.main? = none := isFirst
  simp [assemble, Member.decls, Member.main?, Member.method?, none]

/-- A method at the end comes last among the methods. -/
theorem assemble_method (block : Block) :
    assemble file (members ++ [.method block]) =
      { assemble file members with methods := (assemble file members).methods ++ [block] } := by
  simp [assemble, Member.decls, Member.main?, Member.method?]

/-- That there is no section of a kind can be said by a test or by a count. The parser tests, and the grammar
counts. -/
theorem any_false_iff (test : Member → Bool) : members.any test = false ↔ members.countP test = 0 := by
  rw [List.any_eq_false, List.countP_eq_zero]

/-- What may occur once does not occur before its occurrence. This turns the count of the grammar into what is known
while reading. -/
theorem none_before {test : Member → Bool} {members : List Member} {member : Member}
    (once : (members ++ [member]).countP test ≤ 1) (passes : test member = true) : members.countP test = 0 := by
  rw [List.countP_append, List.countP_singleton, if_pos passes] at once
  omega

end Trees

/-- Lines are those of a source, and the tree is what they make up: they are sections, of which at most one has
constants and exactly one is a main block. -/
def Derives (file : Text) (lines : List Line) (tree : Tree) : Prop :=
  ∃ members, Sequence Section lines members ∧ members.countP Member.isConstants ≤ 1 ∧
    members.countP Member.isMain = 1 ∧ tree = assemble file members

end Grammar

end IntegerMachine
