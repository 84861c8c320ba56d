import IntegerMachine.Source.Line
import IntegerMachine.Source.Tree

/-!
# Parsing

Token lines are read one after the other. Between blocks a line opens a block; within a block it is a
constant, a declaration, a statement, or closes the block. A line with an error adds nothing to the tree
beyond what was read before the error, and parsing goes on with the next line.

The tree is given also when there are errors. A block is in it only if it was closed.
-/
namespace IntegerMachine

/-- Whether a text is a name: letters, underscores and, after the first character, decimal digits. -/
def isName (text : Text) : Bool :=
  match text.characters with
  | [] => false
  | first :: rest =>
    (first == '_' || isLetter first) &&
      rest.all fun character => character == '_' || isLetter character || isDecimalDigit character

namespace Token

/-- Whether a token starts with a full stop. -/
def dotted (token : Token) : Bool := token.text.head? == some (Text.byte '.')

/-- The directive that a token is, in lower case: a word that starts with a full stop. -/
def directive? (token : Token) : Option Text :=
  if token.kind = .word ∧ token.dotted then some token.text.lower else none

/-- Whether a token is a word that is a name. -/
def isNameWord (token : Token) : Bool := token.kind = .word && isName token.text

/-- Whether a token can be a literal; its value is looked at later. -/
def isLiteral (token : Token) : Bool :=
  token.kind = .quoted || (token.kind = .word && !token.dotted)

/-- The token as a name at its place. -/
def ident (token : Token) : Ident := { position := token.position, name := token.text }

/-- A complaint at the place of a token. -/
def complain (token : Token) (complaint : Complaint) : SyntaxError :=
  { position := token.position, complaint }

/-- The complaint about tokens that should not follow, which is made about the first of them. -/
def surplus : List Token → List SyntaxError
  | [] => []
  | token :: _ => [token.complain (.unexpected token.text)]

end Token

namespace Source

/-- What is being read. -/
inductive Part where
  | top
  | constants
  | body (block : Block)
  | variables (block : Block) (declared : VarBlock)
  deriving DecidableEq, Repr

/-- What was read so far. -/
structure Progress where
  tree : Tree
  part : Part := .top
  /-- Whether a block of constants was opened. -/
  hasConstants : Bool := false
  deriving DecidableEq, Repr

/-- What was read after a line, and the errors of the line. -/
abbrev Parsed := Progress × List SyntaxError

/-- The parameters after the opening parenthesis, with the errors of the rest of the line; `first` tells
that there is no parameter yet, and `last` is the token before. -/
def parseParams (last : Token) (first : Bool) : List Token → List Ident × List SyntaxError
  | [] => ([], [last.complain .openParameters])
  | token :: rest =>
    if token.kind = .mark ')' then ([], Token.surplus rest)
    else if first then
      if token.isNameWord then
        let (params, errors) := parseParams token false rest
        (token.ident :: params, errors)
      else ([], [token.complain (.badParameter token.text)])
    else if token.kind = .mark ',' then
      match rest with
      | [] => ([], [token.complain .openParameters])
      | name :: rest =>
        if name.isNameWord then
          let (params, errors) := parseParams name false rest
          (name.ident :: params, errors)
        else ([], [name.complain (.badParameter name.text)])
    else ([], [token.complain (.noSeparator token.text)])

/-- The method that a line opens: `.method`, a name, and optionally parameters in parentheses. -/
def parseMethod (directive : Token) (rest : List Token) : Block × List SyntaxError :=
  let block : Block := { position := directive.position, name := [], isMain := false }
  match rest with
  | [] => (block, [directive.complain .noMethodName])
  | name :: rest =>
    if !isName name.text then (block, [directive.complain .noMethodName])
    else
      let block := { block with name := name.text }
      match rest with
      | [] => (block, [])
      | opening :: rest =>
        if opening.kind = .mark '(' then
          let (params, errors) := parseParams opening true rest
          ({ block with params }, errors)
        else (block, [opening.complain (.noParenthesis opening.text)])

/-- A line between blocks. -/
def parseTop (progress : Progress) (first : Token) (rest : List Token) : Parsed :=
  match first.directive? with
  | none => (progress, [first.complain (.outsideBlock first.text)])
  | some directive =>
    if directive = (".constant" : Text) then
      ({ progress with part := .constants, hasConstants := true },
        (if progress.hasConstants then [first.complain .secondConstants] else []) ++
          Token.surplus rest)
    else if directive = (".main" : Text) then
      ({ progress with
          part := .body { position := first.position, name := mainName, isMain := true } },
        (match progress.tree.main with
          | some main => [first.complain (.secondMain main.position)]
          | none => []) ++ Token.surplus rest)
    else if directive = (".method" : Text) then
      let (block, errors) := parseMethod first rest
      ({ progress with part := .body block }, errors)
    else (progress, [first.complain (.outsideBlock first.text)])

/-- A line within the block of constants. -/
def parseConstant (progress : Progress) (first : Token) (rest : List Token) : Parsed :=
  match first.directive? with
  | some directive =>
    if directive = (".end-constant" : Text) then
      ({ progress with part := .top }, Token.surplus rest)
    else (progress, [first.complain (.amongConstants first.text)])
  | none =>
    if !isName first.text then (progress, [first.complain (.badConstantName first.text)])
    else match rest with
      | [] => (progress, [first.complain (.noValue first.text)])
      | value :: rest =>
        if !value.isLiteral then (progress, [value.complain (.badValue value.text)])
        else match rest with
          | [] =>
            let constant : ConstantDecl :=
              { position := first.position, name := first.text, value := value.text }
            let tree := progress.tree
            ({ progress with tree := { tree with constants := tree.constants ++ [constant] } }, [])
          | _ :: _ => (progress, Token.surplus rest)

/-- The tokens of a line of declarations from some token on. The line `tokens` is the whole line: all of
its tokens but the first are surplus when it closes the declarations. -/
def parseVars (progress : Progress) (block : Block) (line : TokenLine) (declared : VarBlock) :
    List Token → Parsed
  | [] => ({ progress with part := .variables block declared }, [])
  | token :: rest =>
    match token.directive? with
    | some directive =>
      if directive = (".end-var" : Text) then
        ({ progress with part := .body { block with vars := block.vars ++ [declared] } },
          Token.surplus line.rest)
      else
        let (parsed, errors) := parseVars progress block line declared rest
        (parsed, token.complain (.amongVariables token.text) :: errors)
    | none =>
      if token.kind = .mark ',' then parseVars progress block line declared rest
      else if token.isNameWord then
        parseVars progress block line
          { declared with names := declared.names ++ [token.ident] } rest
      else
        let (parsed, errors) := parseVars progress block line declared rest
        (parsed, token.complain (.badVariable token.text) :: errors)

/-- The kind of the operand at an index. -/
def operandKind (opcode : Opcode) (index : Nat) : Operands :=
  match opcode.operands with
  | .localAndLiteral => if index = 1 then .literal else .localVariable
  | operands => operands

/-- The complaint about an operand, if it is of the wrong kind. -/
def checkOperand (opcode : Opcode) (index : Nat) (token : Token) : Option SyntaxError :=
  if operandKind opcode index = .literal then
    if token.isLiteral then none else some (token.complain (.noLiteral opcode token.text))
  else if token.isNameWord then none
  else some (token.complain (.badName opcode token.text))

/-- The complaint about the first operand of the wrong kind, from an index on. -/
def checkOperands (opcode : Opcode) (index : Nat) : List Token → Option SyntaxError
  | [] => none
  | token :: rest =>
    match checkOperand opcode index token with
    | some error => some error
    | none => checkOperands opcode (index + 1) rest

/-- The instruction that a line is. -/
def parseInstruction (first : Token) (rest : List Token) : Except SyntaxError Statement :=
  if first.kind ≠ .word then .error (first.complain (.unexpected first.text))
  else match Opcode.ofMnemonic? first.text with
    | none => .error (first.complain (.unknownInstruction first.text))
    | some opcode =>
      if rest.length ≠ opcode.operands.count then
        .error (first.complain (.wrongCount opcode rest.length))
      else match checkOperands opcode 0 rest with
        | some error => .error error
        | none => .ok (.instruction first.position opcode (rest.map Token.ident))

/-- The tree with a block that was closed. A second main block is dropped. -/
def closeBlock (tree : Tree) (block : Block) : Tree :=
  if block.isMain then { tree with main := tree.main.or (some block) }
  else { tree with methods := tree.methods ++ [block] }

/-- A line of a body that starts with a directive. -/
def parseDirective (progress : Progress) (block : Block) (directive : Text) (first : Token)
    (rest : List Token) : Parsed :=
  let unchanged := { progress with part := .body block }
  if directive = (".var" : Text) then
    ({ progress with part := .variables block { position := first.position } }, Token.surplus rest)
  else if directive = (if block.isMain then ".end-main" else ".end-method" : Text) then
    ({ progress with part := .top, tree := closeBlock progress.tree block }, Token.surplus rest)
  else (unchanged, [first.complain (.unexpected first.text)])

/-- The block with a statement added. -/
def addStatement (block : Block) (statement : Statement) : Block :=
  { block with statements := block.statements ++ [statement] }

/-- A line of a body: any number of labels, and then a directive, an instruction or nothing. -/
def parseStatement (progress : Progress) (block : Block) : List Token → Parsed
  | [] => ({ progress with part := .body block }, [])
  | [first] =>
    match first.directive? with
    | some directive => parseDirective progress block directive first []
    | none =>
      match parseInstruction first [] with
      | .ok statement => ({ progress with part := .body (addStatement block statement) }, [])
      | .error error => ({ progress with part := .body block }, [error])
  | first :: second :: rest =>
    match first.directive? with
    | some directive => parseDirective progress block directive first (second :: rest)
    | none =>
      if second.kind = .mark ':' then
        if isName first.text then
          parseStatement progress (addStatement block (.label first.position first.text)) rest
        else ({ progress with part := .body block }, [first.complain (.badLabel first.text)])
      else match parseInstruction first (second :: rest) with
        | .ok statement => ({ progress with part := .body (addStatement block statement) }, [])
        | .error error => ({ progress with part := .body block }, [error])

/-- What was read after a line. -/
def parseLine (progress : Progress) (line : TokenLine) : Parsed :=
  match progress.part with
  | .top => parseTop progress line.first line.rest
  | .constants => parseConstant progress line.first line.rest
  | .body block => parseStatement progress block line.tokens
  | .variables block declared => parseVars progress block line declared line.tokens

/-- What was read after all lines, and all errors up to there. -/
def parseLines (progress : Progress) (complaints : List SyntaxError) : List TokenLine → Parsed
  | [] => (progress, complaints)
  | line :: rest =>
    let (next, errors) := parseLine progress line
    let (last, more) := parseLines next complaints rest
    (last, line.complaints ++ errors ++ more)

/-- The complaint about a block that was not closed. -/
def openBlock (block : Block) : SyntaxError :=
  { position := block.position
    complaint := if block.isMain then .openMain else .openMethod block.name }

/-- The complaints about what is missing at the end. -/
def missing (progress : Progress) (stop : Position) : List SyntaxError :=
  match progress.part with
  | .top =>
    if progress.tree.main.isNone then [{ position := stop, complaint := .noMain }] else []
  | .constants => [{ position := stop, complaint := .openConstants }]
  | .body block => [openBlock block]
  | .variables block declared =>
    [{ position := declared.position, complaint := .openVariables }, openBlock block]

/-- The tree of a source and its syntax errors. -/
def parse (file : Text) (source : Source) : Tree × List SyntaxError :=
  let lines := source.lines
  let (progress, errors) := parseLines { tree := { file } } lines.complaints lines.lines
  (progress.tree, (errors ++ missing progress source.stop).take SyntaxError.limit)

end Source

end IntegerMachine
