import IntegerMachine.Analysis.Diagnostic
import IntegerMachine.Source.Tree

/-!
# Analysis

A tree is checked in three passes. The first one declares the constants and the methods; a method whose
name is taken is left out of the other passes. The second one collects the labels of each block. The third
one goes through each block: the place of its declarations, its variables, the names and literals of its
instructions, whether variables have a value when they are used, how many values its instructions find on
the operand stack, and how it ends.

The depth of the operand stack is followed along the list of instructions, without regard to jumps, so a
lack of values is a warning only. After it the depth goes on from what is left: the change that the
instruction makes is counted from the values that are there, and never below zero. An instruction that
gives values back leaves fewer of them if it lacked some, so that a value that is missing once may be
reported again by instructions that follow. How often this can happen is not a matter of this module.
-/
namespace IntegerMachine.Analysis

/-- Something that analysis notes: a diagnostic, or the depth of the stack after an instruction. -/
inductive Finding where
  | diagnostic (diagnostic : Diagnostic)
  | depth (position : Position) (opcode : Opcode) (depth : Nat)
  deriving DecidableEq, Repr

/-- A problem found at a position. -/
def found (position : Position) (problem : Problem) : Finding :=
  .diagnostic { position, problem }

/-- The diagnostics of the given severity. -/
def ofSeverity (severity : Severity) (findings : List Finding) : List Diagnostic :=
  findings.filterMap fun
    | .diagnostic diagnostic => if diagnostic.severity = severity then some diagnostic else none
    | .depth .. => none

/-- The scope of a block. -/
def scopeOf (block : Block) : Text := if block.isMain then mainScope else methodScope block.name

/-! ## First pass: constants and methods -/

/-- Declares a constant. -/
def declareConstant (table : SymbolTable) (constant : ConstantDecl) : SymbolTable × List Finding :=
  match Literal.parse constant.value with
  | .error error => (table, [found constant.position (.badConstant constant.name error)])
  | .ok value =>
    match table.lookupLocal? constant.name with
    | some symbol =>
      (table, [found constant.position
        (.constantDefined constant.name symbol.kind symbol.position)])
    | none => (table.add constant.name constant.position (.constant value), [])

/-- Declares constants. -/
def declareConstants (table : SymbolTable) : List ConstantDecl → SymbolTable × List Finding
  | [] => (table, [])
  | constant :: rest =>
    let (table, findings) := declareConstant table constant
    let (table, more) := declareConstants table rest
    (table, findings ++ more)

/-- The parameters of a method without those that repeat one of the folded names `seen` or one before
them, and a finding for each that does. -/
def distinctParams (method : Text) (seen : List Text) : List Ident → List Text × List Finding
  | [] => ([], [])
  | param :: rest =>
    if param.name.fold ∈ seen then
      let (params, findings) := distinctParams method seen rest
      (params, found param.position (.duplicateParam param.name method) :: findings)
    else
      let (params, findings) := distinctParams method (param.name.fold :: seen) rest
      (param.name :: params, findings)

/-- Declares a method, unless its name is taken; tells whether it was declared. -/
def declareMethod (table : SymbolTable) (method : Block) : Bool × SymbolTable × List Finding :=
  match table.lookupLocal? method.name with
  | some symbol =>
    (false, table,
      [found method.position (.methodDefined method.name symbol.kind symbol.position)])
  | none =>
    let (params, findings) := distinctParams method.name [] method.params
    (true, table.add method.name method.position (.method params), findings)

/-- Declares the methods among blocks, and gives the blocks that are to be looked at further. -/
def declareBlocks (table : SymbolTable) :
    List Block → SymbolTable × List Block × List Finding
  | [] => (table, [], [])
  | block :: rest =>
    if block.isMain then
      let (table, blocks, findings) := declareBlocks table rest
      (table, block :: blocks, findings)
    else
      let (declared, table, findings) := declareMethod table block
      let (table, blocks, more) := declareBlocks table rest
      (table, if declared then block :: blocks else blocks, findings ++ more)

/-! ## Second pass: labels -/

/-- The folded labels of each scope. -/
abbrev Labels := List (Text × List Text)

/-- Declares the labels among statements and gives their folded names. -/
def declareLabels (table : SymbolTable) :
    List Statement → SymbolTable × List Text × List Finding
  | [] => (table, [], [])
  | .instruction .. :: rest => declareLabels table rest
  | .label position name :: rest =>
    match (table.lookupLocal? name).filter fun symbol => symbol.kind = .label with
    | some symbol =>
      let (table, names, findings) := declareLabels table rest
      (table, names, found position (.labelDefined name symbol.position) :: findings)
    | none =>
      let (table, names, findings) := declareLabels (table.add name position .label) rest
      (table, name.fold :: names, findings)

/-- Declares the labels of blocks. -/
def collectLabels (table : SymbolTable) : List Block → SymbolTable × Labels × List Finding
  | [] => (table, [], [])
  | block :: rest =>
    let scope := scopeOf block
    let (table, names, findings) := declareLabels (table.enter scope) block.statements
    let (table, labels, more) := collectLabels table.exit rest
    (table, (scope, names) :: labels, findings ++ more)

/-! ## Third pass: blocks -/

/-- Declares the parameters of a block as variables that have a value. -/
def declareParams (table : SymbolTable) : List Ident → SymbolTable
  | [] => table
  | param :: rest =>
    match (table.lookupLocal? param.name).filter fun symbol => symbol.kind = .localVariable with
    | some _ => declareParams table rest
    | none => declareParams (table.add param.name param.position (.localVariable true true)) rest

/-- Whether a statement of a block stands on a line before one of its declaration blocks. -/
def misplaced (block : Block) : Bool :=
  block.vars.any fun vars =>
    block.statements.any fun statement => statement.position.line < vars.position.line

/-- A finding for each declaration block if any of them follows a statement. -/
def checkPlacement (block : Block) : List Finding :=
  if misplaced block then
    block.vars.map fun vars => found vars.position (.misplacedVars block.name)
  else []

/-- Declares the variables of a block. -/
def declareVars (block : Text) (table : SymbolTable) : List Ident → SymbolTable × List Finding
  | [] => (table, [])
  | declared :: rest =>
    let name := declared.name
    let known := (table.lookupLocal? name).bind fun symbol =>
      match symbol.info with
      | .localVariable isParam _ =>
        some (if isParam then Problem.variableIsParam name block
          else .variableDefined name symbol.position)
      | _ => none
    match known with
    | some problem =>
      let (table, findings) := declareVars block table rest
      (table, found declared.position problem :: findings)
    | none =>
      declareVars block (table.add name declared.position (.localVariable false false)) rest

/-- The constant, variable or method of a name. Labels do not hide the global symbols. -/
def resolve? (table : SymbolTable) (name : Text) : Option Symbol :=
  match table.lookup? name with
  | some symbol => if symbol.kind = .label then table.lookupGlobal? name else some symbol
  | none => none

/-- The symbol of the wanted kind with the given name, or a finding. -/
def checkSymbol (table : SymbolTable) (ident : Ident) (expected : SymbolKind) :
    Except Finding Symbol :=
  match resolve? table ident.name with
  | none => .error (found ident.position (.undefined expected ident.name))
  | some symbol =>
    if symbol.kind = expected then .ok symbol
    else .error (found ident.position (.wrongKind ident.name symbol.kind expected))

/-- Whether a variable has a value. -/
def isInitialized (symbol : Symbol) : Bool :=
  match symbol.info with
  | .localVariable _ initialized => initialized
  | _ => false

/-- Checks that a name is one of a variable and, if it is to be read, that it has a value. -/
def checkVariable (table : SymbolTable) (ident : Ident) (read : Bool) : List Finding :=
  match checkSymbol table ident .localVariable with
  | .error finding => [finding]
  | .ok symbol =>
    if read && !isInitialized symbol then
      [found ident.position (.uninitialized ident.name)]
    else []

/-- Checks a literal operand. -/
def checkLiteral (opcode : Opcode) (ident : Ident) : List Finding :=
  match Literal.parse ident.name with
  | .error error => [found ident.position (.badLiteral opcode error)]
  | .ok _ => []

/-- The name of a scope in messages. -/
def showScope (scope : Text) : Text :=
  if scope = mainScope then mainName else .concat ["method ", scope]

/-- Checks that a label belongs to the block. A label of that name in another block is mentioned. -/
def checkLabel (labels : Labels) (block : Block) (ident : Ident) : List Finding :=
  let name := ident.name.fold
  if name ∈ (labels.lookup (scopeOf block)).getD [] then []
  else
    let elsewhere := (labels.find? fun entry => name ∈ entry.2).map fun entry => showScope entry.1
    [found ident.position (.undefinedLabel ident.name block.name elsewhere)]

/-- How an instruction uses the operand stack. -/
structure StackUse where
  /-- The number of values it needs. -/
  needs : Nat := 0
  /-- The number of values that it leaves more than it finds. -/
  change : Int := 0
  /-- Whether the depth is zero after it, whatever it was before. -/
  clears : Bool := false
  deriving DecidableEq, Repr

/-- The depth after an instruction. -/
def StackUse.after (use : StackUse) (depth : Nat) : Nat :=
  if use.clears then 0 else (depth + use.change).toNat

/-- How an instruction other than a call uses the stack. -/
def stackUse : Opcode → StackUse
  | .bipush | .ldcw | .input | .iload => { change := 1 }
  | .istore | .pop | .output | .ifeq | .iflt => { needs := 1, change := -1 }
  | .iadd | .isub | .iand | .ior => { needs := 2, change := -1 }
  | .dup => { needs := 1, change := 1 }
  | .swap => { needs := 2 }
  | .ificmpeq => { needs := 2, change := -2 }
  | .ireturn => { needs := 1, clears := true }
  | _ => {}

/-- How a call of a method with a number of parameters uses the stack: it takes the arguments and the
reference below them, and leaves the result. -/
def callUse (params : Nat) : StackUse := { needs := params + 1, change := -params }

/-- The operand of an instruction at an index. The parser has seen to it that there are as many as the
opcode wants. -/
def operand (operands : List Ident) (index : Nat) : Ident :=
  operands[index]?.getD { position := .start, name := [] }

/-- Checks the operands of an instruction: the table after it, what was found, and how it uses the stack
as far as it can be told. -/
def checkOperands (labels : Labels) (block : Block) (table : SymbolTable) (position : Position)
    (opcode : Opcode) (operands : List Ident) : SymbolTable × List Finding × StackUse :=
  let first := operand operands 0
  match opcode with
  | .bipush => (table, checkLiteral opcode first, stackUse opcode)
  | .ldcw =>
    match checkSymbol table first .constant with
    | .ok _ => (table, [], stackUse opcode)
    | .error finding => (table, [finding], stackUse opcode)
  | .iload =>
    let findings := checkVariable table first true
    (table, findings, if findings.isEmpty then stackUse opcode else {})
  | .istore =>
    let findings := checkVariable table first false
    (if findings.isEmpty then (table.markInitialized first.name).2 else table, findings,
      stackUse opcode)
  | .iinc =>
    (table, checkVariable table first true ++ checkLiteral opcode (operand operands 1),
      stackUse opcode)
  | .ifeq | .iflt | .ificmpeq | .goto => (table, checkLabel labels block first, stackUse opcode)
  | .invokevirtual =>
    match checkSymbol table first .method with
    | .ok _ => (table, [], callUse ((table.methodParamCount? first.name).getD 0))
    | .error finding => (table, [finding], callUse 0)
  | .label | .unassigned _ => (table, [found position (.unsupported opcode)], {})
  | _ => (table, [], stackUse opcode)

/-- A warning if an instruction needs more values than there are. -/
def checkDepth (position : Position) (opcode : Opcode) (use : StackUse) (depth : Nat) :
    List Finding :=
  if depth < use.needs then [found position (.underflow opcode use.needs depth)] else []

/-- Checks the instructions among statements, starting at a depth of the stack. -/
def checkStatements (labels : Labels) (block : Block) (table : SymbolTable) (depth : Nat) :
    List Statement → SymbolTable × List Finding
  | [] => (table, [])
  | .label .. :: rest => checkStatements labels block table depth rest
  | .instruction position opcode operands :: rest =>
    let (table, findings, use) := checkOperands labels block table position opcode operands
    let after := use.after depth
    let (table, more) := checkStatements labels block table after rest
    (table,
      findings ++ checkDepth position opcode use depth ++ .depth position opcode after :: more)

/-- The instructions of a block with their positions. -/
def instructionsOf (block : Block) : List (Position × Opcode) :=
  block.statements.filterMap fun
    | .instruction position opcode _ => some (position, opcode)
    | .label .. => none

/-- A warning for each instruction that follows a return. -/
def checkUnreachable : List (Position × Opcode) → List Finding
  | first :: second :: rest =>
    (if first.2 = .ireturn then [found second.1 (.unreachable first.1)] else []) ++
      checkUnreachable (second :: rest)
  | _ => []

/-- Checks that a method ends with a return. -/
def checkReturn (block : Block) : List Finding :=
  let code := instructionsOf block
  if block.isMain || (code.getLast?.map Prod.snd) == some .ireturn then []
  else if code.any fun instruction => instruction.2 = .ireturn then
    [found block.position (.returnElsewhere block.name)]
  else [found block.position (.noReturn block.name)]

/-- Checks a block. -/
def checkBlock (labels : Labels) (table : SymbolTable) (block : Block) :
    SymbolTable × List Finding :=
  let table := declareParams (table.enter (scopeOf block)) block.params
  let (table, declared) := declareVars block.name table block.variables
  let (table, checked) := checkStatements labels block table 0 block.statements
  (table.exit, checkPlacement block ++ declared ++ checked ++
    checkUnreachable (instructionsOf block) ++ checkReturn block)

/-- Checks blocks. -/
def checkBlocks (labels : Labels) (table : SymbolTable) :
    List Block → SymbolTable × List Finding
  | [] => (table, [])
  | block :: rest =>
    let (table, findings) := checkBlock labels table block
    let (table, more) := checkBlocks labels table rest
    (table, findings ++ more)

/-- What analysis has found, and the symbols it has collected. -/
structure Result where
  table : SymbolTable
  findings : List Finding
  deriving DecidableEq, Repr

/-- Checks a tree. -/
def check (tree : Tree) : Result :=
  let (table, constants) := declareConstants {} tree.constants
  let (table, blocks, methods) := declareBlocks table tree.blocks
  let (table, labels, labelled) := collectLabels table blocks
  let (table, checked) := checkBlocks labels table blocks
  { table, findings := constants ++ methods ++ labelled ++ checked }

namespace Result

/-- The errors, in the order in which they were found. -/
def errors (result : Result) : List Diagnostic := ofSeverity .error result.findings

/-- The warnings, in the order in which they were found. -/
def warnings (result : Result) : List Diagnostic := ofSeverity .warning result.findings

/-- The messages about the depth of the stack after each instruction. -/
def depthMessages (result : Result) (file : Text) : List Text :=
  result.findings.filterMap fun
    | .depth position opcode depth =>
      some (.concat [position.within file, ": ", opcode.name, ": depth ", .ofNat depth])
    | .diagnostic _ => none

/-- The messages about the progress of analysis, on request with the depth after each instruction. -/
def messages (result : Result) (file : Text) (trace : Bool) : List Text :=
  [.concat [file, ": pass 1 (declarations)"], .concat [file, ": pass 2 (labels)"],
    .concat [file, ": pass 3 (analysis)"]] ++
  (if trace then result.depthMessages file else []) ++
  [.concat [file, ": ", .ofNat result.errors.length, " error(s), ",
    .ofNat result.warnings.length, " warning(s)"]]

end Result

end IntegerMachine.Analysis
