import IntegerMachine.Proofs.Declarations
import IntegerMachine.Proofs.Folding
import IntegerMachine.Source.Parse

/-!
# Trees in folded form

A tree in folded form has all its names in upper case; its literals, opcodes and positions are as before. Analysis
of such a tree finds the same problems at the same places, with their names in folded form, and collects the same
symbols. Every function of analysis has a law that says so. They hold of all trees, also of those with errors.

Scopes are named in folded form from the start, so that they are the same for both trees.
-/
namespace IntegerMachine

/-! ## Folded forms -/

/-- A name in folded form. -/
def Ident.folded (ident : Ident) : Ident := { ident with name := ident.name.fold }

/-- A constant with its name in folded form. -/
def ConstantDecl.folded (constant : ConstantDecl) : ConstantDecl := { constant with name := constant.name.fold }

/-- Declarations with their names in folded form. -/
def VarBlock.folded (declared : VarBlock) : VarBlock := { declared with names := declared.names.map Ident.folded }

/-- An operand at its index, in folded form unless the opcode takes a literal there. -/
def Ident.foldedFor (opcode : Opcode) (index : Nat) (ident : Ident) : Ident :=
  if Source.operandKind opcode index = .literal then ident else ident.folded

/-- A statement with its names in folded form. -/
def Statement.folded : Statement → Statement
  | label position name => .label position name.fold
  | instruction position opcode operands => .instruction position opcode (operands.mapIdx (Ident.foldedFor opcode))

/-- A block with its names in folded form. -/
def Block.folded (block : Block) : Block :=
  { block with
    name := block.name.fold
    params := block.params.map Ident.folded
    vars := block.vars.map VarBlock.folded
    statements := block.statements.map Statement.folded }

/-- The name is folded like every other name of the block. For the main block it is a fixed wording that folding
changes too. -/
@[simp] theorem Block.folded_name (block : Block) : block.folded.name = block.name.fold := rfl

/-- Folding does not decide what kind of block it is: whether it is the main block is told by a flag and not by its
name. -/
@[simp] theorem Block.folded_main (block : Block) : block.folded.isMain = block.isMain := rfl

/-- The parameters keep their number, their order and their positions, and each is renamed on its own. -/
@[simp] theorem Block.folded_params (block : Block) : block.folded.params = block.params.map Ident.folded := rfl

/-- The blocks of declarations stay apart, at the lines where they stood, with the names in them folded. -/
@[simp] theorem Block.folded_vars (block : Block) : block.folded.vars = block.vars.map VarBlock.folded := rfl

/-- The statements are folded one by one. -/
@[simp] theorem Block.folded_statements (block : Block) :
    block.folded.statements = block.statements.map Statement.folded := rfl

/-- All variables of the block in one list, whichever block of declarations they come from, are the folded
variables. -/
@[simp] theorem Block.folded_variables (block : Block) :
    block.folded.variables = block.variables.map Ident.folded := by
  simp only [Block.variables, Block.folded_vars, List.flatMap_map, List.map_flatMap, VarBlock.folded]

/-- A tree with its names in folded form. -/
def Tree.folded (tree : Tree) : Tree :=
  { tree with
    constants := tree.constants.map ConstantDecl.folded
    main := tree.main.map Block.folded
    methods := tree.methods.map Block.folded }

/-- What is known about a symbol, with the names of parameters in folded form. -/
def SymbolInfo.folded : SymbolInfo → SymbolInfo
  | method params => .method (params.map Text.fold)
  | constant value => .constant value
  | localVariable isParam initialized => .localVariable isParam initialized
  | label => .label

/-- A symbol with its names in folded form. -/
def Symbol.folded (symbol : Symbol) : Symbol :=
  { symbol with name := symbol.name.fold, info := symbol.info.folded }

/-- A table with the names of its symbols in folded form. -/
def SymbolTable.folded (table : SymbolTable) : SymbolTable := { table with symbols := table.symbols.map Symbol.folded }

/-- A problem with its names in folded form. -/
def Problem.folded : Problem → Problem
  | badConstant name error => .badConstant name.fold error
  | constantDefined name kind previous => .constantDefined name.fold kind previous
  | methodDefined name kind previous => .methodDefined name.fold kind previous
  | duplicateParam name method => .duplicateParam name.fold method.fold
  | labelDefined name previous => .labelDefined name.fold previous
  | misplacedVars block => .misplacedVars block.fold
  | variableIsParam name method => .variableIsParam name.fold method.fold
  | variableDefined name previous => .variableDefined name.fold previous
  | underflow opcode needed depth => .underflow opcode needed depth
  | unsupported opcode => .unsupported opcode
  | badLiteral opcode error => .badLiteral opcode error
  | undefined expected name => .undefined expected name.fold
  | wrongKind name actual expected => .wrongKind name.fold actual expected
  | uninitialized name => .uninitialized name.fold
  | undefinedLabel name block elsewhere => .undefinedLabel name.fold block.fold elsewhere
  | unreachable afterReturn => .unreachable afterReturn
  | returnElsewhere method => .returnElsewhere method.fold
  | noReturn method => .noReturn method.fold

/-- A diagnostic with its names in folded form. -/
def Diagnostic.folded (diagnostic : Diagnostic) : Diagnostic := { diagnostic with problem := diagnostic.problem.folded }

/-- The severity of a problem does not depend on its names. -/
theorem Problem.severity_folded (problem : Problem) : problem.folded.severity = problem.severity := by
  cases problem <;> rfl

/-! ## Symbols -/

namespace SymbolTable

/-- A symbol keeps its kind. Only the name and, in a method, the names of the parameters are folded, and never what
the name stands for. -/
@[simp] theorem kind_folded (symbol : Symbol) : symbol.folded.kind = symbol.kind := by
  obtain ⟨name, scope, position, info⟩ := symbol
  cases info <;> rfl

/-- Scopes are entered by names that are in folded form already, so that entering one and folding the table can be
exchanged. -/
@[simp] theorem enter_folded (table : SymbolTable) (scope : Text) :
    table.folded.enter scope = (table.enter scope).folded := rfl

/-- Leaving a scope means entering the global one, whose name is empty and so is not touched by folding. -/
@[simp] theorem exit_folded (table : SymbolTable) : table.folded.exit = table.exit.folded := rfl

/-- A symbol answers to the folded form of its name. Comparison folds both sides, and folding twice is folding
once. -/
theorem named_folded (symbol : Symbol) (scope name : Text) :
    symbol.folded.named scope name.fold = symbol.named scope name := by
  simp only [Symbol.named, Symbol.folded, Text.fold_fold]

/-- What is found under the folded form of a name is the symbol of the name, in folded form. The test gives the same
answer for every symbol of the list, so the first match is at the same place. -/
@[simp] theorem find_folded (table : SymbolTable) (scope name : Text) :
    table.folded.find? scope name.fold = (table.find? scope name).map Symbol.folded := by
  rw [find?, find?, folded, List.find?_map]
  exact congrArg (fun test => (table.symbols.find? test).map Symbol.folded)
    (funext fun symbol => named_folded symbol scope name)

/-- Look-up in the active scope, which is the same for both tables. -/
@[simp] theorem lookup_local_folded (table : SymbolTable) (name : Text) :
    table.folded.lookupLocal? name.fold = (table.lookupLocal? name).map Symbol.folded :=
  table.find_folded table.scope name

/-- Look-up in the global scope, whose name is a constant. -/
@[simp] theorem lookup_global_folded (table : SymbolTable) (name : Text) :
    table.folded.lookupGlobal? name.fold = (table.lookupGlobal? name).map Symbol.folded :=
  table.find_folded globalScope name

/-- Look-up in the active scope and then in the global one. It falls through for the folded name exactly if it does
for the name itself. -/
@[simp] theorem lookup_folded (table : SymbolTable) (name : Text) :
    table.folded.lookup? name.fold = (table.lookup? name).map Symbol.folded := by
  rw [lookup?, lookup?, lookup_local_folded, lookup_global_folded]
  cases table.lookupLocal? name <;> rfl

/-- Changing the symbol of a name changes the symbol of its folded form. The induction is on the symbols: the first
one that answers to the name is changed, and it is the same one in both lists. -/
theorem update_folded (scope name : Text) (symbols : List Symbol) :
    update scope name.fold withValue (symbols.map Symbol.folded) =
      (update scope name withValue symbols).map Symbol.folded := by
  induction symbols with
  | nil => rfl
  | cons symbol rest ih =>
    have marked : withValue symbol.info.folded = (withValue symbol.info).folded := by cases symbol.info <;> rfl
    rw [List.map_cons, update, update, named_folded, ih]
    cases symbol.named scope name with
    | false => rfl
    | true =>
      rw [if_pos rfl, if_pos rfl, List.map_cons, Symbol.folded, Symbol.folded, marked]

/-- Marking the folded form of a name marks the name. Whether there is anything to mark depends on the kind of the
symbol, which is kept. -/
theorem mark_folded (table : SymbolTable) (name : Text) :
    (table.folded.markInitialized name.fold).2 = (table.markInitialized name).2.folded := by
  rw [markInitialized, markInitialized, lookup_folded]
  cases table.lookup? name with
  | none => rfl
  | some symbol =>
    simp only [Option.map_some, kind_folded]
    by_cases isVariable : symbol.kind = .localVariable
    · rw [if_pos isVariable, if_pos isVariable]
      exact congrArg (fun symbols => { table with symbols }) (update_folded symbol.scope name table.symbols)
    · rw [if_neg isVariable, if_neg isVariable]

/-- A method has as many parameters under the folded form of its name, since folding renames parameters without
merging them. -/
theorem param_count_folded (table : SymbolTable) (name : Text) :
    table.folded.methodParamCount? name.fold = table.methodParamCount? name := by
  rw [methodParamCount?, methodParamCount?, lookup_global_folded]
  rcases table.lookupGlobal? name with - | ⟨name, scope, position, info⟩
  · rfl
  · cases info with
    | method params => simp [Symbol.folded, SymbolInfo.folded]
    | _ => rfl

end SymbolTable

namespace Analysis

open SymbolTable

/-- A finding with its names in folded form. -/
def Finding.folded : Finding → Finding
  | .diagnostic reported => .diagnostic reported.folded
  | .depth position opcode height => .depth position opcode height

/-- The diagnostics of a severity among findings in folded form are those among the findings, folded. Depths are left
out of both. -/
theorem of_severity_folded (severity : Severity) (findings : List Finding) :
    ofSeverity severity (findings.map Finding.folded) = (ofSeverity severity findings).map Diagnostic.folded := by
  rw [ofSeverity, ofSeverity, List.filterMap_map, List.map_filterMap]
  refine congrArg (fun choose => findings.filterMap choose) (funext fun finding => ?_)
  cases finding with
  | depth => rfl
  | diagnostic reported =>
    have same : reported.folded.severity = reported.severity := reported.problem.severity_folded
    simp only [Function.comp_apply, Finding.folded, same]
    split <;> rfl

/-- The scope of a block has a folded name from the start. This is what lets both analyses enter the same scopes. -/
@[simp] theorem scope_folded (block : Block) : scopeOf block.folded = scopeOf block := by
  simp only [scopeOf, Block.folded, methodScope, Text.fold_fold]

/-- Symbols of a kind are told from others in folded form too. A look-up that asks for a kind can therefore be folded
as a whole. -/
theorem filter_folded (found : Option Symbol) (kind : SymbolKind) :
    (found.map Symbol.folded).filter (fun symbol => symbol.kind = kind) =
      (found.filter fun symbol => symbol.kind = kind).map Symbol.folded := by
  cases found with
  | none => rfl
  | some symbol => by_cases same : symbol.kind = kind <;> simp [Option.filter, same]

/-! ## First pass -/

/-- A constant is declared, or complained about, in the same way. Its value is parsed from a literal, which is not
folded, and the look-up asks for the same name. -/
theorem declare_constant_folded (table : SymbolTable) (constant : ConstantDecl) :
    declareConstant table.folded constant.folded =
      ((declareConstant table constant).1.folded, (declareConstant table constant).2.map Finding.folded) := by
  simp only [declareConstant, ConstantDecl.folded, lookup_local_folded]
  cases Literal.parse constant.value with
  | error error => rfl
  | ok value =>
    cases table.lookupLocal? constant.name with
    | none => rfl
    | some symbol =>
      simp only [Option.map_some, kind_folded]
      rfl

/-- Constants one after the other. The induction is on the list and carries the table, which changes with each of
them. -/
theorem declare_constants_folded (table : SymbolTable) (constants : List ConstantDecl) :
    declareConstants table.folded (constants.map ConstantDecl.folded) =
      ((declareConstants table constants).1.folded, (declareConstants table constants).2.map Finding.folded) := by
  induction constants generalizing table with
  | nil => rfl
  | cons constant rest ih =>
    simp only [List.map_cons, declareConstants, declare_constant_folded, ih, List.map_append]

/-- A parameter repeats an earlier one in folded form exactly if it does as it is spelled: the names that were seen
are kept in folded form anyway. -/
theorem distinct_params_folded (method : Text) (seen : List Text) (params : List Ident) :
    distinctParams method.fold seen (params.map Ident.folded) =
      ((distinctParams method seen params).1.map Text.fold,
        (distinctParams method seen params).2.map Finding.folded) := by
  induction params generalizing seen with
  | nil => rfl
  | cons param rest ih =>
    have name : param.folded.name.fold = param.name.fold := Text.fold_fold param.name
    by_cases known : param.name.fold ∈ seen
    · simp only [List.map_cons, distinctParams, name, if_pos known, ih]
      rfl
    · simp only [List.map_cons, distinctParams, name, if_neg known, ih]
      rfl

/-- A method is kept or left out in the same way, as it is left out exactly if its folded name is taken. -/
theorem declare_method_folded (table : SymbolTable) (method : Block) :
    declareMethod table.folded method.folded =
      ((declareMethod table method).1, (declareMethod table method).2.1.folded,
        (declareMethod table method).2.2.map Finding.folded) := by
  simp only [declareMethod, Block.folded_name, Block.folded_params, lookup_local_folded, distinct_params_folded]
  cases table.lookupLocal? method.name with
  | none => rfl
  | some symbol =>
    simp only [Option.map_some, kind_folded]
    rfl

/-- The first pass over blocks keeps the same blocks, in folded form. The main block declares nothing and is always
kept. -/
theorem declare_blocks_folded (table : SymbolTable) (blocks : List Block) :
    declareBlocks table.folded (blocks.map Block.folded) =
      ((declareBlocks table blocks).1.folded, (declareBlocks table blocks).2.1.map Block.folded,
        (declareBlocks table blocks).2.2.map Finding.folded) := by
  induction blocks generalizing table with
  | nil => rfl
  | cons block rest ih =>
    simp only [List.map_cons, declareBlocks, Block.folded_main, declare_method_folded, ih]
    cases block.isMain with
    | true => rfl
    | false => cases (declareMethod table block).1 <;> simp

/-! ## Second pass -/

/-- Labels are collected under their folded names, so that the second list of the result is the same for both trees
and not only alike. -/
theorem declare_labels_folded (table : SymbolTable) (statements : List Statement) :
    declareLabels table.folded (statements.map Statement.folded) =
      ((declareLabels table statements).1.folded, (declareLabels table statements).2.1,
        (declareLabels table statements).2.2.map Finding.folded) := by
  induction statements generalizing table with
  | nil => rfl
  | cons statement rest ih =>
    cases statement with
    | instruction position opcode operands => exact ih table
    | label position name =>
      simp only [List.map_cons, Statement.folded, declareLabels, lookup_local_folded, Text.fold_fold]
      rw [filter_folded]
      cases (table.lookupLocal? name).filter fun symbol => symbol.kind = .label with
      | some symbol =>
        simp only [Option.map_some, ih]
        rfl
      | none =>
        have added : table.folded.add name.fold position .label = (table.add name position .label).folded := rfl
        simp only [Option.map_none, added, ih]

/-- The second pass over all blocks. What it collects is a list of scopes and labels, both folded from the start, and
it is therefore equal for both trees. -/
theorem collect_labels_folded (table : SymbolTable) (blocks : List Block) :
    collectLabels table.folded (blocks.map Block.folded) =
      ((collectLabels table blocks).1.folded, (collectLabels table blocks).2.1,
        (collectLabels table blocks).2.2.map Finding.folded) := by
  induction blocks generalizing table with
  | nil => rfl
  | cons block rest ih =>
    have own := declare_labels_folded (table.enter (scopeOf block)) block.statements
    simp only [List.map_cons, collect_labels_cons, scope_folded, Block.folded_statements, enter_folded, own,
      exit_folded, ih, List.map_append]

/-! ## Third pass -/

/-- Parameters are added to the scope of their method as variables with a value, unless there is a variable of that
name. The look-up that decides this gives the same answer for folded names. -/
theorem declare_params_folded (table : SymbolTable) (params : List Ident) :
    declareParams table.folded (params.map Ident.folded) = (declareParams table params).folded := by
  induction params generalizing table with
  | nil => rfl
  | cons param rest ih =>
    have found : table.folded.lookupLocal? param.folded.name = (table.lookupLocal? param.name).map Symbol.folded :=
      table.lookup_local_folded param.name
    simp only [List.map_cons, declareParams, found, filter_folded]
    cases (table.lookupLocal? param.name).filter fun symbol => symbol.kind = .localVariable with
    | some symbol => exact ih table
    | none => exact ih (table.add param.name param.position (.localVariable true true))

/-- Folding leaves a statement where it is. -/
@[simp] theorem position_folded (statement : Statement) : statement.folded.position = statement.position := by
  cases statement <;> rfl

/-- Whether declarations are misplaced depends on lines only. The complaint names the block, and that name is folded
with the rest. -/
theorem placement_folded (block : Block) : checkPlacement block.folded = (checkPlacement block).map Finding.folded := by
  have same : misplaced block.folded = misplaced block := by
    simp only [misplaced, Block.folded_vars, Block.folded_statements, List.any_map, Function.comp_def, position_folded]
    rfl
  rw [checkPlacement, checkPlacement, same]
  split
  · rw [Block.folded_vars, List.map_map, List.map_map]
    rfl
  · rfl

/-- A variable is declared, or found to be a parameter or declared before. Which of the three holds is decided by a
look-up in the scope of the block, where the folded names give the same answer. -/
theorem declare_vars_folded (block : Text) (table : SymbolTable) (names : List Ident) :
    declareVars block.fold table.folded (names.map Ident.folded) =
      ((declareVars block table names).1.folded, (declareVars block table names).2.map Finding.folded) := by
  induction names generalizing table with
  | nil => rfl
  | cons declared rest ih =>
    have found : table.folded.lookupLocal? declared.folded.name =
        (table.lookupLocal? declared.name).map Symbol.folded := table.lookup_local_folded declared.name
    have added := ih (table.add declared.name declared.position (.localVariable false false))
    simp only [List.map_cons, declareVars, found]
    rcases table.lookupLocal? declared.name with - | ⟨name, scope, position, info⟩
    · exact added
    · cases info with
      | localVariable isParam initialized =>
        simp only [Option.map_some, Option.bind_some, Symbol.folded, SymbolInfo.folded, ih]
        cases isParam <;> rfl
      | _ => exact added

/-- A name is resolved to the symbol that is visible, where a label is passed over for the global symbol of its name.
Both look-ups have their law above, and the kind that decides between them is kept. -/
theorem resolve_folded (table : SymbolTable) (name : Text) :
    resolve? table.folded name.fold = (resolve? table name).map Symbol.folded := by
  rw [resolve?, resolve?, lookup_folded, lookup_global_folded]
  cases table.lookup? name with
  | none => rfl
  | some symbol =>
    simp only [Option.map_some, kind_folded]
    split <;> rfl

/-- Whether a name is one of a symbol of the expected kind. Either both checks give the symbol, or both give a
finding, and the findings differ in spelling only. -/
theorem check_symbol_folded (table : SymbolTable) (ident : Ident) (expected : SymbolKind) :
    checkSymbol table.folded ident.folded expected =
      ((checkSymbol table ident expected).map Symbol.folded).mapError Finding.folded := by
  have resolved : resolve? table.folded ident.folded.name = (resolve? table ident.name).map Symbol.folded :=
    resolve_folded table ident.name
  rw [checkSymbol, checkSymbol, resolved]
  cases resolve? table ident.name with
  | none => rfl
  | some symbol =>
    simp only [Option.map_some, kind_folded]
    split <;> rfl

/-- The same for the name of a variable that is read or written, where a variable without a value is one more thing to
be found. -/
theorem check_variable_folded (table : SymbolTable) (ident : Ident) (read : Bool) :
    checkVariable table.folded ident.folded read = (checkVariable table ident read).map Finding.folded := by
  rw [checkVariable, checkVariable, check_symbol_folded]
  cases checkSymbol table ident .localVariable with
  | error finding => rfl
  | ok symbol =>
    have same : isInitialized symbol.folded = isInitialized symbol := by
      obtain ⟨name, scope, position, info⟩ := symbol
      cases info <;> rfl
    have found : ((Except.ok symbol).map Symbol.folded).mapError Finding.folded = .ok symbol.folded := rfl
    simp only [found, same]
    split <;> rfl

/-- A complaint about a literal has no names in it. The literal itself is quoted by the error, and literals are not
folded. -/
theorem check_literal_folded (opcode : Opcode) (ident : Ident) :
    (checkLiteral opcode ident).map Finding.folded = checkLiteral opcode ident := by
  rw [checkLiteral]
  cases Literal.parse ident.name <;> rfl

/-- A jump names a label of its block. It is compared with the labels that were collected, which are the same for both
trees. -/
theorem check_label_folded (labels : Labels) (block : Block) (ident : Ident) :
    checkLabel labels block.folded ident.folded = (checkLabel labels block ident).map Finding.folded := by
  have name : ident.folded.name.fold = ident.name.fold := Text.fold_fold ident.name
  simp only [checkLabel, scope_folded, name]
  split <;> rfl

/-- The operand of a statement in folded form. Folding goes by the index, as one instruction may take both a name and
a literal. -/
theorem operand_folded (opcode : Opcode) (operands : List Ident) (index : Nat) :
    operand (operands.mapIdx (Ident.foldedFor opcode)) index =
      (operand operands index).foldedFor opcode index := by
  rw [operand, operand, List.getElem?_mapIdx]
  cases operands[index]? with
  | some ident => rfl
  | none =>
    -- A missing operand reads as the empty name, which is its own folded form.
    rw [Ident.foldedFor]
    split <;> rfl

/-- An operand that is a name is in folded form, whatever stands at the other indices. -/
theorem operand_named {opcode : Opcode} {index : Nat} (isName : Source.operandKind opcode index ≠ .literal)
    (operands : List Ident) :
    operand (operands.mapIdx (Ident.foldedFor opcode)) index = (operand operands index).folded := by
  rw [operand_folded, Ident.foldedFor, if_neg isName]

/-- An operand that is a literal is as it was: what is one character in lower case must not become another number. -/
theorem operand_literal {opcode : Opcode} {index : Nat} (isLiteral : Source.operandKind opcode index = .literal)
    (operands : List Ident) :
    operand (operands.mapIdx (Ident.foldedFor opcode)) index = operand operands index := by
  rw [operand_folded, Ident.foldedFor, if_pos isLiteral]

/-- The operands of an instruction are checked alike, the table behind it is the folded table, and its use of the
stack is the same. There is one case for each way in which an opcode treats its operands. -/
theorem check_operands_folded (labels : Labels) (block : Block) (table : SymbolTable) (position : Position)
    (opcode : Opcode) (operands : List Ident) :
    checkOperands labels block.folded table.folded position opcode (operands.mapIdx (Ident.foldedFor opcode)) =
      ((checkOperands labels block table position opcode operands).1.folded,
        (checkOperands labels block table position opcode operands).2.1.map Finding.folded,
        (checkOperands labels block table position opcode operands).2.2) := by
  cases opcode with
  | bipush =>
    have first := operand_literal (by decide : Source.operandKind .bipush 0 = .literal) operands
    simp only [checkOperands, first, check_literal_folded]
  | ldcw =>
    have first := operand_named (by decide : Source.operandKind .ldcw 0 ≠ .literal) operands
    simp only [checkOperands, first, check_symbol_folded]
    cases checkSymbol table (operand operands 0) .constant <;> rfl
  | iload =>
    have first := operand_named (by decide : Source.operandKind .iload 0 ≠ .literal) operands
    simp only [checkOperands, first, check_variable_folded, List.isEmpty_map]
  | istore =>
    have first := operand_named (by decide : Source.operandKind .istore 0 ≠ .literal) operands
    have marked : (table.folded.markInitialized (operand operands 0).folded.name).2 = _ :=
      table.mark_folded (operand operands 0).name
    simp only [checkOperands, first, check_variable_folded, List.isEmpty_map, marked]
    split <;> rfl
  | iinc =>
    have first := operand_named (by decide : Source.operandKind .iinc 0 ≠ .literal) operands
    have second := operand_literal (by decide : Source.operandKind .iinc 1 = .literal) operands
    simp only [checkOperands, first, second, check_variable_folded, List.map_append, check_literal_folded]
  | ifeq | iflt | ificmpeq | goto =>
    simp only [checkOperands]
    rw [operand_named (by decide), check_label_folded]
  | invokevirtual =>
    have first := operand_named (by decide : Source.operandKind .invokevirtual 0 ≠ .literal) operands
    have count : table.folded.methodParamCount? (operand operands 0).folded.name = _ :=
      table.param_count_folded (operand operands 0).name
    simp only [checkOperands, first, check_symbol_folded, count]
    cases checkSymbol table (operand operands 0) .method <;> rfl
  | _ => rfl

/-- A warning about missing values names an opcode and numbers only, so folding does not change it. -/
theorem check_depth_folded (position : Position) (opcode : Opcode) (use : StackUse) (depth : Nat) :
    (checkDepth position opcode use depth).map Finding.folded = checkDepth position opcode use depth := by
  rw [checkDepth]
  split <;> rfl

/-- The statements of a block are checked alike. The induction is on the statements and carries the table and the
depth, which both checks change by the same amount. -/
theorem check_statements_folded (labels : Labels) (block : Block) (table : SymbolTable) (depth : Nat)
    (statements : List Statement) :
    checkStatements labels block.folded table.folded depth (statements.map Statement.folded) =
      ((checkStatements labels block table depth statements).1.folded,
        (checkStatements labels block table depth statements).2.map Finding.folded) := by
  induction statements generalizing table depth with
  | nil => rfl
  | cons statement rest ih =>
    cases statement with
    | label position name => exact ih table depth
    | instruction position opcode operands =>
      simp only [List.map_cons, Statement.folded, checkStatements, check_operands_folded, ih, List.map_append,
        check_depth_folded]
      rfl

/-- A block in folded form has the same instructions at the same places. -/
@[simp] theorem instructions_folded (block : Block) : instructionsOf block.folded = instructionsOf block := by
  rw [instructionsOf, instructionsOf, Block.folded_statements, List.filterMap_map]
  refine congrArg (fun choose => block.statements.filterMap choose) (funext fun statement => ?_)
  cases statement <;> rfl

/-- A complaint about an unreachable instruction tells only where the return in front of it stands. -/
theorem check_unreachable_folded (code : List (Position × Opcode)) :
    (checkUnreachable code).map Finding.folded = checkUnreachable code := by
  induction code with
  | nil => rfl
  | cons first rest ih =>
    cases rest with
    | nil => rfl
    | cons second later =>
      rw [checkUnreachable, List.map_append, ih]
      split <;> rfl

/-- How a block ends is a question about its instructions and about its being the main block. The name in the
complaint is folded. -/
theorem check_return_folded (block : Block) : checkReturn block.folded = (checkReturn block).map Finding.folded := by
  simp only [checkReturn, instructions_folded, Block.folded_main]
  split
  · rfl
  · split <;> rfl

/-- The third pass over one block is made of the checks above, one after the other, and so the laws of these are put
together. -/
theorem check_block_folded (labels : Labels) (table : SymbolTable) (block : Block) :
    checkBlock labels table.folded block.folded =
      ((checkBlock labels table block).1.folded, (checkBlock labels table block).2.map Finding.folded) := by
  simp only [checkBlock, scope_folded, enter_folded, Block.folded_name, Block.folded_params, Block.folded_variables,
    Block.folded_statements, declare_params_folded, declare_vars_folded, check_statements_folded, exit_folded,
    placement_folded, instructions_folded, check_unreachable_folded, check_return_folded, List.map_append]

/-- The third pass over all blocks. The table is handed from each block to the next, and the induction carries it. -/
theorem check_blocks_folded (labels : Labels) (table : SymbolTable) (blocks : List Block) :
    checkBlocks labels table.folded (blocks.map Block.folded) =
      ((checkBlocks labels table blocks).1.folded, (checkBlocks labels table blocks).2.map Finding.folded) := by
  induction blocks generalizing table with
  | nil => rfl
  | cons block rest ih => simp only [List.map_cons, checkBlocks, check_block_folded, ih, List.map_append]

/-- The blocks of a tree are its main block, if there is one, and then its methods. -/
theorem blocks_folded (tree : Tree) : tree.folded.blocks = tree.blocks.map Block.folded := by
  rw [Tree.blocks, Tree.blocks, List.map_append]
  cases main : tree.main <;> simp [Tree.folded, main]

/-- Analysis of a tree in folded form finds the same, with names in folded form. The three passes are put together;
each hands its table and its list of blocks or labels to the next, and both are the folded ones by the law of the
pass. -/
theorem check_folded (tree : Tree) :
    check tree.folded =
      { table := (check tree).table.folded, findings := (check tree).findings.map Finding.folded } := by
  have constants : declareConstants {} tree.folded.constants = _ := declare_constants_folded {} tree.constants
  simp only [check, constants, blocks_folded, declare_blocks_folded, collect_labels_folded, check_blocks_folded,
    List.map_append]

end Analysis

end IntegerMachine
