import IntegerMachine.Proofs.Building
import IntegerMachine.Proofs.StraightLine

/-!
# What analysis notes about the stack

Besides its diagnostics, analysis notes the depth of the stack behind each instruction. If it has no diagnostic, the
notes about a block are the depths that follow from the table of stack uses alone, with a call counted by the
parameters of the method that the program has for it. Then each instruction finds the values that it needs, and a return
has nothing but labels behind it.

The third pass asks the symbol table for the number of parameters. It is entered with the declaration of the method,
and whatever is declared afterwards is declared in the scope of a block.
-/
namespace IntegerMachine

/-- The depths of the stack behind each instruction that is no label. -/
def Program.depths (program : Program) (depth : Nat) : List Instruction → List Nat
  | [] => []
  | instruction :: rest =>
    let after := (program.stackUse instruction).after depth
    if instruction.opcode = .label then program.depths after rest else after :: program.depths after rest

namespace Analysis

open SymbolTable

/-! ## Notes and diagnostics -/

/-- There is no diagnostic among findings. -/
def Silent (findings : List Finding) : Prop := ∀ diagnostic, .diagnostic diagnostic ∉ findings

/-- The depths that are noted among findings, in their order. -/
def noted (findings : List Finding) : List Nat :=
  findings.filterMap fun
    | .depth _ _ depth => some depth
    | .diagnostic _ => none

/-- Without findings there is no diagnostic. -/
@[simp] theorem silent_nil : Silent [] := nofun

/-- Findings of two kinds in one list are silent exactly if both kinds are. -/
@[simp] theorem silent_append (first second : List Finding) :
    Silent (first ++ second) ↔ Silent first ∧ Silent second := by
  simp [Silent, not_or, forall_and]

/-- A note of the depth is no diagnostic. -/
@[simp] theorem silent_depth (position : Position) (opcode : Opcode) (depth : Nat) (rest : List Finding) :
    Silent (.depth position opcode depth :: rest) ↔ Silent rest := by
  simp [Silent]

/-- A problem that was found is one. Most cases below are closed by this: had the check found anything, its findings
would not be silent. -/
@[simp] theorem silent_found (position : Position) (problem : Problem) (rest : List Finding) :
    ¬ Silent (found position problem :: rest) :=
  fun silent => silent _ List.mem_cons_self

/-- Without findings nothing is noted. -/
@[simp] theorem noted_nil : noted [] = [] := rfl

/-- Notes come in the order of the findings. -/
@[simp] theorem noted_append (first second : List Finding) : noted (first ++ second) = noted first ++ noted second :=
  List.filterMap_append

/-- A depth is noted as it is. -/
@[simp] theorem noted_depth (position : Position) (opcode : Opcode) (depth : Nat) (rest : List Finding) :
    noted (.depth position opcode depth :: rest) = depth :: noted rest := rfl

/-- A problem notes nothing. -/
@[simp] theorem noted_found (position : Position) (problem : Problem) (rest : List Finding) :
    noted (found position problem :: rest) = noted rest := rfl

/-- Findings without errors and warnings are without diagnostics, since every diagnostic has one of the two
severities. -/
theorem silent_of_reports {result : Result} (noErrors : result.errors = []) (noWarnings : result.warnings = []) :
    Silent result.findings := by
  intro diagnostic member
  have reported : diagnostic ∈ ofSeverity diagnostic.severity result.findings :=
    List.mem_filterMap.mpr ⟨_, member, if_pos rfl⟩
  cases severity : diagnostic.severity with
  | error =>
    rw [severity, show ofSeverity .error result.findings = [] from noErrors] at reported
    cases reported
  | warning =>
    rw [severity, show ofSeverity .warning result.findings = [] from noWarnings] at reported
    cases reported

/-! ## Passes that note nothing -/

/-- The declaration of a constant may find a problem, but notes no depth. -/
theorem noted_declare_constant (table : SymbolTable) (constant : ConstantDecl) :
    noted (declareConstant table constant).2 = [] := by
  unfold declareConstant
  split
  · rfl
  · split <;> rfl

/-- Nor does the declaration of all constants. -/
theorem noted_declare_constants (table : SymbolTable) (constants : List ConstantDecl) :
    noted (declareConstants table constants).2 = [] := by
  induction constants generalizing table with
  | nil => rfl
  | cons constant rest ih =>
    change noted ((declareConstant table constant).2 ++ _) = []
    rw [noted_append, noted_declare_constant, ih]
    rfl

/-- Repeated parameters are problems, without a depth. -/
theorem noted_distinct_params (method : Text) (seen : List Text) (params : List Ident) :
    noted (distinctParams method seen params).2 = [] := by
  fun_induction distinctParams method seen params <;> simp_all

/-- The whole first pass over blocks notes nothing, whether it keeps a method or leaves it out. -/
theorem noted_declare_blocks (table : SymbolTable) (blocks : List Block) :
    noted (declareBlocks table blocks).2.2 = [] := by
  fun_induction declareBlocks table blocks with
  | case1 => rfl
  | case2 table block rest isMain _ _ _ declared ih =>
    rw [declared] at ih
    exact ih
  | case3 table block rest isMethod _ _ findings own _ _ _ declared ih =>
    have ownNoted : noted (declareMethod table block).2.2 = [] := by
      unfold declareMethod
      split
      · rfl
      · exact noted_distinct_params block.name [] block.params
    rw [own] at ownNoted
    rw [declared] at ih
    rw [noted_append, ownNoted, ih]
    rfl

/-- Labels that are declared twice are problems, without a depth. -/
theorem noted_declare_labels (table : SymbolTable) (statements : List Statement) :
    noted (declareLabels table statements).2.2 = [] := by
  fun_induction declareLabels table statements <;> simp_all

/-- The second pass notes nothing. -/
theorem noted_collect_labels (table : SymbolTable) (blocks : List Block) :
    noted (collectLabels table blocks).2.2 = [] := by
  induction blocks generalizing table with
  | nil => rfl
  | cons block rest ih =>
    rw [collect_labels_cons, noted_append, noted_declare_labels, ih]
    rfl

/-- Of the third pass, the declarations of a block note nothing. -/
theorem noted_declare_vars (block : Text) (table : SymbolTable) (declared : List Ident) :
    noted (declareVars block table declared).2 = [] := by
  fun_induction declareVars block table declared <;> simp_all

/-- Nor does the check of the place where they stand. -/
theorem noted_check_placement (block : Block) : noted (checkPlacement block) = [] := by
  unfold checkPlacement
  split
  · simp [noted, found, List.filterMap_map]
  · rfl

/-- What cannot be reached is a problem for itself. Its depth was noted where the statements were checked. -/
theorem noted_check_unreachable (code : List (Position × Opcode)) : noted (checkUnreachable code) = [] := by
  fun_induction checkUnreachable code with
  | case1 first second rest ih =>
    rw [noted_append, ih]
    split <;> rfl
  | case2 => rfl

/-- How a block ends is judged by its opcodes, and no depth is noted. -/
theorem noted_check_return (block : Block) : noted (checkReturn block) = [] := by
  unfold checkReturn
  dsimp only
  split
  · rfl
  · split <;> rfl

/-! ## The number of parameters -/

/-- A table has the same active scope as another one and knows the same numbers of parameters. -/
structure SameCounts (before after : SymbolTable) : Prop where
  scope : after.scope = before.scope
  counts : ∀ name, after.methodParamCount? name = before.methodParamCount? name

/-- The number of parameters of a method. -/
def paramCount? : SymbolInfo → Option Nat
  | .method params => some params.length
  | _ => none

/-- The number of parameters is found with what is globally known about a name. So it changes only if what is globally
known changes. -/
theorem param_count_eq (table : SymbolTable) (name : Text) :
    table.methodParamCount? name = (table.info? globalScope name).bind paramCount? := by
  have global : (table.lookupGlobal? name).map Symbol.info = table.info? globalScope name := rfl
  unfold methodParamCount?
  rw [global]
  cases table.info? globalScope name with
  | none => rfl
  | some info => cases info <;> rfl

namespace SameCounts

/-- Nothing changes if nothing is done. -/
theorem refl (table : SymbolTable) : SameCounts table table := ⟨rfl, fun _ => rfl⟩

/-- Steps that leave the numbers of parameters can be put together. -/
theorem trans {before between after : SymbolTable} (earlier : SameCounts before between)
    (later : SameCounts between after) : SameCounts before after :=
  ⟨later.scope.trans earlier.scope, fun name => (later.counts name).trans (earlier.counts name)⟩

/-- What is declared in the scope of a block is no method: the number of parameters is asked of the global scope. A
symbol of the same name in the inner scope does not get in its way. -/
theorem add (table : SymbolTable) (inner : table.scope ≠ globalScope) (name : Text) (position : Position)
    (info : SymbolInfo) : SameCounts table (table.add name position info) := by
  refine ⟨rfl, fun asked => ?_⟩
  rw [param_count_eq, info_add, if_neg (fun here => inner here.1), param_count_eq]

/-- Marking a variable changes variables only, in whichever scope the variable is found. -/
theorem mark (table : SymbolTable) (name : Text) : SameCounts table (table.markInitialized name).2 := by
  refine ⟨scope_mark table name, fun asked => ?_⟩
  unfold markInitialized
  split
  · split
    · rw [param_count_eq, param_count_eq, info?, find?, find_update]
      split
      · change ((table.info? globalScope asked).map withValue).bind paramCount? = _
        cases table.info? globalScope asked with
        | none => rfl
        | some info => cases info <;> rfl
      · rfl
    · rfl
  · rfl

end SameCounts

/-- The parameters of a block leave the numbers of parameters of all methods, as they are declared in an inner
scope. -/
theorem declare_params_counts (table : SymbolTable) (params : List Ident) (inner : table.scope ≠ globalScope) :
    SameCounts table (declareParams table params) := by
  fun_induction declareParams table params with
  | case1 table => exact .refl table
  | case2 table param rest symbol known ih => exact ih inner
  | case3 table param rest unknown ih => exact (SameCounts.add table inner _ _ _).trans (ih inner)

/-- So do its variables, also one that is called like a method. -/
theorem declare_vars_counts (block : Text) (table : SymbolTable) (declared : List Ident)
    (inner : table.scope ≠ globalScope) : SameCounts table (declareVars block table declared).1 := by
  fun_induction declareVars block table declared with
  | case1 table => exact .refl table
  | case2 table ident rest name known problem reported _ _ declared ih =>
    rw [declared] at ih
    exact ih inner
  | case3 table ident rest name known unknown ih => exact (SameCounts.add table inner _ _ _).trans (ih inner)

/-- So do its labels. -/
theorem declare_labels_counts (table : SymbolTable) (statements : List Statement) (inner : table.scope ≠ globalScope) :
    SameCounts table (declareLabels table statements).1 := by
  fun_induction declareLabels table statements with
  | case1 table => exact .refl table
  | case2 table _ _ _ _ ih => exact ih inner
  | case3 table _ _ _ _ _ _ _ _ declared ih =>
    rw [declared] at ih
    exact ih inner
  | case4 table position name rest _ _ names findings declared ih =>
    rw [declared] at ih
    exact (SameCounts.add table inner _ _ _).trans (ih inner)

/-- Collecting labels leaves the numbers of parameters. Each block enters its scope and leaves it again, so that the
statement is about the numbers alone and not about the active scope. -/
theorem collect_labels_counts (table : SymbolTable) (blocks : List Block)
    (inner : ∀ block ∈ blocks, scopeOf block ≠ globalScope) (name : Text) :
    (collectLabels table blocks).1.methodParamCount? name = table.methodParamCount? name := by
  induction blocks generalizing table with
  | nil => rfl
  | cons block rest ih =>
    rw [List.forall_mem_cons] at inner
    rw [collect_labels_cons]
    exact (ih _ inner.2).trans ((declare_labels_counts (table.enter (scopeOf block)) block.statements inner.1).counts name)

/-- Checking an instruction leaves the numbers of parameters. Only a store changes the table at all, by a mark. -/
theorem check_operands_counts (labels : Labels) (block : Block) (table : SymbolTable) (position : Position)
    (opcode : Opcode) (operands : List Ident) :
    SameCounts table (checkOperands labels block table position opcode operands).1 := by
  cases opcode with
  | istore =>
    change SameCounts table (if _ then _ else _)
    split
    · exact .mark table _
    · exact .refl table
  | ldcw | invokevirtual =>
    unfold checkOperands
    dsimp only
    split <;> exact .refl table
  | _ => exact .refl table

/-! ## Instructions -/

/-- Checking a name finds a problem or its symbol. If nothing is found, the symbol is there to go on with. -/
theorem check_symbol_silent (table : SymbolTable) (ident : Ident) (kind : SymbolKind)
    (silent : Silent (foundIn (checkSymbol table ident kind))) : ∃ symbol, checkSymbol table ident kind = .ok symbol := by
  unfold checkSymbol at silent ⊢
  split at silent
  · exact absurd silent (silent_found _ _ _)
  · split at silent
    · rename_i symbol _ isKind
      exact ⟨symbol, if_pos isKind⟩
    · exact absurd silent (silent_found _ _ _)

/-- Checking a literal finds a problem or nothing, and never a note. -/
theorem check_literal_silent {opcode : Opcode} {ident : Ident} (silent : Silent (checkLiteral opcode ident)) :
    checkLiteral opcode ident = [] := by
  unfold checkLiteral at silent ⊢
  split at silent
  · exact absurd silent (silent_found _ _ _)
  · rfl

/-- Checking a variable finds a problem or nothing. There are two problems, a wrong name and a missing value. -/
theorem check_variable_silent {table : SymbolTable} {ident : Ident} {read : Bool}
    (silent : Silent (checkVariable table ident read)) : checkVariable table ident read = [] := by
  unfold checkVariable at silent ⊢
  cases checked : checkSymbol table ident .localVariable with
  | error finding =>
    rw [checked] at silent
    obtain ⟨symbol, isOk⟩ := check_symbol_silent table ident .localVariable (by rw [checked]; exact silent)
    cases checked.symm.trans isOk
  | ok symbol =>
    rw [checked] at silent
    dsimp only at silent ⊢
    split at silent
    · exact absurd silent (silent_found _ _ _)
    · rename_i hasValue
      exact if_neg hasValue

/-- Checking a label finds a problem or nothing, with or without a hint at another block. -/
theorem check_label_silent {labels : Labels} {block : Block} {ident : Ident}
    (silent : Silent (checkLabel labels block ident)) : checkLabel labels block ident = [] := by
  unfold checkLabel at silent ⊢
  dsimp only at silent ⊢
  split at silent
  · rename_i listed
    exact if_pos listed
  · exact absurd silent (silent_found _ _ _)

/-- An instruction with the operands that it wants about which nothing is found uses the stack as the program does, if
the number of parameters of a method that it calls is the one that the program has. For all other opcodes both sides
read the same table of stack uses. -/
theorem check_operands_silent (program : Program) (labels : Labels) (block : Block) (table : SymbolTable)
    (position : Position) (opcode : Opcode) (operands : List Ident) (count : operands.length = opcode.operands.count)
    (agrees : ∀ name, opcode = .invokevirtual → operands = [name] →
      ∃ method, program.method? name.name = some method ∧ table.methodParamCount? name.name = some method.params.length)
    (silent : Silent (checkOperands labels block table position opcode operands).2.1) :
    (checkOperands labels block table position opcode operands).2 =
      ([], program.stackUse (Statement.instruction position opcode operands).build) := by
  cases opcode with
  | label | unassigned => exact absurd silent (silent_found _ _ _)
  | bipush => exact Prod.ext (check_literal_silent silent) rfl
  | goto | ifeq | iflt | ificmpeq => exact Prod.ext (check_label_silent silent) rfl
  | iload =>
    have nothing : checkVariable table (operand operands 0) true = [] := check_variable_silent silent
    change (checkVariable table (operand operands 0) true, if _ then _ else _) = _
    rw [nothing]
    rfl
  | istore => exact Prod.ext (check_variable_silent silent) rfl
  | iinc =>
    obtain ⟨variableSilent, literalSilent⟩ := (silent_append _ _).mp silent
    refine Prod.ext ?_ rfl
    change checkVariable _ _ _ ++ checkLiteral _ _ = []
    rw [check_variable_silent variableSilent, check_literal_silent literalSilent]
    rfl
  | ldcw =>
    have checked : checkOperands labels block table position .ldcw operands =
        (table, foundIn (checkSymbol table (operand operands 0) .constant), Analysis.stackUse .ldcw) := by
      unfold checkOperands
      dsimp only
      cases checkSymbol table (operand operands 0) .constant <;> rfl
    rw [checked] at silent ⊢
    obtain ⟨symbol, isOk⟩ := check_symbol_silent _ _ _ silent
    rw [isOk]
    rfl
  | invokevirtual =>
    obtain ⟨name, rfl⟩ := List.length_eq_one_iff.mp count
    obtain ⟨method, found, counted⟩ := agrees name rfl rfl
    have findings : (checkOperands labels block table position .invokevirtual [name]).2.1 =
        foundIn (checkSymbol table (operand [name] 0) .method) := by
      unfold checkOperands
      dsimp only
      cases checkSymbol table (operand [name] 0) .method <;> rfl
    rw [findings] at silent
    obtain ⟨symbol, isOk⟩ := check_symbol_silent _ _ _ silent
    have use : program.stackUse (Statement.instruction position .invokevirtual [name]).build =
        callUse method.params.length := program.stack_use_of_call rfl rfl found
    unfold checkOperands
    dsimp only
    rw [use, isOk]
    change ([], callUse ((table.methodParamCount? name.name).getD 0)) = _
    rw [counted, Option.getD_some]
  | dup | halt | iadd | iand | input | ior | ireturn | isub | nop | output | pop | swap => rfl

/-- The depth of the stack gives rise to a warning or to nothing. In the second case there are as many values as the
instruction needs. -/
theorem check_depth_silent {position : Position} {opcode : Opcode} {use : StackUse} {depth : Nat}
    (silent : Silent (checkDepth position opcode use depth)) :
    checkDepth position opcode use depth = [] ∧ use.needs ≤ depth := by
  unfold checkDepth at silent ⊢
  split at silent
  · exact absurd silent (silent_found _ _ _)
  · rename_i enough
    exact ⟨if_neg enough, Nat.le_of_not_lt enough⟩

/-! ## Blocks -/

/-- Instructions find the values that they need exactly if the first does and those behind it do. The condition speaks
of all ways to split the list, and this is its step. -/
theorem fed_cons (program : Program) (depth : Nat) (instruction : Instruction) (rest : List Instruction) :
    program.Fed depth (instruction :: rest) ↔ (program.stackUse instruction).needs ≤ depth ∧
      program.Fed ((program.stackUse instruction).after depth) rest :=
  forall_split_cons (fun before instruction =>
    (program.stackUse instruction).needs ≤ program.depthAfter depth before) instruction rest

/-- Of statements about which nothing is found, the depths are noted that follow from the table of stack uses, and
each finds the values that it needs. The induction carries the depth, and the table with the numbers of parameters,
which stay the same. -/
theorem check_statements_silent (program : Program) (labels : Labels) (block : Block) (statements : List Statement)
    (shape : ∀ position opcode operands, .instruction position opcode operands ∈ statements →
      opcode ∈ Opcode.instructions ∧ operands.length = opcode.operands.count)
    (table : SymbolTable) (depth : Nat)
    (agrees : ∀ position name, .instruction position .invokevirtual [name] ∈ statements →
      ∃ method, program.method? name.name = some method ∧ table.methodParamCount? name.name = some method.params.length)
    (silent : Silent (checkStatements labels block table depth statements).2) :
    noted (checkStatements labels block table depth statements).2 =
        program.depths depth (statements.map Statement.build) ∧
      program.Fed depth (statements.map Statement.build) ∧
      SameCounts table (checkStatements labels block table depth statements).1 := by
  induction statements generalizing table depth with
  | nil => exact ⟨rfl, by simp [Program.Fed], .refl table⟩
  | cons statement rest ih =>
    have shapeRest : ∀ position opcode operands, .instruction position opcode operands ∈ rest →
        opcode ∈ Opcode.instructions ∧ operands.length = opcode.operands.count :=
      fun position opcode operands member => shape position opcode operands (List.mem_cons_of_mem _ member)
    have agreesRest := fun position name member => agrees position name (List.mem_cons_of_mem _ member)
    cases statement with
    | label position name =>
      obtain ⟨notes, fed, counts⟩ := ih shapeRest table depth agreesRest silent
      have unchanged := program.label_after (show (Statement.label position name).build.opcode = .label from rfl) depth
      rw [List.map_cons, fed_cons, Program.depths, unchanged]
      exact ⟨notes, ⟨Nat.zero_le _, fed⟩, counts⟩
    | instruction position opcode operands =>
      obtain ⟨assigned, count⟩ := shape position opcode operands List.mem_cons_self
      have other : (Statement.instruction position opcode operands).build.opcode ≠ .label :=
        (Opcode.valid_of_instruction assigned).2
      have own := check_operands_silent program labels block table position opcode operands count
        (fun name isCall operands => agrees position name (by simp [isCall, operands]))
      have counts := check_operands_counts labels block table position opcode operands
      generalize checked : checkOperands labels block table position opcode operands = result at own counts
      obtain ⟨tableAfter, findings, use⟩ := result
      have unfolded : checkStatements labels block table depth (.instruction position opcode operands :: rest) =
          ((checkStatements labels block tableAfter (use.after depth) rest).1,
            findings ++ checkDepth position opcode use depth ++ .depth position opcode (use.after depth) ::
              (checkStatements labels block tableAfter (use.after depth) rest).2) := by
        rw [checkStatements, checked]
      rw [unfolded] at silent ⊢
      simp only [silent_append, silent_depth] at silent
      obtain ⟨⟨silentOwn, silentDepth⟩, silentRest⟩ := silent
      obtain ⟨rfl, rfl⟩ := Prod.mk.inj (own silentOwn)
      obtain ⟨nothing, enough⟩ := check_depth_silent silentDepth
      obtain ⟨notes, fed, countsRest⟩ := ih shapeRest tableAfter _ (fun place name member => by
        rw [counts.counts]
        exact agreesRest place name member) silentRest
      rw [List.map_cons, fed_cons, Program.depths, if_neg other, ← notes]
      exact ⟨by simp [nothing], ⟨enough, fed⟩, counts.trans countsRest⟩

/-- What holds of a block about which nothing is reported: its instructions find the values that they need, and none
follows a return. -/
structure Followed (program : Program) (block : Block) : Prop where
  fed : program.Fed 0 block.code
  final : Silent (checkUnreachable (instructionsOf block))

/-- Of a block about which nothing is found, the depths are noted that follow from the table of stack uses. The
parameters and variables that are declared before its statements leave the numbers of parameters that calls are
counted by. -/
theorem check_block_silent (program : Program) (labels : Labels) (table : SymbolTable) (block : Block)
    (inner : scopeOf block ≠ globalScope)
    (shape : ∀ position opcode operands, .instruction position opcode operands ∈ block.statements →
      opcode ∈ Opcode.instructions ∧ operands.length = opcode.operands.count)
    (agrees : ∀ position name, .instruction position .invokevirtual [name] ∈ block.statements →
      ∃ method, program.method? name.name = some method ∧ table.methodParamCount? name.name = some method.params.length)
    (silent : Silent (checkBlock labels table block).2) :
    noted (checkBlock labels table block).2 = program.depths 0 block.code ∧ Followed program block ∧
      ∀ name, (checkBlock labels table block).1.methodParamCount? name = table.methodParamCount? name := by
  have params := declare_params_counts (table.enter (scopeOf block)) block.params inner
  have vars := declare_vars_counts block.name (declareParams (table.enter (scopeOf block)) block.params) block.variables
    (by rw [params.scope]; exact inner)
  have nothing := noted_declare_vars block.name (declareParams (table.enter (scopeOf block)) block.params) block.variables
  generalize reached : declareVars block.name (declareParams (table.enter (scopeOf block)) block.params)
    block.variables = declared at vars nothing
  have unfolded : checkBlock labels table block =
      ((checkStatements labels block declared.1 0 block.statements).1.exit,
        checkPlacement block ++ declared.2 ++ (checkStatements labels block declared.1 0 block.statements).2 ++
          checkUnreachable (instructionsOf block) ++ checkReturn block) := by
    rw [← reached]
    rfl
  have counts := params.trans vars
  rw [unfolded] at silent ⊢
  simp only [silent_append] at silent
  obtain ⟨⟨⟨_, silentStatements⟩, final⟩, _⟩ := silent
  obtain ⟨notes, fed, later⟩ := check_statements_silent program labels block block.statements shape declared.1 0
    (fun position name member => by rw [counts.counts]; exact agrees position name member) silentStatements
  refine ⟨?_, ⟨fed, final⟩, (counts.trans later).counts⟩
  simp only [noted_append, noted_check_placement, nothing, notes, noted_check_unreachable, noted_check_return,
    List.nil_append, List.append_nil]
  rfl

/-- Of blocks about which nothing is found, the depths are noted one block after the other. Each starts at depth zero,
and with the numbers of parameters that the first one found. -/
theorem check_blocks_silent (program : Program) (labels : Labels) (blocks : List Block)
    (inner : ∀ block ∈ blocks, scopeOf block ≠ globalScope)
    (shape : ∀ block ∈ blocks, ∀ position opcode operands,
      .instruction position opcode operands ∈ block.statements →
        opcode ∈ Opcode.instructions ∧ operands.length = opcode.operands.count)
    (table : SymbolTable)
    (agrees : ∀ block ∈ blocks, ∀ position name, .instruction position .invokevirtual [name] ∈ block.statements →
      ∃ method, program.method? name.name = some method ∧ table.methodParamCount? name.name = some method.params.length)
    (silent : Silent (checkBlocks labels table blocks).2) :
    noted (checkBlocks labels table blocks).2 = (blocks.map fun block => program.depths 0 block.code).flatten ∧
      ∀ block ∈ blocks, Followed program block := by
  induction blocks generalizing table with
  | nil => exact ⟨rfl, nofun⟩
  | cons block rest ih =>
    rw [List.forall_mem_cons] at inner shape agrees
    have unfolded : (checkBlocks labels table (block :: rest)).2 = (checkBlock labels table block).2 ++
        (checkBlocks labels (checkBlock labels table block).1 rest).2 := rfl
    rw [unfolded, silent_append] at silent
    obtain ⟨notes, followed, counts⟩ :=
      check_block_silent program labels table block inner.1 shape.1 agrees.1 silent.1
    obtain ⟨notesRest, followedRest⟩ := ih inner.2 shape.2 _
      (fun other member position name listed => by rw [counts]; exact agrees.2 other member position name listed) silent.2
    rw [unfolded, noted_append, notes, notesRest, List.forall_mem_cons]
    exact ⟨rfl, followed, followedRest⟩

/-! ## Trees -/

/-- What is known about a name is known about all names that are folded alike. A call may spell the method in another
way than its declaration. -/
theorem info_congr (table : SymbolTable) (scope : Text) {name other : Text} (same : name.fold = other.fold) :
    table.info? scope name = table.info? scope other := by
  simp only [info?, find?, Symbol.named, same]

/-- No parameter is left out if none is repeated, so that the number in the table is the number in the tree. -/
theorem distinct_params_length (method : Text) (seen : List Text) (params : List Ident)
    (clean : Clean (distinctParams method seen params).2) :
    (distinctParams method seen params).1.length = params.length := by
  fun_induction distinctParams method seen params with
  | case1 => rfl
  | case2 => simp [Problem.severity] at clean
  | case3 seen param rest unknown params findings declared ih =>
    rw [declared] at ih
    simpa using ih clean

/-- A method that is declared without error becomes known with its number of parameters, and what is known about
others stays known: none of them is called like it. -/
theorem declare_method_counts (table : SymbolTable) (global : table.scope = globalScope) (method : Block)
    (clean : Clean (declareMethod table method).2.2) (name : Text) (count : Nat)
    (known : table.methodParamCount? name = some count ∨
      method.name.fold = name.fold ∧ method.params.length = count) :
    (declareMethod table method).2.1.methodParamCount? name = some count := by
  have fresh := ((declare_method_spec table method).1.mp clean).2
  have unknown := (lookup_local_none table method.name).mpr fresh
  have declared : declareMethod table method = (true,
      table.add method.name method.position (.method (distinctParams method.name [] method.params).1),
      (distinctParams method.name [] method.params).2) := by
    unfold declareMethod
    rw [unknown]
  rw [declared] at clean ⊢
  rw [param_count_eq, info_add, global]
  rcases known with before | ⟨same, rfl⟩
  · have different : method.name.fold ≠ name.fold := by
      intro same
      rw [kind?, global, info_congr table globalScope same, Option.map_eq_none_iff] at fresh
      rw [param_count_eq, fresh] at before
      cases before
    rw [if_neg (fun here => different here.2), ← param_count_eq]
    exact before
  · rw [if_pos ⟨rfl, same⟩]
    exact congrArg some (distinct_params_length method.name [] method.params clean)

/-- A number of parameters that is known stays known when methods are declared without errors, and each method becomes
known with its number. The induction is on the blocks; a number is known before them, or comes from one of them. -/
theorem declare_blocks_counts (table : SymbolTable) (global : table.scope = globalScope) (blocks : List Block)
    (clean : Clean (declareBlocks table blocks).2.2) (name : Text) (count : Nat)
    (known : table.methodParamCount? name = some count ∨
      ∃ method ∈ blocks, method.isMain = false ∧ method.name.fold = name.fold ∧ method.params.length = count) :
    (declareBlocks table blocks).1.methodParamCount? name = some count := by
  induction blocks generalizing table with
  | nil =>
    rcases known with before | ⟨_, member, _⟩
    · exact before
    · cases member
  | cons block rest ih =>
    cases isMain : block.isMain with
    | true =>
      have unfolded : declareBlocks table (block :: rest) =
          ((declareBlocks table rest).1, block :: (declareBlocks table rest).2.1, (declareBlocks table rest).2.2) := by
        simp only [declareBlocks, isMain, if_true]
      rw [unfolded] at clean ⊢
      exact ih table global clean (by simpa [isMain] using known)
    | false =>
      have unfolded : (declareBlocks table (block :: rest)).1 = (declareBlocks (declareMethod table block).2.1 rest).1 ∧
          (declareBlocks table (block :: rest)).2.2 =
            (declareMethod table block).2.2 ++ (declareBlocks (declareMethod table block).2.1 rest).2.2 := by
        simp only [declareBlocks, isMain, Bool.false_eq_true, if_false, and_self]
      rw [unfolded.2, clean_append] at clean
      rw [unfolded.1]
      have scope := ((declare_method_spec table block).2 clean.1).2.scope
      refine ih _ (scope.trans global) clean.2 ?_
      rcases known with before | ⟨method, member, notMain, same, counted⟩
      · exact .inl (declare_method_counts table global block clean.1 name count (.inl before))
      · rcases List.mem_cons.mp member with rfl | later
        · exact .inl (declare_method_counts table global method clean.1 name count (.inr ⟨same, counted⟩))
        · exact .inr ⟨method, later, notMain, same, counted⟩

/-- Findings without diagnostics are without errors. What was shown of trees without errors therefore holds here
too. -/
theorem Silent.clean {findings : List Finding} (silent : Silent findings) : Clean findings := by
  rw [Clean, ofSeverity, List.filterMap_eq_nil_iff]
  intro finding member
  cases finding with
  | diagnostic diagnostic => exact absurd member (silent diagnostic)
  | depth => rfl

section Grammatical

variable {given : Token → Prop} {tree : Tree} (grammatical : Source.Grammatical given tree)

include grammatical

/-- Behind a first pass without errors, the number of parameters of each method is known. A constant that had taken
the name of a method before would be an error. -/
theorem first_pass_counts (clean : Clean (firstPass tree).2.2) (method : Block) (member : method ∈ tree.methods)
    (name : Text) (same : method.name.fold = name.fold) :
    (firstPass tree).1.methodParamCount? name = some method.params.length := by
  have listed : method ∈ tree.blocks := List.mem_append_right _ member
  obtain ⟨cleanConstants, cleanBlocks⟩ := (clean_append _ _).mp clean
  have global := ((declare_constants_spec {} tree.constants).2 cleanConstants).scope
  exact declare_blocks_counts _ global tree.blocks cleanBlocks name _
    (.inr ⟨method, listed, (grammatical.contents.methods method member).1, same, rfl⟩)

/-- If analysis of a tree has no diagnostic, it notes the depths that follow from the table of stack uses, one block
after the other, and each block keeps its rules. All notes are those of the third pass, which finds the numbers of
parameters as the first pass has left them. -/
theorem check_silent (wellFormed : tree.WellFormed) (main : Block) (silent : Silent (check tree).findings) :
    noted (check tree).findings = (tree.blocks.map fun block => (tree.linked main).depths 0 block.code).flatten ∧
      ∀ block ∈ tree.blocks, Followed (tree.linked main) block := by
  rw [check_findings] at silent ⊢
  dsimp only at silent ⊢
  rw [silent_append, silent_append] at silent
  obtain ⟨⟨silentFirst, _⟩, silentBlocks⟩ := silent
  have cleanFirst := silentFirst.clean
  have inner := scope_inner grammatical
  rw [((first_pass_spec grammatical).2 cleanFirst).1] at silentBlocks ⊢
  have nothing : noted (firstPass tree).2.2 = [] := by
    change noted (_ ++ _) = []
    rw [noted_append, noted_declare_constants, noted_declare_blocks]
    rfl
  have agrees (block : Block) (member : block ∈ tree.blocks) (position : Position) (name : Ident)
      (listed : .instruction position .invokevirtual [name] ∈ block.statements) :
      ∃ method, (tree.linked main).method? name.name = some method ∧
        (collectLabels (firstPass tree).1 tree.blocks).1.methodParamCount? name.name = some method.params.length := by
    obtain ⟨before, after, split⟩ := List.append_of_mem listed
    obtain ⟨_, called⟩ := (wellFormed.blocks block member).methods before name ⟨position, after, split⟩
    obtain ⟨method, isMethod, same⟩ := List.mem_map.mp called
    refine ⟨method.linked, (methods_mirror wellFormed main name.name _).mpr ⟨method, isMethod, same, rfl⟩, ?_⟩
    rw [collect_labels_counts _ _ inner, first_pass_counts grammatical cleanFirst method isMethod name.name same]
    exact congrArg some (List.length_map _).symm
  obtain ⟨notes, followed⟩ := check_blocks_silent (tree.linked main) _ tree.blocks inner grammatical.instruction_shape _
    agrees silentBlocks
  refine ⟨?_, followed⟩
  rw [noted_append, noted_append, nothing, noted_collect_labels, notes]
  rfl

end Grammatical

end Analysis

end IntegerMachine
