import IntegerMachine.Proofs.Declarations

/-!
# Checking blocks

The third pass goes through a block with a table that changes: parameters and variables hide labels of the same
name, and a variable gets a value when it is stored into. `Shows` relates the table at a statement to the names
that the tree declares and to those that have a value so far. The relation is established by the declarations of
the block, kept by every instruction, and not touched by the other blocks, whose scopes are different. The stack
depth plays no part: what it gives rise to are warnings.
-/
namespace IntegerMachine.Analysis

open SymbolTable

/-! ## Changes within a scope -/

/-- The table `after` differs from the table `before` at most in the active scope. -/
structure Confined (before after : SymbolTable) : Prop where
  scope : after.scope = before.scope
  others : ∀ scope name, scope ≠ before.scope → after.info? scope name = before.info? scope name

namespace Confined

/-- A table that is not changed differs nowhere. -/
theorem refl (table : SymbolTable) : Confined table table := ⟨rfl, fun _ _ _ => rfl⟩

/-- Changes of the active scope can be put together, as the scope that is active stays the same. -/
theorem trans {before between after : SymbolTable} (earlier : Confined before between)
    (later : Confined between after) : Confined before after := by
  refine ⟨later.scope.trans earlier.scope, fun scope name elsewhere => ?_⟩
  rw [later.others scope name (by rwa [earlier.scope]), earlier.others scope name elsewhere]

/-- An addition goes to the active scope, so that all other scopes know what they knew. -/
theorem add (table : SymbolTable) (name : Text) (position : Position) (info : SymbolInfo) :
    Confined table (table.add name position info) := by
  refine ⟨rfl, fun scope asked elsewhere => ?_⟩
  rw [info_add, if_neg (fun same => elsewhere same.1.symm)]

/-- A mark goes to the active scope if the name is one of a variable there. Without this it might fall through to the
global scope. -/
theorem mark (table : SymbolTable) (name : Text) (isParam value : Bool)
    (known : table.info? table.scope name = some (.localVariable isParam value)) :
    Confined table (table.markInitialized name).2 := by
  refine ⟨scope_mark table name, fun scope asked elsewhere => ?_⟩
  rw [info_mark table name isParam value known, if_neg (fun same => elsewhere same.1.symm)]

/-- Kinds in other scopes stay as they are, in particular those of constants and methods, which are asked of the
global scope. -/
theorem kind {before after : SymbolTable} (confined : Confined before after) (scope name : Text)
    (elsewhere : scope ≠ before.scope) : after.kind? scope name = before.kind? scope name := by
  rw [kind?, kind?, confined.others scope name elsewhere]

end Confined

/-! ## Declarations of a block -/

/-- A name of the kind of variables is known as a variable, with one flag for parameters and one for values. -/
theorem variable_of_kind (table : SymbolTable) (scope name : Text)
    (kind : table.kind? scope name = some .localVariable) :
    ∃ isParam value, table.info? scope name = some (.localVariable isParam value) := by
  rw [kind?, Option.map_eq_some_iff] at kind
  obtain ⟨info, known, isVariable⟩ := kind
  cases info with
  | localVariable isParam value => exact ⟨isParam, value, known⟩
  | constant | method | label => cases isVariable

/-- Parameters are declared as variables with a value. In a scope without other variables, a parameter whose name is
declared already is one too, so that leaving it out changes nothing. -/
theorem declare_params_spec (table : SymbolTable) (params : List Ident)
    (onlyParams : ∀ name isParam value, table.info? table.scope name = some (.localVariable isParam value) →
      isParam = true ∧ value = true) :
    Confined table (declareParams table params) ∧ ∀ name,
      (declareParams table params).info? table.scope name =
        if name.fold ∈ params.map (fun param => param.name.fold) then some (.localVariable true true)
        else table.info? table.scope name := by
  fun_induction declareParams table params with
  | case1 table => exact ⟨Confined.refl table, by simp⟩
  | case2 table param rest symbol known ih =>
    obtain ⟨confined, infos⟩ := ih onlyParams
    refine ⟨confined, fun name => ?_⟩
    rw [infos]
    by_cases same : name.fold = param.name.fold
    · have kind : table.kind? table.scope param.name = some .localVariable := by
        apply Decidable.byContradiction
        intro other
        rw [(lookup_local_filter_none table param.name .localVariable).mpr other] at known
        cases known
      obtain ⟨isParam, value, info⟩ := variable_of_kind table table.scope param.name kind
      obtain ⟨rfl, rfl⟩ := onlyParams param.name isParam value info
      have asked : table.info? table.scope name = some (.localVariable true true) := by
        rw [← info, info?, info?, find?, find?]
        simp only [Symbol.named, same]
      simp [same, asked]
    · simp [same]
  | case3 table param rest unknown ih =>
    have added := Confined.add table param.name param.position (.localVariable true true)
    have onlyParamsAfter : ∀ name isParam value,
        (table.add param.name param.position (.localVariable true true)).info? table.scope name =
          some (.localVariable isParam value) → isParam = true ∧ value = true := by
      intro name isParam value known
      rw [info_add] at known
      split at known
      · cases known
        exact ⟨rfl, rfl⟩
      · exact onlyParams name isParam value known
    obtain ⟨confined, infos⟩ := ih onlyParamsAfter
    refine ⟨added.trans confined, fun name => ?_⟩
    rw [scope_add] at infos
    rw [infos, info_add]
    by_cases same : param.name.fold = name.fold
    · simp [same]
    · simp [same, Ne.symm same]

/-- Variables are declared without errors exactly if their names are different and no variable of the scope has one of
them before. They are then known as variables without a value. The induction carries the table, where each variable is
in the way of those behind it. -/
theorem declare_vars_spec (block : Text) (table : SymbolTable) (declared : List Ident) :
    (Clean (declareVars block table declared).2 ↔
      (declared.map fun ident => ident.name.fold).Nodup ∧
      ∀ ident ∈ declared, table.kind? table.scope ident.name ≠ some .localVariable) ∧
    (Clean (declareVars block table declared).2 →
      Confined table (declareVars block table declared).1 ∧ ∀ name,
        (declareVars block table declared).1.info? table.scope name =
          if name.fold ∈ declared.map (fun ident => ident.name.fold) then some (.localVariable false false)
          else table.info? table.scope name) := by
  fun_induction declareVars block table declared with
  | case1 table => exact ⟨by simp, fun _ => ⟨Confined.refl table, by simp⟩⟩
  | case2 table ident rest name known problem reported =>
    -- Only a variable of the scope is reported, and always as an error.
    have taken : problem.severity = .error ∧ table.kind? table.scope name = some .localVariable := by
      obtain ⟨symbol, found, isVariable⟩ := Option.bind_eq_some_iff.mp reported
      rw [lookupLocal?] at found
      rw [kind_of_found, found, Option.map_some, Symbol.kind]
      cases info : symbol.info with
      | localVariable isParam value =>
        rw [info] at isVariable
        cases isVariable
        cases isParam <;> exact ⟨rfl, rfl⟩
      | constant | method | label => simp [info] at isVariable
    rw [clean_found, taken.1]
    constructor
    · simp only [reduceCtorEq, false_and, false_iff]
      exact fun wellNamed => wellNamed.2 ident List.mem_cons_self taken.2
    · simp
  | case3 table ident rest name known unknown ih =>
    have fresh : table.kind? table.scope name ≠ some .localVariable := by
      intro kind
      obtain ⟨symbol, found, isVariable⟩ := Option.map_eq_some_iff.mp ((kind_of_found table _ name).symm.trans kind)
      have none := Option.bind_eq_none_iff.mp unknown symbol found
      rw [Symbol.kind] at isVariable
      cases info : symbol.info with
      | localVariable => simp [info] at none
      | constant | method | label => simp [info, SymbolInfo.kind] at isVariable
    have added := Confined.add table name ident.position (.localVariable false false)
    obtain ⟨cleanRest, infosRest⟩ := ih
    simp only [scope_add, kind_add, info_add, true_and] at cleanRest infosRest
    constructor
    · rw [cleanRest, List.forall_mem_cons, List.map_cons, List.nodup_cons]
      simp only [List.mem_map, not_exists, not_and]
      constructor
      · rintro ⟨distinct, others⟩
        refine ⟨⟨fun other listed same => ?_, distinct⟩, fresh, fun other listed kind => ?_⟩
        · exact others other listed (if_pos same.symm)
        · refine others other listed ?_
          rw [kind]
          exact ite_self _
      · rintro ⟨⟨absent, distinct⟩, _, others⟩
        refine ⟨distinct, fun other listed => ?_⟩
        rw [if_neg (fun same => absent other listed same.symm)]
        exact others other listed
    · intro clean
      obtain ⟨confined, infos⟩ := infosRest clean
      refine ⟨added.trans confined, fun asked => ?_⟩
      rw [infos]
      by_cases same : name.fold = asked.fold
      · simp [name, ← same]
      · simp [name, same, Ne.symm same]

/-! ## The table at a statement -/

/-- The table is the one behind the given statements of a block: the global scope holds the constants and methods of
the tree, and the active scope the locals of the block, with a value if they have got one. Other names of the
active scope are labels. -/
structure Shows (tree : Tree) (block : Block) (before : List Statement) (table : SymbolTable) : Prop where
  inner : table.scope ≠ globalScope
  globals : ∀ name, table.kind? globalScope name =
    if name.fold ∈ tree.constantNames then some .constant
    else if name.fold ∈ tree.methodNames then some .method else none
  declared : ∀ name, block.Declares name → ∃ isParam value,
    table.info? table.scope name = some (.localVariable isParam value) ∧
      (value = true ↔ block.Initialized before name)
  undeclared : ∀ name, ¬ block.Declares name →
    table.kind? table.scope name = none ∨ table.kind? table.scope name = some .label

namespace Shows

variable {tree : Tree} {block : Block} {before : List Statement} {table : SymbolTable}

/-- A local resolves to a variable, which has a value if the local has got one. It is found in the active scope, and
no label of its name is found before it. -/
theorem resolve_declared (shown : Shows tree block before table) (name : Text) (declared : block.Declares name) :
    ∃ symbol, resolve? table name = some symbol ∧ symbol.kind = .localVariable ∧
      (isInitialized symbol = true ↔ block.Initialized before name) := by
  obtain ⟨isParam, value, known, hasValue⟩ := shown.declared name declared
  obtain ⟨symbol, found, info⟩ := Option.map_eq_some_iff.mp known
  have kind : symbol.kind = .localVariable := by
    rw [Symbol.kind, info]
    rfl
  have resolved : resolve? table name = some symbol := by
    have visible : table.lookup? name = some symbol := by
      rw [lookup?, lookupLocal?, found]
      rfl
    simp [resolve?, visible, kind]
  refine ⟨symbol, resolved, kind, ?_⟩
  rw [isInitialized, info]
  exact hasValue

/-- A name that is not one of a local resolves to the global symbol, even if a label has the same name. Labels are
passed over here, since jumps look for them in a list of their own. -/
theorem resolve_undeclared (shown : Shows tree block before table) (name : Text) (free : ¬ block.Declares name) :
    (resolve? table name).map Symbol.kind = table.kind? globalScope name := by
  have inScope := shown.undeclared name free
  have noLabel := shown.globals name
  rw [kind_of_found] at inScope noLabel
  rw [kind_of_found, resolve?, lookup?, lookupLocal?, lookupGlobal?]
  cases found : table.find? table.scope name with
  | none =>
    cases outside : table.find? globalScope name with
    | none => rfl
    | some symbol =>
      have unlabelled : symbol.kind ≠ .label := by
        intro kind
        rw [outside, Option.map_some, kind] at noLabel
        split at noLabel
        · cases noLabel
        · split at noLabel <;> cases noLabel
      simp [unlabelled]
  | some symbol =>
    have labelled : symbol.kind = .label := by simpa [found] using inScope
    simp [labelled]

/-- Checking a name for a kind other than variables succeeds exactly if the name is not one of a local and is of that
kind globally. -/
theorem check_symbol_ok_iff (shown : Shows tree block before table) (ident : Ident) (kind : SymbolKind)
    (other : kind ≠ .localVariable) :
    (∃ symbol, checkSymbol table ident kind = .ok symbol) ↔
      ¬ block.Declares ident.name ∧ table.kind? globalScope ident.name = some kind := by
  by_cases declared : block.Declares ident.name
  · obtain ⟨symbol, resolved, isVariable, _⟩ := shown.resolve_declared ident.name declared
    simp [checkSymbol, resolved, isVariable, declared, other.symm]
  · rw [← shown.resolve_undeclared ident.name declared, checkSymbol]
    cases resolve? table ident.name with
    | none => simp
    | some symbol => by_cases same : symbol.kind = kind <;> simp [declared, same]

/-- A constant is accepted exactly if it is one and no local hides it. Whether the tree declares it can be read off
the names of its constants. -/
theorem check_constant_iff (shown : Shows tree block before table) (ident : Ident) :
    (∃ symbol, checkSymbol table ident .constant = .ok symbol) ↔
      ¬ block.Declares ident.name ∧ ident.name.fold ∈ tree.constantNames := by
  rw [shown.check_symbol_ok_iff ident .constant nofun, shown.globals]
  by_cases constant : ident.name.fold ∈ tree.constantNames
  · simp [constant]
  · by_cases method : ident.name.fold ∈ tree.methodNames <;> simp [constant, method]

/-- A method is accepted exactly if it is one and no local hides it. No method has the name of a constant, or else the
constant would be found in its place. -/
theorem check_method_iff (shown : Shows tree block before table)
    (apart : ∀ name ∈ tree.constantNames, name ∉ tree.methodNames) (ident : Ident) :
    (∃ symbol, checkSymbol table ident .method = .ok symbol) ↔
      ¬ block.Declares ident.name ∧ ident.name.fold ∈ tree.methodNames := by
  rw [shown.check_symbol_ok_iff ident .method nofun, shown.globals]
  by_cases constant : ident.name.fold ∈ tree.constantNames
  · simp [constant, apart _ constant]
  · by_cases method : ident.name.fold ∈ tree.methodNames <;> simp [constant, method]

/-- A use of a variable is accepted exactly if the name is one of a local that has a value if it is read. Nothing is
found then, not even a warning, so that a store goes on to mark its variable. -/
theorem check_variable_iff (shown : Shows tree block before table) (ident : Ident) (read : Bool) :
    (Clean (checkVariable table ident read) ↔
      block.Declares ident.name ∧ (read = true → block.Initialized before ident.name)) ∧
    (Clean (checkVariable table ident read) → checkVariable table ident read = []) := by
  by_cases declared : block.Declares ident.name
  · obtain ⟨symbol, resolved, isVariable, hasValue⟩ := shown.resolve_declared ident.name declared
    have checked : checkSymbol table ident .localVariable = .ok symbol := by
      simp [checkSymbol, resolved, isVariable]
    rw [← hasValue]
    cases read <;> cases value : isInitialized symbol <;>
      simp [checkVariable, checked, declared, value, Problem.severity]
  · have kind := shown.resolve_undeclared ident.name declared
    have noVariable : table.kind? globalScope ident.name ≠ some .localVariable := by
      rw [shown.globals]
      split
      · simp
      · split <;> simp
    rw [← kind] at noVariable
    cases resolved : resolve? table ident.name with
    | none => simp [checkVariable, checkSymbol, resolved, declared, Problem.severity]
    | some symbol =>
      have other : symbol.kind ≠ .localVariable := by simpa [resolved] using noVariable
      simp [checkVariable, checkSymbol, resolved, other, declared, Problem.severity]

end Shows

/-- A literal operand is accepted exactly if it is a literal. -/
theorem check_literal_iff (opcode : Opcode) (ident : Ident) :
    Clean (checkLiteral opcode ident) ↔ IsLiteral ident.name := by
  rw [checkLiteral, IsLiteral]
  cases Literal.parse ident.name <;> simp [Problem.severity]

/-- The target of a jump is accepted exactly if it is a label of the block. Labels of other blocks change the wording
of the error at most. -/
theorem check_label_iff (labels : Labels) (block : Block) (ident : Ident)
    (listed : labels.lookup (scopeOf block) = some block.labelNames) :
    Clean (checkLabel labels block ident) ↔ ident.name.fold ∈ block.labelNames := by
  rw [checkLabel, listed, Option.getD_some]
  split <;> simp [*, Problem.severity]

/-- What is found when a name is checked for its kind. -/
def foundIn : Except Finding Symbol → List Finding
  | .ok _ => []
  | .error finding => [finding]

/-- A name is checked without errors exactly if a symbol of the kind is found. Whatever else is found out about a name
is an error. -/
theorem found_in_clean_iff (table : SymbolTable) (ident : Ident) (kind : SymbolKind) :
    Clean (foundIn (checkSymbol table ident kind)) ↔ ∃ symbol, checkSymbol table ident kind = .ok symbol := by
  unfold checkSymbol
  split
  · simp [foundIn, Problem.severity]
  · split <;> simp [foundIn, Problem.severity]

/-! ## Instructions -/

/-- What the rules say about an instruction behind the given statements of a block. -/
def Accepts (tree : Tree) (block : Block) (before : List Statement) : Opcode → List Ident → Prop
  | .bipush, [literal] => IsLiteral literal.name
  | .iload, [name] => block.Declares name.name ∧ block.Initialized before name.name
  | .istore, [name] => block.Declares name.name
  | .iinc, [name, literal] =>
    (block.Declares name.name ∧ block.Initialized before name.name) ∧ IsLiteral literal.name
  | .ldcw, [name] => ¬ block.Declares name.name ∧ name.name.fold ∈ tree.constantNames
  | .invokevirtual, [name] => ¬ block.Declares name.name ∧ name.name.fold ∈ tree.methodNames
  | .goto, [name] | .ifeq, [name] | .iflt, [name] | .ificmpeq, [name] => name.name.fold ∈ block.labelNames
  | _, _ => True

/-- A local has got a value behind a statement if it had one before or if the statement stores into it. Jumps are not
looked at: what counts is the order of the text. -/
theorem initialized_snoc (block : Block) (before : List Statement) (statement : Statement) (name : Text) :
    block.Initialized (before ++ [statement]) name ↔ block.Initialized before name ∨
      ∃ position target, statement = .instruction position .istore [target] ∧ target.name.fold = name.fold := by
  simp only [Block.Initialized, List.mem_append, List.mem_singleton, or_and_right, exists_or, or_assoc]
  simp only [eq_comm (a := statement)]

namespace Shows

variable {tree : Tree} {block : Block} {before : List Statement} {table : SymbolTable}

/-- A statement that stores into nothing leaves the table right. The names that have a value behind it are those that
had one before it. -/
theorem after_other (shown : Shows tree block before table) (statement : Statement)
    (other : ∀ position target, statement ≠ .instruction position .istore [target]) :
    Shows tree block (before ++ [statement]) table := by
  refine ⟨shown.inner, shown.globals, fun name declared => ?_, shown.undeclared⟩
  obtain ⟨isParam, value, known, hasValue⟩ := shown.declared name declared
  refine ⟨isParam, value, known, ?_⟩
  rw [hasValue, initialized_snoc]
  simp [other]

/-- Marking the local into which a statement stores makes the table right again: of all names only this one has got a
value, and only this one is marked. -/
theorem after_store (shown : Shows tree block before table) (position : Position) (target : Ident)
    (declared : block.Declares target.name) :
    Confined table (table.markInitialized target.name).2 ∧
      Shows tree block (before ++ [.instruction position .istore [target]])
        (table.markInitialized target.name).2 := by
  obtain ⟨isParam, value, known, _⟩ := shown.declared target.name declared
  have confined := Confined.mark table target.name isParam value known
  refine ⟨confined, ?_⟩
  have marked := info_mark table target.name isParam value known table.scope
  simp only [true_and] at marked
  refine ⟨by simpa using shown.inner, fun name => ?_, fun name listed => ?_, fun name free => ?_⟩
  · rw [confined.kind globalScope name shown.inner.symm]
    exact shown.globals name
  · simp only [scope_mark, marked, initialized_snoc]
    by_cases same : target.name.fold = name.fold
    · exact ⟨isParam, true, if_pos same, fun _ => .inr ⟨position, target, rfl, same⟩, fun _ => rfl⟩
    · obtain ⟨ownParam, ownValue, ownKnown, hasValue⟩ := shown.declared name listed
      exact ⟨ownParam, ownValue, by rw [if_neg same, ownKnown], by simp [hasValue, same]⟩
  · have different : target.name.fold ≠ name.fold := by
      intro same
      rw [Block.Declares, same] at declared
      exact free declared
    rw [scope_mark, kind?, marked, if_neg different]
    exact shown.undeclared name free

end Shows

/-- An instruction with the operands that it wants is checked without errors exactly if it keeps the rules. The table
is then right behind it. There is one case for each opcode, as each has its own rule. -/
theorem check_operands_spec {tree : Tree} {block : Block} {before : List Statement} {table : SymbolTable}
    (shown : Shows tree block before table) (apart : ∀ name ∈ tree.constantNames, name ∉ tree.methodNames)
    (labels : Labels) (listed : labels.lookup (scopeOf block) = some block.labelNames) (position : Position)
    (opcode : Opcode) (operands : List Ident) (assigned : opcode ∈ Opcode.instructions)
    (count : operands.length = opcode.operands.count) :
    (Clean (checkOperands labels block table position opcode operands).2.1 ↔
      Accepts tree block before opcode operands) ∧
    (Clean (checkOperands labels block table position opcode operands).2.1 →
      Confined table (checkOperands labels block table position opcode operands).1 ∧
      Shows tree block (before ++ [.instruction position opcode operands])
        (checkOperands labels block table position opcode operands).1) := by
  have unchanged (other : opcode ≠ .istore) :
      Confined table table ∧ Shows tree block (before ++ [.instruction position opcode operands]) table := by
    refine ⟨Confined.refl table, shown.after_other _ ?_⟩
    intro place target same
    cases same
    exact other rfl
  cases opcode with
  | label => exact absurd assigned (by decide)
  | unassigned code => exact absurd assigned (by simp [Opcode.instructions, Opcode.all])
  | bipush =>
    obtain ⟨literal, rfl⟩ := List.length_eq_one_iff.mp count
    exact ⟨check_literal_iff .bipush literal, fun _ => unchanged nofun⟩
  | goto | ifeq | iflt | ificmpeq =>
    obtain ⟨name, rfl⟩ := List.length_eq_one_iff.mp count
    exact ⟨check_label_iff labels block name listed, fun _ => unchanged nofun⟩
  | iload =>
    obtain ⟨name, rfl⟩ := List.length_eq_one_iff.mp count
    obtain ⟨accepted, _⟩ := shown.check_variable_iff name true
    simp only [true_implies] at accepted
    exact ⟨accepted, fun _ => unchanged nofun⟩
  | istore =>
    obtain ⟨name, rfl⟩ := List.length_eq_one_iff.mp count
    obtain ⟨accepted, nothing⟩ := shown.check_variable_iff name false
    simp only [Bool.false_eq_true, false_implies, and_true] at accepted
    refine ⟨accepted, fun clean => ?_⟩
    have marked : (checkOperands labels block table position .istore [name]).1 =
        (table.markInitialized name.name).2 := by
      change (if (checkVariable table name false).isEmpty then _ else table) = _
      rw [nothing clean]
      rfl
    rw [marked]
    exact shown.after_store position name (accepted.mp clean)
  | iinc =>
    obtain ⟨name, rest, rfl⟩ := List.exists_cons_of_length_eq_add_one count
    obtain ⟨literal, rfl⟩ := List.length_eq_one_iff.mp (Nat.succ.inj count)
    obtain ⟨accepted, _⟩ := shown.check_variable_iff name true
    simp only [true_implies] at accepted
    refine ⟨?_, fun _ => unchanged nofun⟩
    change Clean (checkVariable table name true ++ checkLiteral .iinc literal) ↔ _
    rw [clean_append, accepted, check_literal_iff]
    rfl
  | ldcw =>
    obtain ⟨name, rfl⟩ := List.length_eq_one_iff.mp count
    have checked : checkOperands labels block table position .ldcw [name] =
        (table, foundIn (checkSymbol table name .constant), stackUse .ldcw) := by
      change (match checkSymbol table name .constant with | .ok _ => _ | .error finding => _) = _
      cases checkSymbol table name .constant <;> rfl
    rw [checked]
    exact ⟨(found_in_clean_iff table name .constant).trans (shown.check_constant_iff name),
      fun _ => unchanged nofun⟩
  | invokevirtual =>
    obtain ⟨name, rfl⟩ := List.length_eq_one_iff.mp count
    have checked : ∃ use, checkOperands labels block table position .invokevirtual [name] =
        (table, foundIn (checkSymbol table name .method), use) := by
      unfold checkOperands
      change ∃ use, (match checkSymbol table name .method with
        | .ok _ => (table, [], callUse ((table.methodParamCount? name.name).getD 0))
        | .error finding => (table, [finding], callUse 0)) = _
      cases checkSymbol table name .method <;> exact ⟨_, rfl⟩
    obtain ⟨use, checked⟩ := checked
    rw [checked]
    exact ⟨(found_in_clean_iff table name .method).trans (shown.check_method_iff apart name),
      fun _ => unchanged nofun⟩
  | dup | halt | iadd | iand | input | ior | ireturn | isub | nop | output | pop | swap =>
    exact ⟨by simp [checkOperands, Accepts], fun _ => unchanged nofun⟩

/-! ## Blocks -/

/-- A lack of values on the stack is no error. It is a warning, so that the depth can be left out of what follows. -/
@[simp] theorem clean_check_depth (position : Position) (opcode : Opcode) (use : StackUse) (depth : Nat) :
    Clean (checkDepth position opcode use depth) := by
  rw [checkDepth]
  split <;> simp [Problem.severity]

/-- Something holds of every element and those before it exactly if it holds of the first element and of every later
one and those before it. Rules about statements are of this form, and this is how an induction goes through them. -/
theorem forall_split_cons {Element : Type} (holds : List Element → Element → Prop) (first : Element)
    (rest : List Element) :
    (∀ before element after, first :: rest = before ++ element :: after → holds before element) ↔
      holds [] first ∧
        ∀ before element after, rest = before ++ element :: after → holds (first :: before) element := by
  constructor
  · intro all
    refine ⟨all [] first rest rfl, fun before element after split => ?_⟩
    exact all (first :: before) element after (by rw [split, List.cons_append])
  · rintro ⟨own, later⟩ before element after split
    cases before with
    | nil =>
      obtain ⟨rfl, _⟩ := List.cons.inj split
      exact own
    | cons head before =>
      obtain ⟨rfl, splitRest⟩ := List.cons.inj split
      exact later before element after splitRest

/-- What the rules say about a statement behind the given ones: there are none for labels. -/
def AcceptsStatement (tree : Tree) (block : Block) (before : List Statement) : Statement → Prop
  | .label .. => True
  | .instruction _ opcode operands => Accepts tree block before opcode operands

/-- Statements behind the given ones are checked without errors exactly if each keeps the rules. The induction is on
the statements that are left; the invariant is that the table shows what the statements so far have made of it. -/
theorem check_statements_spec {tree : Tree} {block : Block}
    (apart : ∀ name ∈ tree.constantNames, name ∉ tree.methodNames) (labels : Labels)
    (listed : labels.lookup (scopeOf block) = some block.labelNames) (statements : List Statement)
    (shape : ∀ position opcode operands, .instruction position opcode operands ∈ statements →
      opcode ∈ Opcode.instructions ∧ operands.length = opcode.operands.count)
    (before : List Statement) (table : SymbolTable) (depth : Nat) (shown : Shows tree block before table) :
    (Clean (checkStatements labels block table depth statements).2 ↔
      ∀ between statement after, statements = between ++ statement :: after →
        AcceptsStatement tree block (before ++ between) statement) ∧
    (Clean (checkStatements labels block table depth statements).2 →
      Confined table (checkStatements labels block table depth statements).1) := by
  induction statements generalizing before table depth with
  | nil => exact ⟨by simp [checkStatements], fun _ => Confined.refl table⟩
  | cons statement rest ih =>
    have shapeRest : ∀ position opcode operands, .instruction position opcode operands ∈ rest →
        opcode ∈ Opcode.instructions ∧ operands.length = opcode.operands.count :=
      fun position opcode operands member => shape position opcode operands (List.mem_cons_of_mem _ member)
    rw [forall_split_cons (fun between statement => AcceptsStatement tree block (before ++ between) statement)]
    rw [List.append_nil]
    cases statement with
    | label position name =>
      have later := ih shapeRest _ table depth (shown.after_other (.label position name) nofun)
      simp only [List.append_assoc, List.singleton_append] at later
      exact ⟨later.1.trans ⟨fun all => ⟨trivial, all⟩, And.right⟩, later.2⟩
    | instruction position opcode operands =>
      obtain ⟨assigned, count⟩ := shape position opcode operands List.mem_cons_self
      obtain ⟨cleanOwn, behind⟩ :=
        check_operands_spec shown apart labels listed position opcode operands assigned count
      generalize checked : checkOperands labels block table position opcode operands = own at cleanOwn behind
      obtain ⟨tableAfter, findings, use⟩ := own
      have unfolded : checkStatements labels block table depth (.instruction position opcode operands :: rest) =
          ((checkStatements labels block tableAfter (use.after depth) rest).1,
            findings ++ checkDepth position opcode use depth ++ .depth position opcode (use.after depth) ::
              (checkStatements labels block tableAfter (use.after depth) rest).2) := by
        rw [checkStatements, checked]
      have later (clean : Clean findings) :=
        ih shapeRest _ tableAfter (use.after depth) (behind clean).2
      simp only [List.append_assoc, List.singleton_append] at later
      rw [unfolded]
      simp only [clean_append, clean_check_depth, clean_depth, and_true]
      constructor
      · constructor
        · rintro ⟨clean, cleanRest⟩
          exact ⟨cleanOwn.mp clean, (later clean).1.mp cleanRest⟩
        · rintro ⟨accepted, acceptedRest⟩
          have clean := cleanOwn.mpr accepted
          exact ⟨clean, (later clean).1.mpr acceptedRest⟩
      · rintro ⟨clean, cleanRest⟩
        exact (behind clean).1.trans ((later clean).2 cleanRest)

/-- The place of declarations is accepted exactly if no statement stands on a line before them. A statement on the
line of the declarations is not in front of them, whatever its column. -/
theorem check_placement_iff (block : Block) :
    Clean (checkPlacement block) ↔ ∀ declared ∈ block.vars, ∀ statement ∈ block.statements,
      declared.position.line ≤ statement.position.line := by
  have ordered : misplaced block = false ↔ ∀ declared ∈ block.vars, ∀ statement ∈ block.statements,
      declared.position.line ≤ statement.position.line := by
    simp [misplaced]
  rw [← ordered, checkPlacement]
  cases wrong : misplaced block with
  | false => simp
  | true =>
    -- Something is misplaced, so that there are declarations to be reported.
    obtain ⟨declared, member, _⟩ := List.any_eq_true.mp wrong
    obtain ⟨first, rest, split⟩ := List.exists_cons_of_ne_nil (List.ne_nil_of_mem member)
    simp [split, Problem.severity]

/-- Instructions behind a return are no error. They are reported as warnings. -/
theorem clean_check_unreachable (code : List (Position × Opcode)) : Clean (checkUnreachable code) := by
  fun_induction checkUnreachable code with
  | case1 first second rest ih =>
    rw [clean_append]
    refine ⟨?_, ih⟩
    split <;> simp [Problem.severity]
  | case2 => rfl

/-- An opcode is one of the instructions of a block exactly if the block has it behind some statements. The check goes
by the list of instructions, and the rules by the statements. -/
theorem mem_instructions_of {block : Block} {opcode : Opcode} :
    (∃ position, (position, opcode) ∈ instructionsOf block) ↔ ∃ before operands, block.Has before opcode operands := by
  simp only [instructionsOf, List.mem_filterMap]
  constructor
  · rintro ⟨position, statement, member, found⟩
    cases statement with
    | label => cases found
    | instruction place own operands =>
      cases found
      obtain ⟨before, after, split⟩ := List.append_of_mem member
      exact ⟨before, operands, position, after, split⟩
  · rintro ⟨before, operands, position, after, split⟩
    exact ⟨position, .instruction position opcode operands, by simp [split], rfl⟩

/-- The end of a block is accepted exactly if it is the main block or it has a return somewhere. A return that is not
the last instruction is reported, but only as a warning. -/
theorem check_return_iff (block : Block) :
    Clean (checkReturn block) ↔
      block.isMain = true ∨ ∃ before operands, block.Has before .ireturn operands := by
  rw [← mem_instructions_of, checkReturn]
  cases block.isMain with
  | true => simp
  | false =>
    have returns : (∃ position, (position, .ireturn) ∈ instructionsOf block) ↔
        (instructionsOf block).any (fun instruction => instruction.2 = .ireturn) = true := by
      simp
    simp only [Bool.false_or, Bool.false_eq_true, false_or, returns]
    split
    · rename_i last
      obtain ⟨instruction, found, isReturn⟩ := Option.map_eq_some_iff.mp (beq_iff_eq.mp last)
      have member := List.mem_of_getLast? found
      simp only [clean_nil, true_iff, List.any_eq_true]
      exact ⟨instruction, member, by simpa using isReturn⟩
    · split <;> simp [*, Problem.severity]

/-- The rules for the instructions of a block, taken together. Labels have no rules, so that it makes no difference
whether statements or instructions are gone through. -/
theorem accepts_iff_rules (tree : Tree) (block : Block) :
    (∀ before statement after, block.statements = before ++ statement :: after →
      AcceptsStatement tree block before statement) ↔
    ∀ before opcode operands, block.Has before opcode operands → Accepts tree block before opcode operands := by
  constructor
  · rintro all before opcode operands ⟨position, after, split⟩
    exact all before _ after split
  · intro all before statement after split
    cases statement with
    | label => trivial
    | instruction position opcode operands => exact all before opcode operands ⟨position, after, split⟩

/-- Parameters and variables have different names exactly if each of the two lists has and no variable is called like
a parameter. The first of these is found out in the first pass, and the other two in the third. -/
theorem local_names_nodup_iff (block : Block) :
    block.localNames.Nodup ↔ block.paramNames.Nodup ∧
      (block.variables.map fun ident => ident.name.fold).Nodup ∧
      ∀ ident ∈ block.variables, ident.name.fold ∉ block.paramNames := by
  rw [Block.localNames, List.nodup_append]
  refine and_congr_right fun _ => and_congr_right fun _ => ?_
  constructor
  · intro different ident member isParam
    exact different _ isParam _ (List.mem_map.mpr ⟨ident, member, rfl⟩) rfl
  · rintro apart param isParam _ isVariable rfl
    obtain ⟨ident, member, same⟩ := List.mem_map.mp isVariable
    exact apart ident member (same ▸ isParam)

/-- A block keeps the rules exactly if its declarations do and each of its instructions does. The rules are stated
opcode by opcode, and here they are one rule for all of them. -/
theorem well_formed_iff (tree : Tree) (block : Block) :
    block.WellFormed tree ↔ block.localNames.Nodup ∧ block.labelNames.Nodup ∧
      (∀ declared ∈ block.vars, ∀ statement ∈ block.statements,
        declared.position.line ≤ statement.position.line) ∧
      ∀ before opcode operands, block.Has before opcode operands → Accepts tree block before opcode operands := by
  constructor
  · intro rules
    refine ⟨rules.locals, rules.labels, rules.placement, fun before opcode operands has => ?_⟩
    unfold Accepts
    split
    · exact rules.pushed before _ has
    · exact rules.loaded before _ has
    · exact rules.stored before _ has
    · exact ⟨rules.increased before _ _ has, rules.added before _ _ has⟩
    · exact rules.constants before _ has
    · exact rules.methods before _ has
    · exact rules.targets before _ _ rfl has
    · exact rules.targets before _ _ rfl has
    · exact rules.targets before _ _ rfl has
    · exact rules.targets before _ _ rfl has
    · trivial
  · rintro ⟨locals, labels, placement, accepted⟩
    refine ⟨locals, labels, placement, ?_, ?_, ?_, ?_, ?_, ?_, ?_, ?_⟩
    · exact fun before literal has => accepted before _ _ has
    · exact fun before name literal has => (accepted before _ _ has).2
    · exact fun before name has => accepted before _ _ has
    · exact fun before name has => accepted before _ _ has
    · exact fun before name literal has => (accepted before _ _ has).1
    · exact fun before name has => accepted before _ _ has
    · exact fun before name has => accepted before _ _ has
    · intro before opcode name isJump has
      have target := accepted before opcode [name] has
      cases opcode <;> first | exact target | cases isJump

/-- The table knows the constants and methods of the tree, and in the scope of the block, which is not the global
one, labels at most. -/
structure Ready (tree : Tree) (table : SymbolTable) (block : Block) : Prop where
  inner : scopeOf block ≠ globalScope
  globals : ∀ name, table.kind? globalScope name =
    if name.fold ∈ tree.constantNames then some .constant
    else if name.fold ∈ tree.methodNames then some .method else none
  onlyLabels : ∀ name, table.kind? (scopeOf block) name = none ∨ table.kind? (scopeOf block) name = some .label

/-- At the first statement exactly the parameters have a value. -/
theorem initialized_nil (block : Block) (name : Text) :
    block.Initialized [] name ↔ name.fold ∈ block.paramNames := by
  simp [Block.Initialized]

/-- Once the parameters are known with a value and the variables without one, the table is right at the first
statement. A label may be called like a local, which hides it. -/
theorem Ready.shows {tree : Tree} {table : SymbolTable} {block : Block} (ready : Ready tree table block)
    {after : SymbolTable} (confined : Confined (table.enter (scopeOf block)) after)
    (apart : ∀ ident ∈ block.variables, ident.name.fold ∉ block.paramNames)
    (infos : ∀ name, after.info? (scopeOf block) name =
      if name.fold ∈ block.variables.map (fun ident => ident.name.fold) then some (.localVariable false false)
      else if name.fold ∈ block.paramNames then some (.localVariable true true)
      else table.info? (scopeOf block) name) : Shows tree block [] after := by
  have scope : after.scope = scopeOf block := confined.scope
  refine ⟨by rw [scope]; exact ready.inner, fun name => ?_, fun name declared => ?_, fun name free => ?_⟩
  · rw [confined.kind globalScope name ready.inner.symm]
    exact ready.globals name
  · rw [scope, infos]
    simp only [initialized_nil]
    by_cases isVariable : name.fold ∈ block.variables.map (fun ident => ident.name.fold)
    · obtain ⟨ident, listed, same⟩ := List.mem_map.mp isVariable
      have notParam : name.fold ∉ block.paramNames := same ▸ apart ident listed
      exact ⟨false, false, by rw [if_pos isVariable], by simp [notParam]⟩
    · have isParam : name.fold ∈ block.paramNames :=
        (List.mem_append.mp declared).resolve_right isVariable
      exact ⟨true, true, by rw [if_neg isVariable, if_pos isParam], by simp [isParam]⟩
  · have neither : name.fold ∉ block.paramNames ∧
        name.fold ∉ block.variables.map fun ident => ident.name.fold := by
      rw [← not_or, ← List.mem_append]
      exact free
    rw [scope, kind?, infos, if_neg neither.2, if_neg neither.1]
    exact ready.onlyLabels name

/-- Variables are declared behind the parameters without errors exactly if they have different names that no parameter
has. The table is then right at the first statement, and changed in the scope of the block only. -/
theorem declare_locals_spec {tree : Tree} {table : SymbolTable} {block : Block} (ready : Ready tree table block) :
    let entered := table.enter (scopeOf block)
    let declared := declareVars block.name (declareParams entered block.params) block.variables
    (Clean declared.2 ↔ (block.variables.map fun ident => ident.name.fold).Nodup ∧
      ∀ ident ∈ block.variables, ident.name.fold ∉ block.paramNames) ∧
    (Clean declared.2 → Confined entered declared.1 ∧ Shows tree block [] declared.1) := by
  intro entered declared
  have noVariable : ∀ name, entered.kind? entered.scope name ≠ some .localVariable := by
    intro name
    change table.kind? (scopeOf block) name ≠ _
    rcases ready.onlyLabels name with unknown | labelled
    · rw [unknown]
      nofun
    · rw [labelled]
      nofun
  have onlyParams : ∀ name isParam value, entered.info? entered.scope name = some (.localVariable isParam value) →
      isParam = true ∧ value = true := by
    intro name isParam value known
    exact absurd (congrArg (Option.map SymbolInfo.kind) known) (noVariable name)
  obtain ⟨confinedParams, infosParams⟩ := declare_params_spec entered block.params onlyParams
  obtain ⟨cleanVars, infosVars⟩ :=
    declare_vars_spec block.name (declareParams entered block.params) block.variables
  rw [confinedParams.scope] at cleanVars infosVars
  have kindParams : ∀ name, (declareParams entered block.params).kind? entered.scope name =
      if name.fold ∈ block.paramNames then some .localVariable else entered.kind? entered.scope name := by
    intro name
    rw [kind?, infosParams, apply_ite (Option.map SymbolInfo.kind)]
    rfl
  have cleanIff : Clean declared.2 ↔ (block.variables.map fun ident => ident.name.fold).Nodup ∧
      ∀ ident ∈ block.variables, ident.name.fold ∉ block.paramNames := by
    refine cleanVars.trans (and_congr_right fun _ => forall_congr' fun ident => imp_congr_right fun _ => ?_)
    rw [kindParams]
    by_cases isParam : ident.name.fold ∈ block.paramNames
    · simp [isParam]
    · simpa [isParam] using noVariable ident.name
  refine ⟨cleanIff, fun clean => ?_⟩
  obtain ⟨confinedVars, infos⟩ := infosVars clean
  have confined := confinedParams.trans confinedVars
  refine ⟨confined, ready.shows confined (cleanIff.mp clean).2 fun name => ?_⟩
  exact (infos name).trans (congrArg _ (infosParams name))

/-- What the third pass asks of a block. -/
structure Faultless (tree : Tree) (block : Block) : Prop where
  distinct : (block.variables.map fun ident => ident.name.fold).Nodup
  apart : ∀ ident ∈ block.variables, ident.name.fold ∉ block.paramNames
  placement : ∀ declared ∈ block.vars, ∀ statement ∈ block.statements,
    declared.position.line ≤ statement.position.line
  instructions : ∀ before opcode operands, block.Has before opcode operands →
    Accepts tree block before opcode operands
  returns : block.isMain = true ∨ ∃ before operands, block.Has before .ireturn operands

/-- A block is checked without errors exactly if it is faultless. Other scopes are not changed then, so that the table
stays ready for the blocks that follow. -/
theorem check_block_spec {tree : Tree} {table : SymbolTable} {block : Block} (ready : Ready tree table block)
    (apart : ∀ name ∈ tree.constantNames, name ∉ tree.methodNames) (labels : Labels)
    (listed : labels.lookup (scopeOf block) = some block.labelNames)
    (shape : ∀ position opcode operands, .instruction position opcode operands ∈ block.statements →
      opcode ∈ Opcode.instructions ∧ operands.length = opcode.operands.count) :
    (Clean (checkBlock labels table block).2 ↔ Faultless tree block) ∧
    (Clean (checkBlock labels table block).2 → ∀ scope name, scope ≠ scopeOf block →
      (checkBlock labels table block).1.info? scope name = table.info? scope name) := by
  obtain ⟨cleanLocals, shows⟩ := declare_locals_spec ready
  generalize reached : declareVars block.name (declareParams (table.enter (scopeOf block)) block.params)
    block.variables = declared at cleanLocals shows
  have unfolded : checkBlock labels table block =
      ((checkStatements labels block declared.1 0 block.statements).1.exit,
        checkPlacement block ++ declared.2 ++ (checkStatements labels block declared.1 0 block.statements).2 ++
          checkUnreachable (instructionsOf block) ++ checkReturn block) := by
    rw [← reached]
    rfl
  have checked (clean : Clean declared.2) :=
    check_statements_spec apart labels listed block.statements shape [] declared.1 0 (shows clean).2
  simp only [List.nil_append, accepts_iff_rules] at checked
  rw [unfolded]
  simp only [clean_append, clean_check_unreachable, and_true, check_placement_iff, check_return_iff]
  constructor
  · constructor
    · rintro ⟨⟨⟨placement, clean⟩, cleanStatements⟩, returns⟩
      obtain ⟨distinct, apart⟩ := cleanLocals.mp clean
      exact ⟨distinct, apart, placement, (checked clean).1.mp cleanStatements, returns⟩
    · intro faultless
      have clean := cleanLocals.mpr ⟨faultless.distinct, faultless.apart⟩
      exact ⟨⟨⟨faultless.placement, clean⟩, (checked clean).1.mpr faultless.instructions⟩, faultless.returns⟩
  · rintro ⟨⟨⟨_, clean⟩, cleanStatements⟩, _⟩ scope name elsewhere
    exact ((shows clean).1.trans ((checked clean).2 cleanStatements)).others scope name elsewhere

/-- Blocks with scopes of their own are checked without errors exactly if each is faultless. In the induction, the
table behind the first block is ready for the others because it differs in the scope of that block only. -/
theorem check_blocks_spec {tree : Tree} (apart : ∀ name ∈ tree.constantNames, name ∉ tree.methodNames)
    (labels : Labels) (blocks : List Block) (scopes : (blocks.map scopeOf).Nodup)
    (listed : ∀ block ∈ blocks, labels.lookup (scopeOf block) = some block.labelNames)
    (shape : ∀ block ∈ blocks, ∀ position opcode operands,
      .instruction position opcode operands ∈ block.statements →
        opcode ∈ Opcode.instructions ∧ operands.length = opcode.operands.count)
    (table : SymbolTable) (ready : ∀ block ∈ blocks, Ready tree table block) :
    Clean (checkBlocks labels table blocks).2 ↔ ∀ block ∈ blocks, Faultless tree block := by
  induction blocks generalizing table with
  | nil => simp [checkBlocks]
  | cons block rest ih =>
    rw [List.map_cons, List.nodup_cons] at scopes
    rw [List.forall_mem_cons] at listed shape ready
    obtain ⟨cleanOwn, elsewhere⟩ := check_block_spec ready.1 apart labels listed.1 shape.1
    have unfolded : (checkBlocks labels table (block :: rest)).2 = (checkBlock labels table block).2 ++
        (checkBlocks labels (checkBlock labels table block).1 rest).2 := rfl
    have readyAfter (clean : Clean (checkBlock labels table block).2) :
        ∀ other ∈ rest, Ready tree (checkBlock labels table block).1 other := by
      intro other member
      have own := ready.2 other member
      have different : scopeOf other ≠ scopeOf block :=
        fun same => scopes.1 (List.mem_map.mpr ⟨other, member, same⟩)
      refine ⟨own.inner, fun name => ?_, fun name => ?_⟩
      · rw [kind?, elsewhere clean globalScope name ready.1.inner.symm]
        exact own.globals name
      · rw [kind?, elsewhere clean (scopeOf other) name different]
        exact own.onlyLabels name
    have later (clean : Clean (checkBlock labels table block).2) :=
      ih scopes.2 listed.2 shape.2 _ (readyAfter clean)
    rw [unfolded, clean_append, List.forall_mem_cons]
    constructor
    · rintro ⟨clean, cleanRest⟩
      exact ⟨cleanOwn.mp clean, (later clean).mp cleanRest⟩
    · rintro ⟨faultless, faultlessRest⟩
      have clean := cleanOwn.mpr faultless
      exact ⟨clean, (later clean).mpr faultlessRest⟩

end IntegerMachine.Analysis
