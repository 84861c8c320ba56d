import IntegerMachine.Proofs.Declarations

/-!
# What the check of a block sees

All blocks share one table of symbols. From a scope only its own symbols and the global ones are seen. The functions
that go through a block look up names in its scope and in the global one, and they change symbols of its scope only;
a mark may fall through to the global scope, but there are no variables.

There are two kinds of laws. Within a block, every function does the same on the table without the symbols that are
not seen. And a block leaves alone what is seen from the scope of another block, because all that it does to the table
is to add symbols to its scope and to mark variables.
-/
namespace IntegerMachine

/-- A symbol is seen from its scope, and from every scope if it is global. -/
def Symbol.isSeenFrom (scope : Text) (symbol : Symbol) : Bool := symbol.scope == scope || symbol.scope == globalScope

/-- The test of the two scopes as a proposition. Both alternatives may hold at once, when the scope that is asked for
is the global one. -/
theorem Symbol.is_seen_iff (scope : Text) (symbol : Symbol) :
    symbol.isSeenFrom scope = true ↔ symbol.scope = scope ∨ symbol.scope = globalScope := by
  simp [Symbol.isSeenFrom]

namespace SymbolTable

/-- The symbols of a table that are seen from a scope. -/
def seen (table : SymbolTable) (scope : Text) : List Symbol := table.symbols.filter (Symbol.isSeenFrom scope)

/-- The table without the symbols that are not seen from its active scope. -/
def visible (table : SymbolTable) : SymbolTable := { table with symbols := table.seen table.scope }

/-! ## Look-up among what is seen -/

/-- A symbol of the active scope or of the global one is found among those that are seen. The order of the symbols is
kept, so that the first match stays the first. -/
theorem find_visible (table : SymbolTable) (scope name : Text) (reached : scope = table.scope ∨ scope = globalScope) :
    table.visible.find? scope name = table.find? scope name := by
  rw [find?, find?, visible, seen, List.find?_filter]
  refine congrArg (fun test => table.symbols.find? test) (funext fun symbol => ?_)
  -- A symbol that is not seen has another scope, and so it would not have been found.
  cases named : symbol.named scope name with
  | false => simp
  | true =>
    have own := ((symbol.named_iff scope name).mp named).1
    have isSeen : symbol.isSeenFrom table.scope = true := (symbol.is_seen_iff table.scope).mpr (own ▸ reached)
    simp [isSeen]

/-- Look-up in the active scope does not meet the symbols that are left out. -/
@[simp] theorem lookup_local_visible (table : SymbolTable) (name : Text) :
    table.visible.lookupLocal? name = table.lookupLocal? name := table.find_visible table.scope name (.inl rfl)

/-- Look-up in the global scope does not meet them either, since global symbols are seen from everywhere. -/
@[simp] theorem lookup_global_visible (table : SymbolTable) (name : Text) :
    table.visible.lookupGlobal? name = table.lookupGlobal? name := table.find_visible globalScope name (.inr rfl)

/-- Look-up in both scopes, one after the other. -/
@[simp] theorem lookup_visible (table : SymbolTable) (name : Text) :
    table.visible.lookup? name = table.lookup? name := by
  rw [lookup?, lookup?, lookup_local_visible, lookup_global_visible]

/-- The number of parameters of a method is asked of the global scope, whichever block calls it. -/
@[simp] theorem param_count_visible (table : SymbolTable) (name : Text) :
    table.visible.methodParamCount? name = table.methodParamCount? name := by
  rw [methodParamCount?, methodParamCount?, lookup_global_visible]

/-- A symbol that is found by its name belongs to the active scope or to the global one. A mark is made where the
symbol was found, so this says where marks can go. -/
theorem lookup_scope {table : SymbolTable} {name : Text} {symbol : Symbol} (found : table.lookup? name = some symbol) :
    symbol ∈ table.symbols ∧ (symbol.scope = table.scope ∨ symbol.scope = globalScope) := by
  rw [lookup?, Option.or_eq_some_iff] at found
  rcases found with own | ⟨-, global⟩
  · exact ⟨List.mem_of_find?_eq_some own, .inl (table.found_named _ _ _ own).1⟩
  · exact ⟨List.mem_of_find?_eq_some global, .inr (table.found_named _ _ _ global).1⟩

/-! ## Changes among what is seen -/

/-- What is added to the active scope is seen from there. Leaving out the unseen symbols before or after the addition
is the same. -/
theorem add_visible (table : SymbolTable) (name : Text) (position : Position) (info : SymbolInfo) :
    table.visible.add name position info = (table.add name position info).visible := by
  have isSeen : Symbol.isSeenFrom table.scope { name, scope := table.scope, position, info } = true :=
    (Symbol.is_seen_iff _ _).mpr (.inl rfl)
  rw [visible, seen, visible, seen, add, add, List.filter_cons_of_pos isSeen]

/-- What is added to a scope is seen from no other one, unless it is global. The main block and methods never add to
the global scope once they have entered their own. -/
theorem add_unseen {table : SymbolTable} {scope : Text} (elsewhere : table.scope ≠ scope)
    (inner : table.scope ≠ globalScope) (name : Text) (position : Position) (info : SymbolInfo) :
    (table.add name position info).seen scope = table.seen scope := by
  have unseen : Symbol.isSeenFrom scope { name, scope := table.scope, position, info } ≠ true := by
    rw [Ne, Symbol.is_seen_iff]
    exact not_or.mpr ⟨elsewhere, inner⟩
  rw [seen, add, List.filter_cons_of_neg unseen]
  rfl

/-- Changing a symbol that is seen changes it among those that are seen. The symbols in front of it that are not seen
have other scopes, so none of them is the first match. -/
theorem update_seen {scope asked : Text} (reached : asked = scope ∨ asked = globalScope) (name : Text)
    (change : SymbolInfo → SymbolInfo) (symbols : List Symbol) :
    (update asked name change symbols).filter (Symbol.isSeenFrom scope) =
      update asked name change (symbols.filter (Symbol.isSeenFrom scope)) := by
  induction symbols with
  | nil => rfl
  | cons symbol rest ih =>
    cases named : symbol.named asked name with
    | true =>
      have own := ((symbol.named_iff asked name).mp named).1
      have isSeen : symbol.isSeenFrom scope = true := (symbol.is_seen_iff scope).mpr (own ▸ reached)
      have stillSeen : Symbol.isSeenFrom scope { symbol with info := change symbol.info } = true := isSeen
      rw [update, if_pos named, List.filter_cons_of_pos stillSeen, List.filter_cons_of_pos isSeen, update,
        if_pos named]
    | false =>
      have unnamed : ¬ symbol.named asked name = true := by rw [named]; exact Bool.false_ne_true
      rw [update, if_neg unnamed]
      cases isSeen : symbol.isSeenFrom scope with
      | true =>
        rw [List.filter_cons_of_pos isSeen, List.filter_cons_of_pos isSeen, update, if_neg unnamed, ih]
      | false =>
        rw [List.filter_cons_of_neg (by simp [isSeen]), List.filter_cons_of_neg (by simp [isSeen]), ih]

/-- Changing a symbol that is not seen changes nothing that is seen. The change keeps the scope of the symbol, so that
it is not seen afterwards either. -/
theorem update_unseen {scope asked : Text} (elsewhere : asked ≠ scope) (inner : asked ≠ globalScope) (name : Text)
    (change : SymbolInfo → SymbolInfo) (symbols : List Symbol) :
    (update asked name change symbols).filter (Symbol.isSeenFrom scope) =
      symbols.filter (Symbol.isSeenFrom scope) := by
  induction symbols with
  | nil => rfl
  | cons symbol rest ih =>
    cases named : symbol.named asked name with
    | true =>
      have own := ((symbol.named_iff asked name).mp named).1
      have unseen : ¬ symbol.isSeenFrom scope = true := by
        rw [Symbol.is_seen_iff, own]
        exact not_or.mpr ⟨elsewhere, inner⟩
      have stillUnseen : ¬ Symbol.isSeenFrom scope { symbol with info := change symbol.info } = true := unseen
      rw [update, if_pos named, List.filter_cons_of_neg stillUnseen, List.filter_cons_of_neg unseen]
    | false =>
      have unnamed : ¬ symbol.named asked name = true := by rw [named]; exact Bool.false_ne_true
      rw [update, if_neg unnamed, List.filter_cons, List.filter_cons, ih]

/-- A mark is made among the symbols that are seen: it goes to a symbol that look-up has found, and look-up finds
nothing else. -/
theorem mark_visible (table : SymbolTable) (name : Text) :
    (table.visible.markInitialized name).2 = (table.markInitialized name).2.visible := by
  rw [markInitialized, markInitialized, lookup_visible]
  cases found : table.lookup? name with
  | none => rfl
  | some symbol =>
    by_cases isVariable : symbol.kind = .localVariable
    · simp only [if_pos isVariable]
      exact congrArg (fun symbols => { table with symbols })
        (update_seen (lookup_scope found).2 name withValue table.symbols).symm
    · simp only [if_neg isVariable]

/-! ## Changes that are not seen -/

/-- There are no variables in the global scope. -/
def NoGlobalVariables (symbols : List Symbol) : Prop :=
  ∀ symbol ∈ symbols, symbol.scope = globalScope → symbol.kind ≠ .localVariable

/-- Whether there are variables in the global scope is seen from every scope. The condition can thus be moved between
tables that look alike. -/
theorem no_global_variables_iff (table : SymbolTable) (scope : Text) :
    NoGlobalVariables (table.seen scope) ↔ NoGlobalVariables table.symbols := by
  constructor
  · intro none symbol member isGlobal
    exact none symbol (List.mem_filter.mpr ⟨member, (symbol.is_seen_iff scope).mpr (.inr isGlobal)⟩) isGlobal
  · intro none symbol member
    exact none symbol (List.mem_filter.mp member).1

/-- Tables that look alike from a scope have no variables in the global scope or both have some. So the condition
survives whatever is not seen. -/
theorem NoGlobalVariables.of_seen {before after : SymbolTable} {scope : Text}
    (same : after.seen scope = before.seen scope) (none : NoGlobalVariables before.symbols) :
    NoGlobalVariables after.symbols := by
  rw [← no_global_variables_iff after scope, same, no_global_variables_iff]
  exact none

/-- A symbol of another kind brings no variable. This covers the first pass, which adds constants and methods to the
global scope and nothing else. -/
theorem NoGlobalVariables.add_other {table : SymbolTable} (none : NoGlobalVariables table.symbols) {name : Text}
    {position : Position} {info : SymbolInfo} (other : info.kind ≠ .localVariable) :
    NoGlobalVariables (table.add name position info).symbols :=
  List.forall_mem_cons.mpr ⟨fun _ => other, none⟩

/-- Without global variables, a mark is seen from no scope but the active one. With them it could fall through to the
global scope, which all blocks share. -/
theorem mark_unseen {table : SymbolTable} {scope : Text} (elsewhere : table.scope ≠ scope)
    (inner : table.scope ≠ globalScope) (none : NoGlobalVariables table.symbols) (name : Text) :
    (table.markInitialized name).2.seen scope = table.seen scope := by
  rw [markInitialized]
  cases found : table.lookup? name with
  | none => rfl
  | some symbol =>
    by_cases isVariable : symbol.kind = .localVariable
    · -- The name may be that of a global symbol, which is then no variable and is not marked.
      obtain ⟨member, own | isGlobal⟩ := lookup_scope found
      · simp only [if_pos isVariable, own]
        exact update_unseen elsewhere inner name withValue table.symbols
      · exact absurd isVariable (none symbol member isGlobal)
    · simp only [if_neg isVariable]

/-- The table `after` comes from the table `before` by adding symbols to the active scope and marking variables. -/
inductive Edits (before : SymbolTable) : SymbolTable → Prop where
  | refl : Edits before before
  | add {after : SymbolTable} (edits : Edits before after) (name : Text) (position : Position) (info : SymbolInfo) :
      Edits before (after.add name position info)
  | mark {after : SymbolTable} (edits : Edits before after) (name : Text) :
      Edits before (after.markInitialized name).2

namespace Edits

/-- Changes can be put together. The induction is on the later ones, each of which is added to what was done
before. -/
theorem trans {before between after : SymbolTable} (earlier : Edits before between) (later : Edits between after) :
    Edits before after := by
  induction later with
  | refl => exact earlier
  | add _ name position info ih => exact ih.add name position info
  | mark _ name ih => exact ih.mark name

/-- The active scope stays the same. Neither an addition nor a mark enters a scope, so all changes go where the first
one went. -/
theorem scope {before after : SymbolTable} (edits : Edits before after) : after.scope = before.scope := by
  induction edits with
  | refl => rfl
  | add _ _ _ _ ih => exact ih
  | mark _ name ih => exact (scope_mark _ name).trans ih

/-- Without global variables, nothing that is done in the active scope is seen from another one. Each step of the
induction needs the condition for the table in between, which looks like the first table from there. -/
theorem unseen {before after : SymbolTable} (edits : Edits before after) {scope : Text}
    (elsewhere : before.scope ≠ scope) (inner : before.scope ≠ globalScope)
    (none : NoGlobalVariables before.symbols) : after.seen scope = before.seen scope := by
  induction edits with
  | refl => rfl
  | @add between edits name position info ih =>
    rw [← edits.scope] at elsewhere inner
    exact (add_unseen elsewhere inner name position info).trans ih
  | @mark between edits name ih =>
    rw [← edits.scope] at elsewhere inner
    exact (mark_unseen elsewhere inner (none.of_seen ih) name).trans ih

end Edits

end SymbolTable

/-- A problem without the hint that a label of the name stands in another block. -/
def Problem.withoutHint : Problem → Problem
  | undefinedLabel name block _ => .undefinedLabel name block none
  | problem => problem

namespace Analysis

open SymbolTable

/-- A finding without the hint that a label of the name stands in another block. -/
def Finding.withoutHint : Finding → Finding
  | .diagnostic reported => .diagnostic { reported with problem := reported.problem.withoutHint }
  | .depth position opcode height => .depth position opcode height

/-! ## A block on its own -/

/-- Labels are declared in the active scope, and what is there before them is asked of the active scope only. The
names and findings are therefore equal, and the tables are equal as far as they are seen. -/
theorem declare_labels_visible (table : SymbolTable) (statements : List Statement) :
    declareLabels table.visible statements =
      ((declareLabels table statements).1.visible, (declareLabels table statements).2) := by
  induction statements generalizing table with
  | nil => rfl
  | cons statement rest ih =>
    cases statement with
    | instruction position opcode operands => exact ih table
    | label position name =>
      simp only [declareLabels, lookup_local_visible]
      cases (table.lookupLocal? name).filter fun symbol => symbol.kind = .label with
      | some symbol => simp only [ih]
      | none => simp only [add_visible, ih]

/-- Parameters are looked for in the active scope, and added to it if there is no variable of that name. -/
theorem declare_params_visible (table : SymbolTable) (params : List Ident) :
    declareParams table.visible params = (declareParams table params).visible := by
  induction params generalizing table with
  | nil => rfl
  | cons param rest ih =>
    simp only [declareParams, lookup_local_visible]
    cases (table.lookupLocal? param.name).filter fun symbol => symbol.kind = .localVariable with
    | some symbol => exact ih table
    | none =>
      rw [add_visible]
      exact ih _

/-- Variables are looked for in the active scope and then added to it. As above, the findings do not depend on what is
not seen. -/
theorem declare_vars_visible (block : Text) (table : SymbolTable) (names : List Ident) :
    declareVars block table.visible names =
      ((declareVars block table names).1.visible, (declareVars block table names).2) := by
  induction names generalizing table with
  | nil => rfl
  | cons declared rest ih =>
    have added := ih (table.add declared.name declared.position (.localVariable false false))
    rw [← add_visible] at added
    simp only [declareVars, lookup_local_visible]
    rcases table.lookupLocal? declared.name with - | ⟨name, scope, position, info⟩
    · exact added
    · cases info with
      | localVariable isParam initialized => simp only [Option.bind_some, ih]
      | _ => exact added

/-- A name is resolved by the two look-ups that have been treated. -/
theorem resolve_visible (table : SymbolTable) (name : Text) : resolve? table.visible name = resolve? table name := by
  rw [resolve?, resolve?, lookup_visible, lookup_global_visible]

/-- Whether a name stands for a symbol of the expected kind depends on what it is resolved to, and on nothing else in
the table. -/
theorem check_symbol_visible (table : SymbolTable) (ident : Ident) (expected : SymbolKind) :
    checkSymbol table.visible ident expected = checkSymbol table ident expected := by
  rw [checkSymbol, checkSymbol, resolve_visible]

/-- The same for variables, where the mark of the symbol that was found counts too. -/
theorem check_variable_visible (table : SymbolTable) (ident : Ident) (read : Bool) :
    checkVariable table.visible ident read = checkVariable table ident read := by
  rw [checkVariable, checkVariable, check_symbol_visible]

/-- What is wrong with a name that should be a constant, a variable or a method has no hint. Hints are given for
labels only, as only these are collected for all blocks beforehand. -/
theorem check_symbol_plain {table : SymbolTable} {ident : Ident} {expected : SymbolKind} {finding : Finding}
    (wrong : checkSymbol table ident expected = .error finding) : finding.withoutHint = finding := by
  rw [checkSymbol] at wrong
  cases resolved : resolve? table ident.name with
  | none =>
    rw [resolved] at wrong
    cases wrong
    rfl
  | some symbol =>
    rw [resolved] at wrong
    by_cases same : symbol.kind = expected
    · simp [same] at wrong
    · simp only [if_neg same] at wrong
      cases wrong
      rfl

/-- So it is with variables, for which a missing value is the one other thing that may be wrong. -/
theorem check_variable_plain (table : SymbolTable) (ident : Ident) (read : Bool) :
    (checkVariable table ident read).map Finding.withoutHint = checkVariable table ident read := by
  rw [checkVariable]
  cases checked : checkSymbol table ident .localVariable with
  | error finding => exact congrArg (fun plain => [plain]) (check_symbol_plain checked)
  | ok symbol =>
    dsimp only
    split <;> rfl

/-- A literal is wrong by itself, without regard to any block. -/
theorem check_literal_plain (opcode : Opcode) (ident : Ident) :
    (checkLiteral opcode ident).map Finding.withoutHint = checkLiteral opcode ident := by
  rw [checkLiteral]
  cases Literal.parse ident.name <;> rfl

/-- The labels of one scope. -/
def Labels.only (labels : Labels) (scope : Text) : Labels := [(scope, (labels.lookup scope).getD [])]

/-- A label is checked against those of its block; all others matter to the hint only. With the labels of the block
alone there is nothing to hint at, so both sides lose it. -/
theorem check_label_only (labels : Labels) (block : Block) (ident : Ident) :
    checkLabel (Labels.only labels (scopeOf block)) block ident =
      (checkLabel labels block ident).map Finding.withoutHint := by
  by_cases known : ident.name.fold ∈ (labels.lookup (scopeOf block)).getD []
  · simp [checkLabel, Labels.only, known]
  · simp [checkLabel, Labels.only, known]
    rfl

/-- An instruction sees the symbols of its block and of the global scope, and the labels of its block. Its use of the
stack is equal, and its findings are equal but for hints. The cases follow the opcodes, as each kind of operand is
checked by a function of its own. -/
theorem check_operands_only (labels : Labels) (block : Block) (table : SymbolTable) (position : Position)
    (opcode : Opcode) (operands : List Ident) :
    checkOperands (Labels.only labels (scopeOf block)) block table.visible position opcode operands =
      ((checkOperands labels block table position opcode operands).1.visible,
        (checkOperands labels block table position opcode operands).2.1.map Finding.withoutHint,
        (checkOperands labels block table position opcode operands).2.2) := by
  cases opcode with
  | bipush => simp only [checkOperands, check_literal_plain]
  | ldcw =>
    simp only [checkOperands, check_symbol_visible]
    cases checked : checkSymbol table (operand operands 0) .constant with
    | ok symbol => rfl
    | error finding => simp only [List.map_cons, List.map_nil, check_symbol_plain checked]
  | iload => simp only [checkOperands, check_variable_visible, check_variable_plain]
  | istore =>
    simp only [checkOperands, check_variable_visible, check_variable_plain, mark_visible]
    split <;> rfl
  | iinc =>
    simp only [checkOperands, check_variable_visible, check_variable_plain, List.map_append, check_literal_plain]
  | ifeq | iflt | ificmpeq | goto => simp only [checkOperands, check_label_only]
  | invokevirtual =>
    simp only [checkOperands, check_symbol_visible, param_count_visible]
    cases checked : checkSymbol table (operand operands 0) .method with
    | ok symbol => rfl
    | error finding => simp only [List.map_cons, List.map_nil, check_symbol_plain checked]
  | _ => rfl

/-- A warning about missing values is no complaint about a name. -/
theorem check_depth_plain (position : Position) (opcode : Opcode) (use : StackUse) (depth : Nat) :
    (checkDepth position opcode use depth).map Finding.withoutHint = checkDepth position opcode use depth := by
  rw [checkDepth]
  split <;> rfl

/-- The same along the statements of a block. The induction carries a table and its visible part, which stay in step
by the law for one instruction. -/
theorem check_statements_only (labels : Labels) (block : Block) (table : SymbolTable) (depth : Nat)
    (statements : List Statement) :
    checkStatements (Labels.only labels (scopeOf block)) block table.visible depth statements =
      ((checkStatements labels block table depth statements).1.visible,
        (checkStatements labels block table depth statements).2.map Finding.withoutHint) := by
  induction statements generalizing table depth with
  | nil => rfl
  | cons statement rest ih =>
    cases statement with
    | label position name => exact ih table depth
    | instruction position opcode operands =>
      simp only [checkStatements, check_operands_only, ih, List.map_append, check_depth_plain]
      rfl

/-- That an instruction cannot be reached is told without a hint. -/
theorem check_unreachable_plain (code : List (Position × Opcode)) :
    (checkUnreachable code).map Finding.withoutHint = checkUnreachable code := by
  induction code with
  | nil => rfl
  | cons first rest ih =>
    cases rest with
    | nil => rfl
    | cons second later =>
      rw [checkUnreachable, List.map_append, ih]
      split <;> rfl

/-- Complaints about declarations name a variable and a method, but no other place where a label stands. -/
theorem declare_vars_plain (block : Text) (table : SymbolTable) (names : List Ident) :
    (declareVars block table names).2.map Finding.withoutHint = (declareVars block table names).2 := by
  induction names generalizing table with
  | nil => rfl
  | cons declared rest ih =>
    have added := ih (table.add declared.name declared.position (.localVariable false false))
    simp only [declareVars]
    rcases table.lookupLocal? declared.name with - | ⟨name, scope, position, info⟩
    · exact added
    · cases info with
      | localVariable isParam initialized =>
        simp only [Option.bind_some, List.map_cons, ih]
        cases isParam <;> rfl
      | _ => exact added

/-- Nor do complaints about the place of declarations. -/
theorem check_placement_plain (block : Block) :
    (checkPlacement block).map Finding.withoutHint = checkPlacement block := by
  rw [checkPlacement]
  split
  · rw [List.map_map]
    rfl
  · rfl

/-- Nor do complaints about the end of a block. -/
theorem check_return_plain (block : Block) : (checkReturn block).map Finding.withoutHint = checkReturn block := by
  simp only [checkReturn]
  split
  · rfl
  · split <;> rfl

/-- What is found in a block, apart from hints, depends on the symbols that are seen from its scope and on its own
labels. Everything else of the table and of the labels can be replaced without any change. -/
theorem check_block_only (labels : Labels) (table : SymbolTable) (block : Block) :
    (checkBlock labels table block).2.map Finding.withoutHint =
      (checkBlock (Labels.only labels (scopeOf block)) { symbols := table.seen (scopeOf block) } block).2 := by
  have entered : SymbolTable.enter { symbols := table.seen (scopeOf block) } (scopeOf block) =
      (table.enter (scopeOf block)).visible := rfl
  simp only [checkBlock, entered, declare_params_visible, declare_vars_visible, check_statements_only,
    List.map_append, check_placement_plain, declare_vars_plain, check_unreachable_plain, check_return_plain]

/-! ## A block among others -/

/-- Declaring labels adds symbols to the active scope. A label that is there already adds none. -/
theorem declare_labels_edits (table : SymbolTable) (statements : List Statement) :
    Edits table (declareLabels table statements).1 := by
  induction statements generalizing table with
  | nil => exact .refl
  | cons statement rest ih =>
    cases statement with
    | instruction position opcode operands => exact ih table
    | label position name =>
      simp only [declareLabels]
      cases (table.lookupLocal? name).filter fun symbol => symbol.kind = .label with
      | some symbol => exact ih table
      | none => exact Edits.refl.add name position .label |>.trans (ih _)

/-- Declaring parameters adds a symbol for each name that is not one of a variable yet. -/
theorem declare_params_edits (table : SymbolTable) (params : List Ident) :
    Edits table (declareParams table params) := by
  induction params generalizing table with
  | nil => exact .refl
  | cons param rest ih =>
    simp only [declareParams]
    cases (table.lookupLocal? param.name).filter fun symbol => symbol.kind = .localVariable with
    | some symbol => exact ih table
    | none => exact (Edits.refl.add param.name param.position (.localVariable true true)).trans (ih _)

/-- Declaring variables does the same. A name that is taken by a variable is complained about and adds nothing. -/
theorem declare_vars_edits (block : Text) (table : SymbolTable) (names : List Ident) :
    Edits table (declareVars block table names).1 := by
  induction names generalizing table with
  | nil => exact .refl
  | cons declared rest ih =>
    rw [declareVars]
    dsimp only
    split
    · exact ih table
    · exact (Edits.refl.add declared.name declared.position (.localVariable false false)).trans (ih _)

/-- Of all instructions only a store changes the table: it marks its variable if nothing is wrong with the operand. -/
theorem check_operands_edits (labels : Labels) (block : Block) (table : SymbolTable) (position : Position)
    (opcode : Opcode) (operands : List Ident) :
    Edits table (checkOperands labels block table position opcode operands).1 := by
  cases opcode with
  | istore =>
    simp only [checkOperands]
    split
    · exact Edits.refl.mark (operand operands 0).name
    · exact .refl
  | ldcw =>
    simp only [checkOperands]
    split <;> exact .refl
  | invokevirtual =>
    simp only [checkOperands]
    split <;> exact .refl
  | _ => exact .refl

/-- The check of statements makes the marks of its stores, one after the other. -/
theorem check_statements_edits (labels : Labels) (block : Block) (table : SymbolTable) (depth : Nat)
    (statements : List Statement) : Edits table (checkStatements labels block table depth statements).1 := by
  induction statements generalizing table depth with
  | nil => exact .refl
  | cons statement rest ih =>
    cases statement with
    | label position name => exact ih table depth
    | instruction position opcode operands =>
      exact (check_operands_edits labels block table position opcode operands).trans (ih _ _)

/-- What the check of a block does to the table is done in the scope of the block: parameters and variables are added,
marks are made, and then the scope is left. -/
theorem check_block_edits (labels : Labels) (table : SymbolTable) (block : Block) :
    ∃ after, Edits (table.enter (scopeOf block)) after ∧ (checkBlock labels table block).1 = after.exit := by
  refine ⟨_, ?_, rfl⟩
  exact (declare_params_edits _ block.params).trans
    ((declare_vars_edits block.name _ block.variables).trans (check_statements_edits labels block _ 0 block.statements))

/-- The labels of blocks are not seen from the scope of a block that is none of them. The induction is on the blocks,
each of which adds labels to its own scope. -/
theorem collect_labels_unseen {scope : Text} (blocks : List Block)
    (elsewhere : ∀ block ∈ blocks, scopeOf block ≠ scope ∧ scopeOf block ≠ globalScope) (table : SymbolTable)
    (none : NoGlobalVariables table.symbols) : (collectLabels table blocks).1.seen scope = table.seen scope := by
  induction blocks generalizing table with
  | nil => rfl
  | cons block rest ih =>
    rw [List.forall_mem_cons] at elsewhere
    have edits := declare_labels_edits (table.enter (scopeOf block)) block.statements
    have same : (declareLabels (table.enter (scopeOf block)) block.statements).1.exit.seen scope = table.seen scope :=
      edits.unseen elsewhere.1.1 elsewhere.1.2 none
    rw [collect_labels_cons]
    exact (ih elsewhere.2 _ (none.of_seen same)).trans same

/-- The check of blocks is not seen from the scope of a block that is none of them. So a block finds in the table what
it would find if the blocks before it had not been checked. -/
theorem check_blocks_unseen (labels : Labels) {scope : Text} (blocks : List Block)
    (elsewhere : ∀ block ∈ blocks, scopeOf block ≠ scope ∧ scopeOf block ≠ globalScope) (table : SymbolTable)
    (none : NoGlobalVariables table.symbols) : (checkBlocks labels table blocks).1.seen scope = table.seen scope := by
  induction blocks generalizing table with
  | nil => rfl
  | cons block rest ih =>
    rw [List.forall_mem_cons] at elsewhere
    obtain ⟨after, edits, left⟩ := check_block_edits labels table block
    have same : (checkBlock labels table block).1.seen scope = table.seen scope := by
      rw [left]
      exact edits.unseen elsewhere.1.1 elsewhere.1.2 none
    exact (ih elsewhere.2 _ (none.of_seen same)).trans same

end Analysis

end IntegerMachine
