import IntegerMachine.Analysis.Symbol

/-!
# Look-up in symbol tables

What a table says about a name in a scope is the information of the latest symbol of that scope and name. Each
operation changes it for one scope and one name at most, and for names only up to folding. All later facts about
analysis are derived from these laws; none looks at the list of symbols.
-/
namespace IntegerMachine

/-- Whether a symbol is the one of a scope and name, as a proposition. Scopes are compared as they are, and names in
folded form. -/
theorem Symbol.named_iff (symbol : Symbol) (scope name : Text) :
    symbol.named scope name = true ↔ symbol.scope = scope ∧ symbol.name.fold = name.fold := by
  simp [Symbol.named]

/-- The symbol with what is known about it changed. -/
def Symbol.changed (change : SymbolInfo → SymbolInfo) (symbol : Symbol) : Symbol :=
  { symbol with info := change symbol.info }

namespace SymbolTable

/-- What is known about a name in a scope. -/
def info? (table : SymbolTable) (scope name : Text) : Option SymbolInfo :=
  (table.find? scope name).map Symbol.info

/-- The kind of a name in a scope. -/
def kind? (table : SymbolTable) (scope name : Text) : Option SymbolKind :=
  (table.info? scope name).map SymbolInfo.kind

/-- A symbol that is found has the scope and, up to folding, the name that was asked for. -/
theorem found_named (table : SymbolTable) (scope name : Text) (symbol : Symbol)
    (found : table.find? scope name = some symbol) : symbol.scope = scope ∧ symbol.name.fold = name.fold := by
  have named := List.find?_some found
  exact (symbol.named_iff scope name).mp named

/-- The kind of a name is that of the symbol that is found. It is defined by what is known about the name, so that
laws about that carry over. -/
theorem kind_of_found (table : SymbolTable) (scope name : Text) :
    table.kind? scope name = (table.find? scope name).map Symbol.kind := by
  rw [kind?, info?, Option.map_map]
  rfl

/-- A new table knows nothing. -/
@[simp] theorem info_empty (scope name : Text) : ({} : SymbolTable).info? scope name = none := rfl

/-- Entering a scope changes nothing that is known. -/
@[simp] theorem info_enter (table : SymbolTable) (entered scope name : Text) :
    (table.enter entered).info? scope name = table.info? scope name := rfl

/-- Leaving a scope changes nothing that is known. -/
@[simp] theorem info_exit (table : SymbolTable) (scope name : Text) :
    table.exit.info? scope name = table.info? scope name := rfl

@[simp] theorem scope_enter (table : SymbolTable) (entered : Text) : (table.enter entered).scope = entered := rfl

@[simp] theorem scope_exit (table : SymbolTable) : table.exit.scope = globalScope := rfl

@[simp] theorem scope_add (table : SymbolTable) (name : Text) (position : Position) (info : SymbolInfo) :
    (table.add name position info).scope = table.scope := rfl

/-- Names that are folded alike are found alike. -/
theorem find_congr (table : SymbolTable) (scope : Text) {name other : Text} (same : name.fold = other.fold) :
    table.find? scope name = table.find? scope other := by
  unfold find? Symbol.named
  rw [same]

/-- A symbol that is visible is the one of its scope, be it the active or the global one. -/
theorem found_of_lookup {table : SymbolTable} {name : Text} {symbol : Symbol}
    (visible : table.lookup? name = some symbol) : table.find? symbol.scope name = some symbol := by
  rcases Option.or_eq_some_iff.mp visible with own | ⟨_, global⟩
  · rwa [(table.found_named _ _ _ own).1]
  · rwa [(table.found_named _ _ _ global).1]

/-- An added symbol is found under its name in the active scope; under other names nothing changes. A symbol that was
there under this name is hidden by it from now on. -/
theorem found_add (table : SymbolTable) (name : Text) (position : Position) (info : SymbolInfo) (scope other : Text) :
    (table.add name position info).find? scope other =
      if table.scope = scope ∧ name.fold = other.fold then some { name, scope := table.scope, position, info }
      else table.find? scope other := by
  by_cases same : table.scope = scope ∧ name.fold = other.fold
  · have named : ({ name, scope := table.scope, position, info } : Symbol).named scope other = true :=
      (Symbol.named_iff _ _ _).mpr same
    simp only [find?, add, List.find?_cons, named, if_pos same]
  · have unnamed : ({ name, scope := table.scope, position, info } : Symbol).named scope other = false :=
      Bool.eq_false_iff.mpr (fun named => same ((Symbol.named_iff _ _ _).mp named))
    simp only [find?, add, List.find?_cons, unnamed, if_neg same]

/-- Adding a symbol changes what is known about its name in the active scope, and nothing about other names or in
other scopes. -/
theorem info_add (table : SymbolTable) (name : Text) (position : Position) (info : SymbolInfo)
    (scope other : Text) :
    (table.add name position info).info? scope other =
      if table.scope = scope ∧ name.fold = other.fold then some info else table.info? scope other := by
  rw [info?, found_add, apply_ite (Option.map Symbol.info)]
  rfl

/-- Adding a symbol changes the kind of its name in the active scope, and no other kind. -/
theorem kind_add (table : SymbolTable) (name : Text) (position : Position) (info : SymbolInfo)
    (scope other : Text) :
    (table.add name position info).kind? scope other =
      if table.scope = scope ∧ name.fold = other.fold then some info.kind else table.kind? scope other := by
  rw [kind?, info_add, apply_ite (Option.map SymbolInfo.kind)]
  rfl

/-- Changing the first symbol of a scope and name changes the symbol that is found under them and no other. The
symbols behind it, which it hides, stay as they are. -/
theorem found_update (scope name : Text) (change : SymbolInfo → SymbolInfo) (symbols : List Symbol)
    (asked other : Text) :
    (update scope name change symbols).find? (fun symbol => symbol.named asked other) =
      if scope = asked ∧ name.fold = other.fold then
        (symbols.find? (fun symbol => symbol.named asked other)).map (Symbol.changed change)
      else symbols.find? (fun symbol => symbol.named asked other) := by
  induction symbols with
  | nil => simp [update]
  | cons symbol rest ih =>
    -- The changed symbol answers to the same scope and name as before.
    have changed : ({ symbol with info := change symbol.info } : Symbol).named asked other =
        symbol.named asked other := rfl
    by_cases here : symbol.named scope name = true
    · obtain ⟨scopeHere, nameHere⟩ := (symbol.named_iff scope name).mp here
      by_cases same : scope = asked ∧ name.fold = other.fold
      · have wanted : symbol.named asked other = true :=
          (symbol.named_iff asked other).mpr ⟨scopeHere.trans same.1, nameHere.trans same.2⟩
        simp only [update, here, if_true, List.find?_cons, changed, wanted, Option.map_some, if_pos same]
        rfl
      · have unwanted : symbol.named asked other = false := by
          rw [Bool.eq_false_iff]
          intro wanted
          obtain ⟨scopeWanted, nameWanted⟩ := (symbol.named_iff asked other).mp wanted
          exact same ⟨scopeHere.symm.trans scopeWanted, nameHere.symm.trans nameWanted⟩
        simp only [update, here, if_true, List.find?_cons, changed, unwanted, if_neg same]
    · cases wanted : symbol.named asked other with
      | true =>
        have different : ¬ (scope = asked ∧ name.fold = other.fold) := by
          rintro ⟨rfl, sameName⟩
          obtain ⟨scopeWanted, nameWanted⟩ := (symbol.named_iff scope other).mp wanted
          exact here ((symbol.named_iff scope name).mpr ⟨scopeWanted, nameWanted.trans sameName.symm⟩)
        simp only [update, here, List.find?_cons, wanted, if_neg different, Bool.false_eq_true, if_false]
      | false => simpa only [update, here, List.find?_cons, wanted, Bool.false_eq_true, if_false] using ih

/-- Changing the first symbol of a scope and name changes what is known about them and nothing else. -/
theorem find_update (scope name : Text) (change : SymbolInfo → SymbolInfo) (symbols : List Symbol)
    (asked other : Text) :
    ((update scope name change symbols).find? (fun symbol => symbol.named asked other)).map Symbol.info =
      if scope = asked ∧ name.fold = other.fold then
        ((symbols.find? (fun symbol => symbol.named asked other)).map Symbol.info).map change
      else (symbols.find? (fun symbol => symbol.named asked other)).map Symbol.info := by
  rw [found_update, apply_ite (Option.map Symbol.info), Option.map_map, Option.map_map]
  rfl

/-- Marking leaves the active scope as it is. -/
@[simp] theorem scope_mark (table : SymbolTable) (name : Text) :
    (table.markInitialized name).2.scope = table.scope := by
  unfold markInitialized
  split
  · split <;> rfl
  · rfl

/-- A symbol that is no variable is not changed by a value. By this the law for marking needs no case for other
symbols. -/
theorem changed_with_value {symbol : Symbol} (notVariable : symbol.kind ≠ .localVariable) :
    symbol.changed withValue = symbol := by
  obtain ⟨name, scope, position, info⟩ := symbol
  cases info with
  | constant | method | label => rfl
  | localVariable => exact absurd rfl notVariable

/-- Marking a name changes the symbol that is visible under it, if that is a variable, and no other. The symbol may be
one of the global scope, if the active one has none. -/
theorem found_mark {table : SymbolTable} {name : Text} {symbol : Symbol} (visible : table.lookup? name = some symbol)
    (scope other : Text) :
    (table.markInitialized name).2.find? scope other =
      if symbol.scope = scope ∧ name.fold = other.fold then some (symbol.changed withValue)
      else table.find? scope other := by
  have found := found_of_lookup visible
  have asked (same : symbol.scope = scope ∧ name.fold = other.fold) : table.find? scope other = some symbol := by
    rw [← same.1, ← table.find_congr _ same.2]
    exact found
  by_cases isVariable : symbol.kind = .localVariable
  · have marked : (table.markInitialized name).2.symbols = update symbol.scope name withValue table.symbols := by
      simp only [markInitialized, visible, isVariable, if_true]
    rw [find?, marked, found_update]
    split
    · next same =>
      have here := asked same
      unfold find? at here
      rw [here, Option.map_some]
    · rfl
  · have unmarked : (table.markInitialized name).2 = table := by
      simp only [markInitialized, visible, isVariable, if_false]
    rw [unmarked, changed_with_value isVariable]
    split
    · next same => exact asked same
    · rfl

/-- Marking a name under which nothing is visible changes nothing. -/
theorem mark_unknown {table : SymbolTable} {name : Text} (unknown : table.lookup? name = none) :
    (table.markInitialized name).2 = table := by
  simp only [markInitialized, unknown]

/-- Marking a variable of the active scope gives it a value there and changes nothing else. Whether it is a parameter
stays as it was. -/
theorem info_mark (table : SymbolTable) (name : Text) (isParam value : Bool)
    (known : table.info? table.scope name = some (.localVariable isParam value)) (scope other : Text) :
    (table.markInitialized name).2.info? scope other =
      if table.scope = scope ∧ name.fold = other.fold then some (.localVariable isParam true)
      else table.info? scope other := by
  obtain ⟨symbol, found, info⟩ := Option.map_eq_some_iff.mp known
  have inScope := (table.found_named table.scope name symbol found).1
  have visible : table.lookup? name = some symbol := by
    rw [lookup?, lookupLocal?, found]
    rfl
  rw [info?, found_mark visible, inScope, apply_ite (Option.map Symbol.info), Option.map_some, Symbol.changed, info]
  rfl

end SymbolTable

end IntegerMachine
