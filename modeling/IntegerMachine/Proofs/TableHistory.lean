import IntegerMachine.Proofs.SymbolTable
import Mathlib.Data.List.Induction

/-!
# Symbol tables and their histories

A symbol table forgets how it came about: symbols are replaced, scopes are left and entered again, and a variable that
gets a value is found through a look-up that may go to the global scope. What it answers is nevertheless decided by the
calls that were made on it, and can be said without looking at a table at all.

A symbol is known by the number of the call that added it. The answer to a look-up is the symbol of the last add to the
scope under that name, up to folding; a variable has a value if it was added as a parameter, or if a later call to mark a
name resolved to this very add. All of this is proved call by call, as what one more call at the end of a history does.
-/
namespace IntegerMachine

/-- What is added to a symbol table under a name. -/
inductive Declaration where
  | constant (value : Cell)
  | localVariable
  | parameter
  | method (params : List Text)
  | label
  deriving DecidableEq, Repr

/-- What is known about a declared symbol. Variables and parameters may have a value. -/
def Declaration.info (hasValue : Bool) : Declaration → SymbolInfo
  | constant value => .constant value
  | localVariable => .localVariable false hasValue
  | parameter => .localVariable true hasValue
  | method params => .method params
  | label => .label

/-- A call that may change a symbol table. -/
inductive TableCall where
  | enterScope (scope : Text)
  | exitScope
  | add (name : Text) (position : Position) (declaration : Declaration)
  | markInitialized (name : Text)
  deriving DecidableEq, Repr

namespace TableCall

/-- The table after a call. Of the symbols that are added, parameters have a value. -/
def perform (table : SymbolTable) : TableCall → SymbolTable
  | enterScope scope => table.enter scope
  | exitScope => table.exit
  | add name position declaration => table.add name position (declaration.info (declaration = .parameter))
  | markInitialized name => (table.markInitialized name).2

/-- The active scope after a call. -/
def scopeAfter (scope : Text) : TableCall → Text
  | enterScope entered => entered
  | exitScope => globalScope
  | add .. | markInitialized _ => scope

end TableCall

/-- The calls that were made on a new table, in their order. -/
abbrev History := List TableCall

/-- The table after the calls of a history. -/
def SymbolTable.after (history : History) : SymbolTable := history.foldl TableCall.perform {}

namespace History

/-- The scope that is active after a history. -/
def activeScope (history : History) : Text := history.foldl TableCall.scopeAfter globalScope

/-- The call with the given number adds a symbol to a scope, under a name that is folded like the given one. -/
def AddsAt (history : History) (scope name : Text) (index : Nat) : Prop :=
  ∃ added position declaration, history[index]? = some (.add added position declaration) ∧
    activeScope (history.take index) = scope ∧ added.fold = name.fold

/-- The call with the given number is the last one that does so. -/
def LastAdd (history : History) (scope name : Text) (index : Nat) : Prop :=
  AddsAt history scope name index ∧ ∀ other, AddsAt history scope name other → other ≤ index

/-- A name resolves to the last add for it in the active scope or, if there is none, in the global scope. -/
def ResolvesTo (history : History) (name : Text) (index : Nat) : Prop :=
  LastAdd history (activeScope history) name index ∨
    (∀ other, ¬ AddsAt history (activeScope history) name other) ∧ LastAdd history globalScope name index

/-- A later call marks a name that resolves to the add with the given number. -/
def MarkedAfter (history : History) (index : Nat) : Prop :=
  ∃ later name, index < later ∧ history[later]? = some (.markInitialized name) ∧
    ResolvesTo (history.take later) name index

/-- A symbol is what the call with the given number has added, in the scope that was active then. It has a value if it was
added as a parameter, or if it is a variable that was marked later. -/
structure Records (history : History) (index : Nat) (symbol : Symbol) : Prop where
  scope : symbol.scope = activeScope (history.take index)
  declared : ∃ declaration hasValue, history[index]? = some (.add symbol.name symbol.position declaration) ∧
    symbol.info = declaration.info hasValue ∧
    (hasValue = true ↔ declaration = .parameter ∨ declaration = .localVariable ∧ MarkedAfter history index)

/-! ## Adds are determined by their numbers -/

variable {history : History} {scope other name another : Text} {index number : Nat} {symbol : Symbol}

/-- An add is to one scope and under one name only, up to folding. -/
theorem AddsAt.same (adds : AddsAt history scope name index) (alsoAdds : AddsAt history other another index) :
    scope = other ∧ name.fold = another.fold := by
  obtain ⟨added, position, declaration, found, inScope, named⟩ := adds
  obtain ⟨_, _, _, alsoFound, alsoIn, alsoNamed⟩ := alsoAdds
  cases found.symm.trans alsoFound
  exact ⟨inScope.symm.trans alsoIn, named.symm.trans alsoNamed⟩

/-- The number of an add is that of a call of the history. -/
theorem AddsAt.bounded (adds : AddsAt history scope name index) : index < history.length := by
  obtain ⟨_, _, _, found, _, _⟩ := adds
  exact (List.getElem?_eq_some_iff.mp found).1

/-- There is at most one last add to a scope under a name, since each of two would come no later than the other. -/
theorem LastAdd.unique (last : LastAdd history scope name index) (alsoLast : LastAdd history scope name number) :
    index = number :=
  Nat.le_antisymm (alsoLast.2 index last.1) (last.2 number alsoLast.1)

/-- The last add is the same for names that are folded alike. -/
theorem LastAdd.congr (last : LastAdd history scope name index) (same : name.fold = another.fold) :
    LastAdd history scope another index := by
  unfold LastAdd AddsAt at last ⊢
  rwa [same] at last

/-- A name resolves to one add at most: that of the active scope if there is one, and that of the global scope
otherwise. -/
theorem ResolvesTo.unique (resolves : ResolvesTo history name index) (alsoResolves : ResolvesTo history name number) :
    index = number := by
  rcases resolves with own | ⟨absent, global⟩
  · rcases alsoResolves with alsoOwn | ⟨absent, _⟩
    · exact own.unique alsoOwn
    · exact absurd own.1 (absent index)
  · rcases alsoResolves with alsoOwn | ⟨_, alsoGlobal⟩
    · exact absurd alsoOwn.1 (absent number)
    · exact global.unique alsoGlobal

/-- What a name resolves to is the last add of its scope, whichever of the two that is. -/
theorem ResolvesTo.last (resolves : ResolvesTo history name index) :
    LastAdd history (activeScope (history.take index)) name index := by
  rcases resolves with own | ⟨_, global⟩
  · obtain ⟨_, _, _, _, inScope, _⟩ := own.1
    rwa [inScope]
  · obtain ⟨_, _, _, _, inScope, _⟩ := global.1
    rwa [inScope]

/-- There is one symbol for each add. Its name, scope, position and kind come from the call itself, and whether it has
a value is decided by the later calls. -/
theorem Records.unique {one two : Symbol} (records : Records history index one) (alsoRecords : Records history index two) :
    one = two := by
  obtain ⟨scope, declaration, hasValue, found, info, valued⟩ := records
  obtain ⟨alsoScope, _, alsoValue, alsoFound, alsoInfo, alsoValued⟩ := alsoRecords
  injection found.symm.trans alsoFound with same
  injection same with sameName samePosition sameDeclaration
  subst sameDeclaration
  have sameValue : hasValue = alsoValue := Bool.eq_iff_iff.mpr (valued.trans alsoValued.symm)
  obtain ⟨oneName, oneScope, onePosition, oneInfo⟩ := one
  obtain ⟨twoName, twoScope, twoPosition, twoInfo⟩ := two
  dsimp only at *
  subst sameName samePosition scope alsoScope info alsoInfo sameValue
  rfl

/-! ## One more call -/

variable {call : TableCall}

/-- The active scope after one more call depends on the scope before it and on that call only. -/
theorem active_snoc (history : History) (call : TableCall) :
    activeScope (history ++ [call]) = call.scopeAfter (activeScope history) := by
  simp [activeScope]

/-- The calls before a call are not changed by one more at the end. All that is said of an earlier call therefore
stays true if it speaks of the calls before it only. -/
theorem snoc_before (call : TableCall) (bounded : index < history.length) :
    (history ++ [call])[index]? = history[index]? ∧ (history ++ [call]).take index = history.take index := by
  constructor
  · exact List.getElem?_append_left bounded
  · exact List.take_append_of_le_length (Nat.le_of_lt bounded)

/-- The last call of a history is found at its number, and the calls before it are the rest. -/
theorem snoc_last (history : History) (call : TableCall) :
    (history ++ [call])[history.length]? = some call ∧ (history ++ [call]).take history.length = history := by
  constructor
  · simp
  · exact List.take_left

/-- An add stays one when there is one more call. -/
theorem AddsAt.earlier (adds : AddsAt history scope name index) (call : TableCall) :
    AddsAt (history ++ [call]) scope name index := by
  obtain ⟨found, before⟩ := snoc_before call adds.bounded
  unfold AddsAt at adds ⊢
  rwa [found, before]

/-- An add was made by an earlier call, or by the last one. In the second case the last call is an add under that
name, and its scope is the active one. -/
theorem AddsAt.snoc_cases (adds : AddsAt (history ++ [call]) scope name index) :
    AddsAt history scope name index ∨ index = history.length ∧
      ∃ added position declaration, call = .add added position declaration ∧ activeScope history = scope ∧
        added.fold = name.fold := by
  rcases Nat.lt_or_ge index history.length with inside | beyond
  · left
    obtain ⟨found, before⟩ := snoc_before call inside
    unfold AddsAt at adds ⊢
    rwa [found, before] at adds
  · right
    have bounded := adds.bounded
    rw [List.length_append, List.length_singleton] at bounded
    obtain rfl : index = history.length := Nat.le_antisymm (Nat.le_of_lt_succ bounded) beyond
    obtain ⟨added, position, declaration, found, inScope, named⟩ := adds
    obtain ⟨last, before⟩ := snoc_last history call
    rw [before] at inScope
    exact ⟨rfl, added, position, declaration, Option.some.inj (last.symm.trans found), inScope, named⟩

/-- The last add for a name stays the last one, unless the next call is an add for it. Adds under other names or to
other scopes do not matter. -/
theorem LastAdd.snoc (last : LastAdd history scope name index)
    (others : ∀ added position declaration, call = .add added position declaration → activeScope history = scope →
      added.fold ≠ name.fold) : LastAdd (history ++ [call]) scope name index := by
  constructor
  · exact last.1.earlier call
  · intro number adds
    rcases adds.snoc_cases with earlier | ⟨_, added, position, declaration, isAdd, inScope, named⟩
    · exact last.2 number earlier
    · exact absurd named (others added position declaration isAdd inScope)

/-- A marking call at the end of a history marks what its name resolves to. No other call marks anything, and what was
marked stays so. -/
theorem marked_snoc_iff (bounded : index < history.length) :
    MarkedAfter (history ++ [call]) index ↔
      MarkedAfter history index ∨ ∃ name, call = .markInitialized name ∧ ResolvesTo history name index := by
  constructor
  · rintro ⟨later, name, behind, found, resolves⟩
    rcases Nat.lt_or_ge later history.length with inside | beyond
    · left
      obtain ⟨same, before⟩ := snoc_before call inside
      rw [same] at found
      rw [before] at resolves
      exact ⟨later, name, behind, found, resolves⟩
    · right
      have inside := (List.getElem?_eq_some_iff.mp found).1
      rw [List.length_append, List.length_singleton] at inside
      obtain rfl : later = history.length := Nat.le_antisymm (Nat.le_of_lt_succ inside) beyond
      obtain ⟨last, before⟩ := snoc_last history call
      rw [before] at resolves
      exact ⟨name, Option.some.inj (last.symm.trans found), resolves⟩
  · rintro (⟨later, name, behind, found, resolves⟩ | ⟨name, rfl, resolves⟩)
    · obtain ⟨same, before⟩ := snoc_before call (List.getElem?_eq_some_iff.mp found).1
      refine ⟨later, name, behind, same.trans found, ?_⟩
      rwa [before]
    · obtain ⟨last, before⟩ := snoc_last history (.markInitialized name)
      refine ⟨history.length, name, bounded, last, ?_⟩
      rwa [before]

/-- The number of the add that a symbol comes from is that of a call of the history. -/
theorem Records.bounded (records : Records history index symbol) : index < history.length := by
  obtain ⟨_, _, found, _, _⟩ := records.declared
  exact (List.getElem?_eq_some_iff.mp found).1

/-- A symbol stays as it is, unless the next call marks a name that resolves to it. Adding another symbol may hide it,
but does not change it. -/
theorem Records.snoc (records : Records history index symbol)
    (unmarked : ∀ name, call = .markInitialized name → ¬ ResolvesTo history name index) :
    Records (history ++ [call]) index symbol := by
  obtain ⟨same, before⟩ := snoc_before call records.bounded
  have marked : MarkedAfter (history ++ [call]) index ↔ MarkedAfter history index := by
    rw [marked_snoc_iff records.bounded]
    constructor
    · rintro (earlier | ⟨name, isMark, resolves⟩)
      · exact earlier
      · exact absurd resolves (unmarked name isMark)
    · exact Or.inl
  obtain ⟨scope, declaration, hasValue, found, info, valued⟩ := records
  refine ⟨by rwa [before], declaration, hasValue, same.trans found, info, ?_⟩
  rw [marked]
  exact valued

/-- A variable that is marked has a value; other symbols are not changed. Both are one statement, since giving a value
does nothing to other symbols. -/
theorem Records.marked (records : Records history index symbol) (resolves : ResolvesTo history name index) :
    Records (history ++ [.markInitialized name]) index (symbol.changed SymbolTable.withValue) := by
  obtain ⟨same, before⟩ := snoc_before (.markInitialized name) records.bounded
  have isMarked : MarkedAfter (history ++ [.markInitialized name]) index :=
    (marked_snoc_iff records.bounded).mpr (.inr ⟨name, rfl, resolves⟩)
  obtain ⟨scope, declaration, hasValue, found, info, valued⟩ := records
  refine ⟨by rw [before]; exact scope, declaration, ?_⟩
  rw [same, Symbol.changed, info]
  cases declaration with
  | constant | method | label =>
    -- These have no value before and after.
    refine ⟨false, found, rfl, ?_⟩
    simp
  | localVariable => exact ⟨true, found, rfl, by simp [isMarked]⟩
  | parameter => exact ⟨true, found, rfl, by simp⟩

/-- The symbol of an add when it has just been made. Only a parameter has a value then, since nothing can have marked
it yet. -/
theorem records_added (history : History) (added : Text) (position : Position) (declaration : Declaration) :
    Records (history ++ [.add added position declaration]) history.length
      { name := added, scope := activeScope history, position,
        info := declaration.info (declaration = .parameter) } := by
  obtain ⟨last, before⟩ := snoc_last history (.add added position declaration)
  constructor
  · rw [before]
  · refine ⟨declaration, _, last, rfl, ?_⟩
    have unmarked : ¬ MarkedAfter (history ++ [.add added position declaration]) history.length := by
      rintro ⟨later, _, behind, found, _⟩
      have inside := (List.getElem?_eq_some_iff.mp found).1
      rw [List.length_append, List.length_singleton] at inside
      omega
    simp [unmarked]

/-! ## What a table holds -/

/-- A table holds the symbols of the last adds of a history, and no others. -/
structure Explains (history : History) (table : SymbolTable) : Prop where
  scope : table.scope = activeScope history
  absent : ∀ scope name, table.find? scope name = none → ∀ index, ¬ AddsAt history scope name index
  present : ∀ scope name symbol, table.find? scope name = some symbol →
    ∃ index, LastAdd history scope name index ∧ Records history index symbol

namespace Explains

variable {table : SymbolTable} (explains : Explains history table)

include explains

/-- A visible symbol is the one that its name resolves to. The table looks in the active scope first and in the global
one then, which is how resolving is defined. -/
theorem resolved (visible : table.lookup? name = some symbol) :
    ∃ index, ResolvesTo history name index ∧ Records history index symbol := by
  rcases Option.or_eq_some_iff.mp visible with own | ⟨hidden, global⟩
  · obtain ⟨index, last, records⟩ := explains.present _ _ _ own
    rw [explains.scope] at last
    exact ⟨index, .inl last, records⟩
  · obtain ⟨index, last, records⟩ := explains.present _ _ _ global
    have absent := explains.absent _ _ hidden
    rw [explains.scope] at absent
    exact ⟨index, .inr ⟨absent, last⟩, records⟩

/-- A name under which nothing is visible was added neither to the active nor to the global scope. It may have been
added to others. -/
theorem unresolved (invisible : table.lookup? name = none) (index : Nat) :
    ¬ AddsAt history (activeScope history) name index ∧ ¬ AddsAt history globalScope name index := by
  obtain ⟨noOwn, noGlobal⟩ := Option.or_eq_none_iff.mp invisible
  have absent := explains.absent _ _ noOwn
  rw [explains.scope] at absent
  exact ⟨absent index, explains.absent _ _ noGlobal index⟩

/-- Entering and leaving scopes changes nothing that a table holds. Both are one case: a call that neither adds nor
marks, behind which some scope is active. -/
theorem moves (quiet : ∀ added position declaration, call ≠ .add added position declaration)
    (unmarked : ∀ name, call ≠ .markInitialized name) (entered : Text)
    (isEntered : call.scopeAfter (activeScope history) = entered) :
    Explains (history ++ [call]) (table.enter entered) := by
  constructor
  · rw [active_snoc, isEntered]
    rfl
  · intro scope name absent index adds
    rcases adds.snoc_cases with earlier | ⟨_, added, position, declaration, isAdd, _, _⟩
    · exact explains.absent scope name absent index earlier
    · exact quiet added position declaration isAdd
  · intro scope name symbol found
    obtain ⟨index, last, records⟩ := explains.present scope name symbol found
    refine ⟨index, last.snoc ?_, records.snoc ?_⟩
    · intro added position declaration isAdd
      exact absurd isAdd (quiet added position declaration)
    · intro name isMark
      exact absurd isMark (unmarked name)

/-- An add replaces the symbol of its name in the active scope. It is the last add for this name from then on, and the
last adds for others stay. -/
theorem adds (added : Text) (position : Position) (declaration : Declaration) :
    Explains (history ++ [.add added position declaration])
      (table.add added position (declaration.info (declaration = .parameter))) := by
  obtain ⟨isLast, before⟩ := snoc_last history (.add added position declaration)
  constructor
  · rw [active_snoc]
    exact explains.scope
  · intro scope name absent index adds
    rw [SymbolTable.found_add] at absent
    split at absent
    · cases absent
    · next different =>
      rcases adds.snoc_cases with earlier | ⟨_, _, _, _, isAdd, inScope, named⟩
      · exact explains.absent scope name absent index earlier
      · cases isAdd
        exact different ⟨explains.scope.trans inScope, named⟩
  · intro scope name symbol found
    rw [SymbolTable.found_add] at found
    split at found
    · next same =>
      cases found
      rw [explains.scope] at same ⊢
      refine ⟨history.length, ⟨?_, ?_⟩, records_added history added position declaration⟩
      · exact ⟨added, position, declaration, isLast, by rw [before, same.1], same.2⟩
      · intro number adds
        have inside := adds.bounded
        rw [List.length_append, List.length_singleton] at inside
        exact Nat.le_of_lt_succ inside
    · next different =>
      obtain ⟨index, last, records⟩ := explains.present scope name symbol found
      refine ⟨index, last.snoc ?_, records.snoc ?_⟩
      · rintro _ _ _ ⟨⟩ inScope named
        exact different ⟨explains.scope.trans inScope, named⟩
      · rintro _ ⟨⟩

/-- Marking a name gives a value to the variable that it resolves to. If it resolves to nothing, or to a symbol of
another kind, nothing changes. -/
theorem marks (marked : Text) :
    Explains (history ++ [.markInitialized marked]) (table.markInitialized marked).2 := by
  have noAdd {scope name : Text} {index : Nat} (adds : AddsAt (history ++ [.markInitialized marked]) scope name index) :
      AddsAt history scope name index := by
    rcases adds.snoc_cases with earlier | ⟨_, _, _, _, isAdd, _, _⟩
    · exact earlier
    · cases isAdd
  have staysLast {scope name : Text} {index : Nat} (last : LastAdd history scope name index) :
      LastAdd (history ++ [.markInitialized marked]) scope name index := by
    apply last.snoc
    rintro _ _ _ ⟨⟩
  cases visible : table.lookup? marked with
  | none =>
    have unresolved := explains.unresolved visible
    rw [SymbolTable.mark_unknown visible]
    refine ⟨by rw [active_snoc]; exact explains.scope, ?_, ?_⟩
    · intro scope name absent index adds
      exact explains.absent scope name absent index (noAdd adds)
    · intro scope name symbol found
      obtain ⟨index, last, records⟩ := explains.present scope name symbol found
      refine ⟨index, staysLast last, records.snoc ?_⟩
      rintro _ ⟨⟩ (own | ⟨_, global⟩)
      · exact (unresolved index).1 own.1
      · exact (unresolved index).2 global.1
  | some target =>
    obtain ⟨place, resolves, recorded⟩ := explains.resolved visible
    have lastHere := resolves.last
    rw [← recorded.scope] at lastHere
    refine ⟨by rw [active_snoc, SymbolTable.scope_mark]; exact explains.scope, ?_, ?_⟩
    · intro scope name absent index adds
      rw [SymbolTable.found_mark visible] at absent
      split at absent
      · cases absent
      · exact explains.absent scope name absent index (noAdd adds)
    · intro scope name symbol found
      rw [SymbolTable.found_mark visible] at found
      split at found
      · next same =>
        cases found
        rw [← same.1]
        exact ⟨place, staysLast (lastHere.congr same.2), recorded.marked resolves⟩
      · next different =>
        obtain ⟨index, last, records⟩ := explains.present scope name symbol found
        refine ⟨index, staysLast last, records.snoc ?_⟩
        -- Only one add is resolved to, and this one is of another scope or under another name.
        rintro _ ⟨⟩ alsoResolves
        cases resolves.unique alsoResolves
        exact different (lastHere.1.same last.1)

end Explains

/-- What one more call does to the table is what it does to the history. There is one case for each kind of call. -/
theorem Explains.perform {table : SymbolTable} (explains : Explains history table) (call : TableCall) :
    Explains (history ++ [call]) (call.perform table) := by
  cases call with
  | enterScope entered =>
    apply explains.moves _ _ entered rfl
    · rintro _ _ _ ⟨⟩
    · rintro _ ⟨⟩
  | exitScope =>
    apply explains.moves _ _ globalScope rfl
    · rintro _ _ _ ⟨⟩
    · rintro _ ⟨⟩
  | add added position declaration => exact explains.adds added position declaration
  | markInitialized marked => exact explains.marks marked

/-- The table after a history holds the symbols of its last adds. The induction is on the number of calls, from the
last one back. -/
theorem explains_after (history : History) : Explains history (SymbolTable.after history) := by
  induction history using List.reverseRecOn with
  | nil =>
    refine ⟨rfl, ?_, ?_⟩
    · rintro _ _ _ index ⟨_, _, _, found, _, _⟩
      cases found
    · intro scope name symbol found
      cases found
  | append_singleton history call explains =>
    rw [SymbolTable.after, List.foldl_append]
    exact explains.perform call

/-- A table answers as its history says. -/
structure Decides (history : History) (table : SymbolTable) : Prop where
  /-- A scope holds a symbol under a name exactly if it is the one of the last add there. -/
  stored : ∀ scope name symbol, table.find? scope name = some symbol ↔
    ∃ index, LastAdd history scope name index ∧ Records history index symbol
  lookupLocal : ∀ name symbol, table.lookupLocal? name = some symbol ↔
    ∃ index, LastAdd history (activeScope history) name index ∧ Records history index symbol
  lookupLocalAbsent : ∀ name, table.lookupLocal? name = none ↔
    ∀ index, ¬ AddsAt history (activeScope history) name index
  lookup : ∀ name symbol, table.lookup? name = some symbol ↔
    ∃ index, ResolvesTo history name index ∧ Records history index symbol
  lookupAbsent : ∀ name, table.lookup? name = none ↔
    ∀ index, ¬ AddsAt history (activeScope history) name index ∧ ¬ AddsAt history globalScope name index
  /-- Methods are decided by the last add to the global scope, whatever else there is. -/
  methodParamCount : ∀ name count, table.methodParamCount? name = some count ↔
    ∃ index added position params, LastAdd history globalScope name index ∧
      history[index]? = some (.add added position (.method params)) ∧ params.length = count
  methodExists : ∀ name, table.methodExists name = true ↔
    ∃ index added position params, LastAdd history globalScope name index ∧
      history[index]? = some (.add added position (.method params))

section Answers

variable {table : SymbolTable} (explains : Explains history table)

include explains

/-- The last add to a scope is found there, and nothing else is. One direction is the invariant; the other follows
because there is one last add and one symbol for it. -/
theorem Explains.stored_iff (scope name : Text) (symbol : Symbol) :
    table.find? scope name = some symbol ↔
      ∃ index, LastAdd history scope name index ∧ Records history index symbol := by
  constructor
  · exact explains.present scope name symbol
  · rintro ⟨index, last, records⟩
    cases found : table.find? scope name with
    | none => exact absurd last.1 (explains.absent scope name found index)
    | some actual =>
      obtain ⟨number, alsoLast, alsoRecords⟩ := explains.present scope name actual found
      cases last.unique alsoLast
      rw [records.unique alsoRecords]

/-- Nothing is found in a scope exactly if nothing was added there under the name. Symbols are hidden by others, but
never removed. -/
theorem Explains.absent_iff (scope name : Text) :
    table.find? scope name = none ↔ ∀ index, ¬ AddsAt history scope name index := by
  constructor
  · exact explains.absent scope name
  · intro never
    cases found : table.find? scope name with
    | none => rfl
    | some symbol =>
      obtain ⟨index, last, _⟩ := explains.present scope name symbol found
      exact absurd last.1 (never index)

/-- What is visible under a name is what it resolves to. Where something else were found, the name would resolve to
two adds. -/
theorem Explains.visible_iff (name : Text) (symbol : Symbol) :
    table.lookup? name = some symbol ↔ ∃ index, ResolvesTo history name index ∧ Records history index symbol := by
  constructor
  · exact explains.resolved
  · rintro ⟨index, resolves, records⟩
    cases found : table.lookup? name with
    | none =>
      have unresolved := explains.unresolved found index
      rcases resolves with own | ⟨_, global⟩
      · exact absurd own.1 unresolved.1
      · exact absurd global.1 unresolved.2
    | some actual =>
      obtain ⟨number, alsoResolves, alsoRecords⟩ := explains.resolved found
      cases resolves.unique alsoResolves
      rw [records.unique alsoRecords]

/-- A name has a number of parameters exactly if the last add to the global scope is of such a method. A constant that
is added there later under this name hides the method. -/
theorem Explains.count_iff (name : Text) (count : Nat) :
    table.methodParamCount? name = some count ↔
      ∃ index added position params, LastAdd history globalScope name index ∧
        history[index]? = some (.add added position (.method params)) ∧ params.length = count := by
  unfold SymbolTable.methodParamCount? SymbolTable.lookupGlobal?
  cases found : table.find? globalScope name with
  | none =>
    have absent := explains.absent globalScope name found
    constructor
    · intro counted
      cases counted
    · rintro ⟨index, _, _, _, last, _, _⟩
      exact absurd last.1 (absent index)
  | some symbol =>
    obtain ⟨number, isLast, records⟩ := explains.present globalScope name symbol found
    obtain ⟨declaration, hasValue, isAdd, info, _⟩ := records.declared
    rw [Option.map_some, info]
    constructor
    · intro counted
      cases declaration with
      | constant | localVariable | parameter | label => cases counted
      | method params => exact ⟨number, _, _, params, isLast, isAdd, Option.some.inj counted⟩
    · rintro ⟨index, added, position, params, last, isMethod, rfl⟩
      cases last.unique isLast
      cases isMethod.symm.trans isAdd
      rfl

end Answers

end History

open History in
/-- After every sequence of calls on a new table, its look-ups, the symbols that it holds and what it says about methods
are decided by the history of calls. -/
theorem table_refines_history (history : History) : Decides history (SymbolTable.after history) := by
  have explains := explains_after history
  have active := explains.scope
  constructor
  · exact explains.stored_iff
  · intro name symbol
    rw [← active]
    exact explains.stored_iff _ name symbol
  · intro name
    rw [← active]
    exact explains.absent_iff _ name
  · exact explains.visible_iff
  · intro name
    rw [forall_and, ← active, ← explains.absent_iff, ← explains.absent_iff]
    exact Option.or_eq_none_iff
  · exact explains.count_iff
  · intro name
    rw [SymbolTable.methodExists, Option.isSome_iff_exists]
    simp only [explains.count_iff]
    constructor
    · rintro ⟨_, index, added, position, params, last, isMethod, _⟩
      exact ⟨index, added, position, params, last, isMethod⟩
    · rintro ⟨index, added, position, params, last, isMethod⟩
      exact ⟨_, index, added, position, params, last, isMethod, rfl⟩

/-- A variable of a method is marked in another spelling, hidden by a label, and the label is what is found in the end;
the variable of the global scope has no value. -/
example :
    let history : History :=
      [.add "Fact" .start (.method ["n"]), .add "acc" .start .localVariable, .enterScope "FACT",
        .add "acc" .start .localVariable, .markInitialized "Acc", .add "ACC" .start .label, .exitScope]
    ((SymbolTable.after history).find? "FACT" "acc").map Symbol.kind = some .label ∧
      ((SymbolTable.after (history.take 5)).lookup? "aCC").map Symbol.info = some (.localVariable false true) ∧
      ((SymbolTable.after history).lookup? "acc").map Symbol.info = some (.localVariable false false) ∧
      (SymbolTable.after history).methodParamCount? "fact" = some 1 := by
  decide +kernel

end IntegerMachine
