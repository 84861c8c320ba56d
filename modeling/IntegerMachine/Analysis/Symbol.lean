import IntegerMachine.Literal
import IntegerMachine.Text.Case
import IntegerMachine.Source.Position

/-!
# Symbol tables

A symbol table holds the symbols of the global scope and of the scope of each block. Names are compared
in folded form. Symbols are added to the active scope; a new symbol hides the older one of the same name
in its scope. Look-up goes to the active scope first and then to the global one.

The table is kept as the list of its symbols, the latest first, so the first match is the one that counts.
The list stands for a map from scopes to maps from folded names to symbols: a symbol that is added in front
takes the place of the entry with its scope and name, and a change of what is known about a symbol goes to
the first match only. The list still holds the symbols that are hidden, and the order of all; a map has
neither, and no operation of this module shows them.
-/
namespace IntegerMachine

/-- What a name stands for. -/
inductive SymbolKind where
  | constant
  | localVariable
  | method
  | label
  deriving DecidableEq, Repr

namespace SymbolKind

/-- The wording of the kind. -/
def name : SymbolKind → Text
  | constant => "constant"
  | localVariable => "variable"
  | method => "method"
  | label => "label"

/-- The wording of the kind with the given number. -/
def nameOfCode : Int → Text
  | 0 => constant.name
  | 1 => localVariable.name
  | 2 => method.name
  | 3 => label.name
  | _ => "unknown"

end SymbolKind

/-- What is known about a symbol. -/
inductive SymbolInfo where
  | constant (value : Cell)
  | localVariable (isParam initialized : Bool)
  | method (params : List Text)
  | label
  deriving DecidableEq, Repr

/-- The kind of a symbol. -/
def SymbolInfo.kind : SymbolInfo → SymbolKind
  | constant _ => .constant
  | localVariable _ _ => .localVariable
  | method _ => .method
  | label => .label

/-- A symbol of a scope. -/
structure Symbol where
  name : Text
  scope : Text
  position : Position
  info : SymbolInfo
  deriving DecidableEq, Repr

/-- Whether a symbol is the one of the given scope and name. -/
def Symbol.named (symbol : Symbol) (scope name : Text) : Bool :=
  symbol.scope == scope && symbol.name.fold == name.fold

/-- The kind of a symbol. -/
def Symbol.kind (symbol : Symbol) : SymbolKind := symbol.info.kind

/-- The name of the global scope. -/
def globalScope : Text := []

/-- The name of the scope of the main block, which is not the name of a method. -/
def mainScope : Text := ".main"

/-- The name of the scope of a method. -/
def methodScope (name : Text) : Text := name.fold

/-- A table of symbols with an active scope. -/
structure SymbolTable where
  /-- The symbols, the latest first. -/
  symbols : List Symbol := []
  /-- The active scope. -/
  scope : Text := globalScope
  deriving DecidableEq, Repr

namespace SymbolTable

/-- Makes a scope the active one. -/
def enter (table : SymbolTable) (scope : Text) : SymbolTable := { table with scope }

/-- Makes the global scope the active one. -/
def exit (table : SymbolTable) : SymbolTable := table.enter globalScope

/-- Adds a symbol to the active scope. -/
def add (table : SymbolTable) (name : Text) (position : Position) (info : SymbolInfo) : SymbolTable :=
  { table with symbols := { name, scope := table.scope, position, info } :: table.symbols }

/-- The symbol of a scope with the given name. -/
def find? (table : SymbolTable) (scope name : Text) : Option Symbol :=
  table.symbols.find? fun symbol => symbol.named scope name

/-- The symbol of the active scope with the given name. -/
def lookupLocal? (table : SymbolTable) (name : Text) : Option Symbol := table.find? table.scope name

/-- The symbol of the global scope with the given name. -/
def lookupGlobal? (table : SymbolTable) (name : Text) : Option Symbol := table.find? globalScope name

/-- The symbol of the active scope, or else of the global scope, with the given name. -/
def lookup? (table : SymbolTable) (name : Text) : Option Symbol :=
  (table.lookupLocal? name).or (table.lookupGlobal? name)

/-- Changes what is known about the first symbol of a scope and name. -/
def update (scope name : Text) (change : SymbolInfo → SymbolInfo) : List Symbol → List Symbol
  | [] => []
  | symbol :: rest =>
    if symbol.named scope name then { symbol with info := change symbol.info } :: rest
    else symbol :: update scope name change rest

/-- A variable as it is once it has a value; other symbols are as before. -/
def withValue : SymbolInfo → SymbolInfo
  | .localVariable isParam _ => .localVariable isParam true
  | info => info

/-- Marks a visible variable as having a value. Tells whether the name is one of a variable. -/
def markInitialized (table : SymbolTable) (name : Text) : Bool × SymbolTable :=
  match table.lookup? name with
  | some symbol =>
    if symbol.kind = .localVariable then
      (true, { table with symbols := update symbol.scope name withValue table.symbols })
    else (false, table)
  | none => (false, table)

/-- The number of parameters of the method with the given name. -/
def methodParamCount? (table : SymbolTable) (name : Text) : Option Nat :=
  match (table.lookupGlobal? name).map Symbol.info with
  | some (.method params) => some params.length
  | _ => none

/-- Whether there is a method with the given name. -/
def methodExists (table : SymbolTable) (name : Text) : Bool := (table.methodParamCount? name).isSome

end SymbolTable

end IntegerMachine
