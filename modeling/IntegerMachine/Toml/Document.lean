import IntegerMachine.Toml.Parse

/-!
# TOML documents

A document has keys, in the order of its text, and top-level values. A key must not be given twice. Tables that are
only mentioned on the way to another key may still be given later, and an array may give way to a table that is
mentioned after it.
-/
namespace IntegerMachine.Toml

/-- What a key stands for. -/
inductive Node where
  | value
  | table
  | tables
  deriving DecidableEq, Repr

/-- What keys stand for. -/
abbrev Nodes := List (Key × Node)

namespace Nodes

/-- What a key stands for. -/
def node? (nodes : Nodes) (key : Key) : Option Node := nodes.lookup key

/-- Sets what a key stands for. What was below it is out of reach. -/
def put (nodes : Nodes) (key : Key) (node : Node) : Nodes :=
  (key, node) :: nodes.filter fun entry => !key.isPrefixOf entry.1

/-- Whether the parts of a key, below an outer one, all stand for tables. -/
def areTables (nodes : Nodes) (outer : Key) : Key → Bool
  | [] => true
  | part :: rest =>
    let key := outer ++ [part]
    match nodes.node? key with
    | some .table | some .tables => areTables nodes key rest
    | _ => false

/-- Makes tables of the parts of a key but the last one, below an outer key; nothing if one is a value. -/
def makeWay (nodes : Nodes) (outer : Key) : Key → Option Nodes
  | [] | [_] => some nodes
  | part :: rest =>
    let key := outer ++ [part]
    match nodes.node? key with
    | none => makeWay (nodes.put key .table) key rest
    | some .value => none
    | some _ => makeWay nodes key rest

end Nodes

/-- The keys that a document has defined so far. -/
structure Definitions where
  /-- What each key stands for. -/
  nodes : Nodes := []
  /-- The keys that were mentioned and not given since. -/
  mentioned : List Key := []
  /-- The keys whose last value is an array. -/
  arrays : List Key := []
  /-- The keys that were given, the latest first. -/
  given : List Key := []
  deriving DecidableEq, Repr

namespace Definitions

/-- Marks a key as mentioned. -/
def mention (definitions : Definitions) (key : Key) : Definitions :=
  { definitions with mentioned := key :: definitions.mentioned }

/-- Marks a key as given where it was only mentioned. -/
def settle (definitions : Definitions) (key : Key) : Definitions :=
  { definitions with mentioned := definitions.mentioned.filter (· ≠ key) }

/-- Notes that a key was given. -/
def give (definitions : Definitions) (key : Key) : Definitions :=
  { definitions with given := key :: definitions.given }

/-- Sets what a key stands for. -/
def put (definitions : Definitions) (key : Key) (node : Node) : Definitions :=
  { definitions with nodes := definitions.nodes.put key node }

/-- Notes whether the value of a name in a table is an array. The empty name counts as its table, and as itself at
the top. -/
def note (definitions : Definitions) (table : Key) (name : Text) (isArray : Bool) : Definitions :=
  let key :=
    if !name.isEmpty then table ++ [name] else if table.isEmpty then [name] else table
  let others := definitions.arrays.filter (· ≠ key)
  { definitions with arrays := if isArray then key :: others else others }

/-- Makes sure that a key is inside of tables, mentioning those that do not exist. -/
def enterParents (definitions : Definitions) (outer : Key) : Key → Option Definitions
  | [] | [_] => some definitions
  | part :: rest =>
    let key := outer ++ [part]
    match definitions.nodes.node? key with
    | some .value => none
    | some _ => enterParents definitions key rest
    | none => enterParents ((definitions.mention key).put key .table) key rest

/-- Gives a name in a table a meaning. The name must be new or only mentioned; if it was mentioned after an array,
the array gives way. -/
def define (definitions : Definitions) (table : Key) (name : Text) (node : Node) :
    Option Definitions :=
  let key := table ++ [name]
  if !definitions.nodes.areTables [] table then none
  else match definitions.nodes.node? key with
    | none => some (definitions.put key node)
    | some _ =>
      if key ∉ definitions.mentioned then none
      else if key ∈ definitions.arrays then some ((definitions.settle key).put key node)
      else some (definitions.settle key)

/-- Opens a table. -/
def openTable (definitions : Definitions) (key : Key) : Option Definitions := do
  (← definitions.enterParents [] key).define key.dropLast (key.getLastD []) .table

/-- Adds a table to an array of tables. What was defined in the table before it is out of reach. -/
def addElement (definitions : Definitions) (key : Key) : Option Definitions := do
  let definitions ← definitions.enterParents [] key
  match definitions.nodes.node? key with
  | none | some .tables => some (definitions.put key .tables)
  | some _ => none

/-- Mentions the tables that the parts of a key but the last one stand for, below an outer key. -/
def mentionParents (definitions : Definitions) (outer : Key) : Key → Option Definitions
  | [] | [_] => some definitions
  | part :: rest => do
    let key := outer ++ [part]
    mentionParents (← (definitions.mention key).openTable key) key rest

/-- Whether a value is an array. -/
def isArray : Value → Bool
  | .array _ => true
  | _ => false

/-- What a value makes of its key. -/
def nodeOf : Value → Node
  | .table _ => .table
  | _ => .value

mutual

/-- Defines the keys inside of the value of a name in a table; also gives what they stand for in the value alone. -/
def enterValue (definitions : Definitions) (table : Key) (name : Text) (inArray : Bool) :
    Value → Option (Definitions × Nodes)
  | .table entries => do
    let key := table ++ [name]
    let definitions := definitions.mention key
    let definitions ←
      if inArray then definitions.addElement key else definitions.openTable key
    enterEntries definitions [] key entries
  | .array items => do
    return (← enterItems (definitions.note table name true) table name items, [])
  | _ => some (definitions, [])

/-- Defines the keys inside of the items of an array. -/
def enterItems (definitions : Definitions) (table : Key) (name : Text) :
    List Value → Option Definitions
  | [] => some definitions
  | item :: rest => do
    let (definitions, _) ← enterValue definitions table name true item
    enterItems definitions table name rest

/-- Defines the keys of an inline table, given what those before stand for in it alone. -/
def enterEntries (definitions : Definitions) (own : Nodes) (outer : Key) :
    List (Key × Value) → Option (Definitions × Nodes)
  | [] => some (definitions, own)
  | (key, value) :: rest => do
    let definitions ← definitions.mentionParents outer key
    let table := outer ++ key.dropLast
    let name := key.getLastD []
    let full := table ++ [name]
    let (definitions, inside) ← enterValue (definitions.give full) table name false value
    let definitions ← definitions.define table name (nodeOf value)
    let own ← own.makeWay outer key
    enterEntries (definitions.note table name (isArray value)) (inside ++ own.put full (nodeOf value))
      outer rest

end

/-- Carries out a statement in the table that is open; gives the table that is open afterwards. -/
def execute (definitions : Definitions) (table : Key) : Statement → Option (Definitions × Key)
  | .table key => do return (((← definitions.openTable key).note key [] false).give key, key)
  | .element key => do return (((← definitions.addElement key).note key [] false).give key, key)
  | .assign key value => do return ((← definitions.enterEntries [] table [(key, value)]).1, table)

/-- Carries out statements. -/
def executeAll (definitions : Definitions) (table : Key) : List Statement → Option Definitions
  | [] => some definitions
  | statement :: rest => do
    let (definitions, table) ← definitions.execute table statement
    executeAll definitions table rest

end Definitions

/-- A document. -/
structure Document where
  /-- The keys that were given, in the order of the text. -/
  keys : List Key
  /-- The values at the top level; nothing where a key stands for a table with a header or dotted keys. -/
  settings : List (Text × Option Value)
  deriving Repr, Inhabited

/-- The top-level settings of statements: those in front of the first header, and the tables. -/
def topSettings (top : Bool) : List Statement → List (Text × Option Value)
  | [] => []
  | .table key :: rest | .element key :: rest =>
    (key.headD [], none) :: topSettings false rest
  | .assign key value :: rest =>
    (if top then
      match key with
      | [name] => [(name, some value)]
      | _ => [(key.headD [], none)]
    else []) ++ topSettings top rest

/-- The document of a text; nothing if the text is not TOML. -/
def Document.parse? (text : Text) : Option Document := do
  let statements ← Toml.parse? text
  let definitions ← Definitions.executeAll {} [] statements
  return { keys := definitions.given.reverse, settings := topSettings true statements }

end IntegerMachine.Toml
