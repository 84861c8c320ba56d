import IntegerMachine.CommandLine.Host

/-!
# Imagined hosts

A host that is a value: folders and files, the text of the input, and what was written. Paths are walked name by
name, so that every folder on the way must be there, even one that is left again. There are no links and no
permissions. What the log says is not kept in its file.
-/
namespace IntegerMachine

/-- The parts of a path from the root. -/
abbrev Path := List Text

/-- The paths on the way to a path, from the root up to the path itself. -/
def Path.way (path : Path) : List Path := (List.range (path.length + 1)).map path.take

/-- An imagined host. -/
structure World where
  folders : List Path := [[]]
  /-- The contents of each file, the latest first. -/
  files : List (Path × Text) := []
  working : Path := []
  input : Text := []
  /-- What was written to the outputs, the latest first. -/
  output : List Text := []
  messages : List Text := []
  /-- The log, the latest entry first. -/
  log : List LogEntry := []
  deriving DecidableEq, Repr

/-- The number of bytes that a name has at most. -/
def nameLimit : Nat := 255

/-- The number of bytes that a path stays below. -/
def pathLimit : Nat := 4096

/-- The byte between the names of a path. -/
def slash : UInt8 := Text.byte '/'

/-- The folder that the names of a path lead to, by the names alone: a name that is left again by two dots does not
count. -/
def Path.follow (folder : Path) : List Text → Path
  | [] => folder
  | part :: rest =>
    if part.isEmpty ∨ part = "." then follow folder rest
    else if part = ".." then follow folder.dropLast rest
    else follow (folder ++ [part]) rest

/-- The path of a text that starts from a folder, unless it starts from the root. -/
def Path.ofText (folder : Path) (text : Text) : Path :=
  Path.follow (if text.head? = some slash then [] else folder) (text.split slash)

/-- What a text leads to: a name in a folder, or the folder itself. -/
structure Place where
  folder : Path
  name : Option Text
  /-- Whether only a folder will do, because the text ends in a slash. -/
  wantsFolder : Bool
  deriving DecidableEq, Repr

namespace World

/-- A path in messages. -/
def showPath (path : Path) : Text := .concat ["/", .join "/" path]

/-- The contents of the file at a path. -/
def file? (world : World) (path : Path) : Option Text := world.files.lookup path

/-- Adds a folder and those around it. -/
def addFolder (world : World) (path : Path) : World :=
  { world with folders := Path.way path ++ world.folders }

/-- Adds a file and the folders around it. -/
def addFile (world : World) (path : Path) (content : Text) : World :=
  let world := world.addFolder path.dropLast
  { world with files := (path, content) :: world.files }

/-- Walks through folders, each of which must be there. -/
def walk (world : World) (folder : Path) : List Text → Except FileFault Path
  | [] => .ok folder
  | part :: rest =>
    let inner := folder ++ [part]
    if part = "." then world.walk folder rest
    else if part = ".." then world.walk folder.dropLast rest
    else if nameLimit < part.length then .error .tooLong
    else if inner ∈ world.folders then world.walk inner rest
    else .error (if (world.file? inner).isSome then .notFolder else .missing)

/-- What a text leads to. The last name need not be there; dots are a folder and no name. -/
def locate (world : World) (text : Text) : Except FileFault Place := do
  if 0 ∈ text then throw .invalid
  if text.isEmpty then throw .missing
  if pathLimit ≤ text.length then throw .tooLong
  let parts := (text.split slash).filter fun part => !part.isEmpty
  let start := if text.head? = some slash then [] else world.working
  let wantsFolder := text.getLast? = some slash
  match parts.getLast? with
  | none => return { folder := start, name := none, wantsFolder }
  | some last =>
    if last = "." ∨ last = ".." then
      return { folder := ← world.walk start parts, name := none, wantsFolder }
    else return { folder := ← world.walk start parts.dropLast, name := some last, wantsFolder }

/-- Reads a file. -/
def read (world : World) (text : Text) : Except FileFault Text := do
  let place ← world.locate text
  match place.name with
  | none => throw .isFolder
  | some name =>
    let path := place.folder ++ [name]
    if nameLimit < name.length then throw .tooLong
    if path ∈ world.folders then throw .isFolder
    match world.file? path with
    | none => throw .missing
    | some content => if place.wantsFolder then throw .notFolder else return content

/-- The path of the file that a text leads to, which need not be there. A folder will not do. -/
def target (world : World) (text : Text) : Except FileFault Path := do
  let place ← world.locate text
  match place.name with
  | none => throw .isFolder
  | some name =>
    let path := place.folder ++ [name]
    if place.wantsFolder then throw .isFolder
    if nameLimit < name.length then throw .tooLong
    if path ∈ world.folders then throw .isFolder
    return path

/-- Changes the contents of a file, which becomes one if it is not there. -/
def update (world : World) (text : Text) (change : Option Text → Text) : Option FileFault × World :=
  match world.target text with
  | .error fault => (some fault, world)
  | .ok path =>
    (none, { world with files := (path, change (world.file? path)) :: world.files })

/-- Replaces the contents of a file. -/
def write (world : World) (text content : Text) : Option FileFault × World :=
  world.update text fun _ => content

/-- Opens a file to add to it. -/
def append (world : World) (text : Text) : Option FileFault × World :=
  world.update text fun content => content.getD []

/-- Whether a path leads to a file or a folder. -/
def isPresent (world : World) (name : Text) : Bool :=
  match world.read name with
  | .ok _ | .error .isFolder => true
  | _ => false

/-- The working folder and the folders around it. -/
def surroundings (world : World) : List Text := (Path.way world.working).reverse.map showPath

/-- The host that an imagined one is. -/
def host : Host (StateM World) where
  folders := do return (← get).surroundings
  isPresent name := do return (← get).isPresent name
  readFile name := do return (← get).read name
  writeFile name content := modifyGet fun world => world.write name content
  readInput := do return .ofText (← get).input
  put text := modify fun world => { world with output := text :: world.output }
  putMessage text := modify fun world => { world with messages := text :: world.messages }
  logTo name := modifyGet fun world => world.append name
  note entry := modify fun world => { world with log := entry :: world.log }

end World

end IntegerMachine
