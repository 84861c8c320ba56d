import IntegerMachine.Build
import IntegerMachine.Config
import IntegerMachine.Image
import IntegerMachine.Log

/-!
# Hosts

A host is what the command line tool runs on: it has files, an input and two outputs. The tool is written for any
host, so that what it does can be stated on an imagined one.
-/
namespace IntegerMachine

/-- Why a file cannot be opened. -/
inductive FileFault where
  | missing
  | isFolder
  | notFolder
  /-- The path or one of its names is longer than paths and names may be. -/
  | tooLong
  /-- The path has a zero byte. -/
  | invalid
  | other (message : Text)
  deriving DecidableEq, Repr

namespace FileFault

/-- The wording of the fault. -/
def message : FileFault → Text
  | missing => "no such file or directory"
  | isFolder => "is a directory"
  | notFolder => "not a directory"
  | tooLong => "file name too long"
  | invalid => "invalid argument"
  | other message => message

/-- The failure of opening a file. -/
def opening (path : Text) (fault : FileFault) : Failure :=
  { message := .concat ["open ", path, ": ", fault.message] }

/-- The failure of reading a folder as if it were a file. -/
def readingFolder (path : Text) : Failure :=
  { message := .concat ["read ", path, ": ", isFolder.message] }

end FileFault

/-- What the command line tool runs on. -/
structure Host (m : Type → Type) where
  /-- The working folder and the folders around it, the innermost first. -/
  folders : m (List Text)
  /-- Whether there is a file or a folder of that name. -/
  isPresent : Text → m Bool
  /-- The contents of a file. -/
  readFile : Text → m (Except FileFault Text)
  /-- Replaces the contents of a file. -/
  writeFile : Text → Text → m (Option FileFault)
  /-- The lines of the input. -/
  readInput : m LineSource
  /-- Writes to the output. -/
  put : Text → m Unit
  /-- Writes to the output for messages. -/
  putMessage : Text → m Unit
  /-- Sends the log to the end of a file. -/
  logTo : Text → m (Option FileFault)
  /-- Adds an entry to the log. -/
  note : LogEntry → m Unit

namespace Host

/-- The path of a file in a folder. -/
def join (folder name : Text) : Text :=
  if folder.isEmpty ∨ folder.getLast? = some (Text.byte '/') then folder ++ name
  else .concat [folder, "/", name]

/-- Loads the program of an image file. -/
def loadProgram {m : Type → Type} [Monad m] (host : Host m) (path : Text) :
    m (Except Failure Program) := do
  match ← host.readFile path with
  | .error .isFolder =>
    let error := Image.Error.unreadable (FileFault.readingFolder path)
    return .error (error.failure.within (.concat ["load ", path]))
  | .error fault => return .error ((fault.opening path).within "open failed")
  | .ok bytes =>
    match Program.decode bytes with
    | .ok program => return .ok program
    | .error error => return .error (error.failure.within (.concat ["load ", path]))

/-- Saves a program to an image file. -/
def saveProgram {m : Type → Type} [Monad m] (host : Host m) (path : Text) (program : Program) :
    m (Option Failure) := do
  let fault ← host.writeFile path program.encode
  return fault.map fun fault => (fault.opening path).within "create failed"

/-- Reads and reviews a source file. -/
def reviewSource {m : Type → Type} [Monad m] (host : Host m) (path : Text) :
    m (Except Failure Review) := do
  match ← host.readFile path with
  | .error .isFolder =>
    return .ok ((Source.ofText [] (some (FileFault.readingFolder path).message)).review path)
  | .error fault => return .error ((fault.opening path).within "open source file")
  | .ok text => return .ok ((Source.ofText text none).review path)

/-- Reads a configuration file. -/
def readConfig {m : Type → Type} [Monad m] (host : Host m) (path : Text) :
    m (Except Failure Config) := do
  match ← host.readFile path with
  | .error .isFolder => return .error ((FileFault.readingFolder path).within (Config.refusal path))
  | .error fault => return .error ((fault.opening path).within (Config.refusal path))
  | .ok text =>
    match Config.parse path text with
    | .ok config => return .ok config
    | .error error => return .error (error.failure path)

/-- Reads the configuration file of the first folder that has one; the default settings if none has. -/
def findConfigIn {m : Type → Type} [Monad m] (host : Host m) : List Text → m (Except Failure Config)
  | [] => return .ok {}
  | folder :: rest => do
    let path := join folder Config.fileName
    if ← host.isPresent path then host.readConfig path else host.findConfigIn rest

/-- Searches for a configuration file from the working folder upwards. -/
def findConfig {m : Type → Type} [Monad m] (host : Host m) : m (Except Failure Config) := do
  host.findConfigIn (← host.folders)

end Host

end IntegerMachine
