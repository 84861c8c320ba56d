import IntegerMachine.Machine.Basic
import IntegerMachine.Text.Case
import IntegerMachine.Toml.Document

/-!
# Configuration files

Settings that are read from a TOML file. Keys match without regard to case. A file with a key that is no setting
is refused.
-/
namespace IntegerMachine

/-- The settings of a configuration file. -/
structure Config where
  language : Text := "ijvm"
  debug : Bool := false
  trace : Bool := false
  verbosity : Int := 0
  logFile : Text := []
  depthLimit : Int := Machine.defaultDepthLimit
  /-- Whether a terminal is read key by key; absent when it is not set. -/
  rawTerminal : Option Bool := none
  /-- The file that the settings come from; empty when they are the default ones. -/
  path : Text := []
  deriving DecidableEq, Repr

namespace Config

/-- The name that configuration files are searched by. -/
def fileName : Text := "ijvm.toml"

/-- The context of whatever keeps a file from being read. -/
def refusal (path : Text) : Text := .concat ["parse error in ", path]

/-- Why a configuration file is refused. -/
inductive Error where
  /-- The text is not TOML. -/
  | badDocument
  /-- The value of a setting has the wrong type. -/
  | badValue
  | unknownKey (key : Toml.Key)
  | badDepth
  deriving DecidableEq, Repr

/-- The wording of the error, for the file with the given path. -/
def Error.failure (path : Text) : Error → Failure
  | badDocument => { message := "toml: the document is not well formed", contexts := [refusal path] }
  | badValue => { message := "toml: a value has the wrong type", contexts := [refusal path] }
  | unknownKey key => { message := .concat [path, ": unknown key ", Toml.showKey key] }
  | badDepth => { message := .concat [path, ": max-call-depth must be positive"] }

/-- The settings. -/
inductive Setting where
  | language
  | debug
  | trace
  | verbosity
  | logFile
  | depthLimit
  | rawTerminal
  deriving DecidableEq, Repr

namespace Setting

/-- All settings. -/
def all : List Setting := [language, debug, trace, verbosity, logFile, depthLimit, rawTerminal]

/-- The key of a setting. -/
def key : Setting → String
  | language => "lang"
  | debug => "debug"
  | trace => "trace"
  | verbosity => "verbosity"
  | logFile => "log-file"
  | depthLimit => "max-call-depth"
  | rawTerminal => "raw-tty"

/-- The setting with the given key. -/
def ofKey? (key : Text) : Option Setting :=
  all.find? fun setting => Text.matchesName setting.key key

/-- Sets a setting, if the value has the right type. -/
def apply (config : Config) : Setting → Toml.Value → Option Config
  | language, .string content => some { config with language := content }
  | debug, .boolean truth => some { config with debug := truth }
  | trace, .boolean truth => some { config with trace := truth }
  | verbosity, .integer number => some { config with verbosity := number }
  | logFile, .string content => some { config with logFile := content }
  | depthLimit, .integer number => some { config with depthLimit := number }
  | rawTerminal, .boolean truth => some { config with rawTerminal := some truth }
  | _, _ => none

end Setting

/-- Sets all settings that a document has a value for. -/
def applyAll (config : Config) : List (Text × Option Toml.Value) → Option Config
  | [] => some config
  | (key, value) :: rest =>
    match Setting.ofKey? key with
    | none => applyAll config rest
    | some setting => do
      applyAll (← setting.apply config (← value)) rest

/-- Whether a key is one of a setting. -/
def isKnown : Toml.Key → Bool
  | [key] => (Setting.ofKey? key).isSome
  | _ => false

/-- The settings of the text of the file with the given path. -/
def parse (path text : Text) : Except Error Config :=
  match Toml.Document.parse? text with
  | none => .error .badDocument
  | some document =>
    match applyAll {} document.settings with
    | none => .error .badValue
    | some config =>
      match document.keys.find? fun key => !isKnown key with
      | some key => .error (.unknownKey key)
      | none => if config.depthLimit ≤ 0 then .error .badDepth else .ok { config with path }

end Config

end IntegerMachine
