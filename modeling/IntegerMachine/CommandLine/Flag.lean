import IntegerMachine.CommandLine.Number
import IntegerMachine.Config
import IntegerMachine.Text.Quoted

/-!
# Flags

Flags start with one or two dashes and stand in front of the other arguments. The value of a flag follows an equals
sign or is the next argument; a switch needs none. Two dashes alone end the flags. The last one of a flag counts.
-/
namespace IntegerMachine.CommandLine

/-- The flags. -/
inductive Flag where
  | config
  | debug
  | depth
  | dump
  | file
  | image
  | interpret
  | language
  | list
  | logFile
  | noRaw
  | out
  | parse
  | trace
  | verbosity
  deriving DecidableEq, Repr

namespace Flag

/-- All flags in the order of their names. -/
def all : List Flag :=
  [config, debug, depth, dump, file, image, interpret, language, list, logFile, noRaw, out, parse,
    trace, verbosity]

/-- The name of a flag. -/
def name : Flag → Text
  | config => "config"
  | debug => "debug"
  | depth => "depth"
  | dump => "dump"
  | file => "file"
  | image => "image"
  | interpret => "interpret"
  | language => "lang"
  | list => "list"
  | logFile => "log-file"
  | noRaw => "noraw"
  | out => "o"
  | parse => "parse"
  | trace => "trace"
  | verbosity => "v"

/-- The flag with the given name. -/
def ofName? (name : Text) : Option Flag := all.find? fun flag => flag.name == name

/-- What a flag takes: nothing but a truth value, a number, or a text that is called by a word. -/
inductive Argument where
  | switch
  | number
  | text (called : Text)
  deriving DecidableEq, Repr

/-- What a flag takes. -/
def argument : Flag → Argument
  | config | file | image | logFile | out => .text "filename"
  | language => .text "language"
  | depth | verbosity => .number
  | debug | dump | interpret | list | noRaw | parse | trace => .switch

/-- What a flag does. -/
def purpose : Flag → Text
  | config => .concat ["load config from filename instead of searching for ", Config.fileName]
  | debug => "step through the program and print full error stack traces"
  | depth => "maximum call depth"
  | dump => "dump the interpreter state as YAML upon exit"
  | file => "source filename"
  | image => "run the program image filename instead of a source file"
  | interpret => "parse, analyze and run (default)"
  | language => "source language: ijvm or 8088"
  | list => "print a listing of the built program"
  | logFile => "write log to filename instead of stderr"
  | noRaw => "disable line editing and raw terminal IO"
  | out => "save the built program to image filename"
  | parse => "parse and analyze only, do not run"
  | trace => "log every executed instruction (needs -v 4)"
  | verbosity => "log verbosity"

end Flag

/-- The value of a flag. -/
inductive FlagValue where
  | truth (value : Bool)
  | number (value : Int)
  | text (value : Text)
  deriving DecidableEq, Repr

/-- The value of a flag that is not given. -/
def Flag.missing : Flag → FlagValue
  | interpret => .truth true
  | language => .text "ijvm"
  | depth => .number Machine.defaultDepthLimit
  | flag =>
    match flag.argument with
    | .switch => .truth false
    | .number => .number 0
    | .text _ => .text []

/-- The remark about the value of a flag that is not given; there is none about values that are empty or zero. -/
def FlagValue.remark : FlagValue → Text
  | truth true => " (default true)"
  | number value => if value = 0 then [] else .concat [" (default ", .ofInt value, ")"]
  | text value => if value.isEmpty then [] else .concat [" (default ", value.quoted, ")"]
  | truth false => []

/-- The word for the argument of a flag. -/
def Flag.Argument.called : Flag.Argument → Text
  | switch => []
  | number => " int"
  | text word => .concat [" ", word]

/-- The lines about a flag. -/
def Flag.help (flag : Flag) : Text :=
  .concat ["  -", flag.name, flag.argument.called, "\n    \t", flag.purpose, flag.missing.remark, "\n"]

/-- The lines about all flags. -/
def usage : Text := .concat ("Usage of ijvm:\n" :: Flag.all.map Flag.help)

/-- Why arguments are refused. -/
inductive UsageError where
  | help
  | badSyntax (argument : Text)
  | undefined (name : Text)
  | noArgument (flag : Flag)
  | badTruth (value : Text) (flag : Flag)
  | badNumber (value : Text) (flag : Flag) (error : NumberError)
  deriving DecidableEq, Repr

namespace UsageError

/-- The wording of the refusal; a request for help has none. -/
def message : UsageError → Text
  | help => []
  | badSyntax argument => .concat ["bad flag syntax: ", argument, "\n"]
  | undefined name => .concat ["flag provided but not defined: -", name, "\n"]
  | noArgument flag => .concat ["flag needs an argument: -", flag.name, "\n"]
  | badTruth value flag =>
    .concat ["invalid boolean value ", value.quoted, " for -", flag.name, ": ",
      NumberError.malformed.message, "\n"]
  | badNumber value flag error =>
    .concat ["invalid value ", value.quoted, " for flag -", flag.name, ": ", error.message, "\n"]

/-- The exit code after the refusal. -/
def exitCode : UsageError → UInt32
  | help => 0
  | _ => 2

end UsageError

/-- The flags that were given, the latest first, and the other arguments. -/
structure Arguments where
  flags : List (Flag × FlagValue) := []
  others : List Text := []
  deriving DecidableEq, Repr

namespace Arguments

/-- Whether a flag was given. -/
def isGiven (arguments : Arguments) (flag : Flag) : Bool := (arguments.flags.lookup flag).isSome

/-- The value of a flag. -/
def value (arguments : Arguments) (flag : Flag) : FlagValue :=
  (arguments.flags.lookup flag).getD flag.missing

/-- The value of a switch. -/
def truth (arguments : Arguments) (flag : Flag) : Bool :=
  match arguments.value flag with
  | .truth value => value
  | _ => false

/-- The value of a flag that takes a number. -/
def number (arguments : Arguments) (flag : Flag) : Int :=
  match arguments.value flag with
  | .number value => value
  | _ => 0

/-- The value of a flag that takes a text. -/
def text (arguments : Arguments) (flag : Flag) : Text :=
  match arguments.value flag with
  | .text value => value
  | _ => []

end Arguments

/-- The dash that flags start with. -/
def dash : UInt8 := 0x2D

/-- The equals sign between a flag and its value. -/
def equals : UInt8 := 0x3D

/-- An argument that may be a flag. -/
inductive Word where
  | other
  | terminator
  | malformed
  | flag (name : Text) (value : Option Text)
  deriving DecidableEq, Repr

/-- A flag without its dashes. -/
def Word.ofBody (body : Text) : Word :=
  match body with
  | [] => malformed
  | first :: _ =>
    if first = dash ∨ first = equals then malformed
    else
      let name := body.takeWhile (· != equals)
      flag name (if name.length < body.length then some (body.drop (name.length + 1)) else none)

/-- What an argument is. -/
def Word.ofText : Text → Word
  | first :: second :: rest =>
    if first ≠ dash then other
    else if second ≠ dash then .ofBody (second :: rest)
    else if rest.isEmpty then terminator
    else .ofBody rest
  | _ => other

/-- The value of a flag from its text. -/
def Flag.read (flag : Flag) (value : Text) : Except UsageError FlagValue :=
  match flag.argument with
  | .switch =>
    match truth? value with
    | some truth => .ok (.truth truth)
    | none => .error (.badTruth value flag)
  | .number =>
    match integer value with
    | .ok number => .ok (.number number)
    | .error error => .error (.badNumber value flag error)
  | .text _ => .ok (.text value)

/-- The flag with the given name, or the reason why there is none. -/
def Flag.find (name : Text) : Except UsageError Flag :=
  match ofName? name with
  | some flag => .ok flag
  | none => if name = "help" ∨ name = "h" then .error .help else .error (.undefined name)

/-- Reads arguments, continuing the flags read before them, of which the last one may be waiting for its value. -/
def Arguments.readFrom (flags : List (Flag × FlagValue)) (waiting : Option Flag) :
    List Text → Except UsageError Arguments
  | [] =>
    match waiting with
    | some flag => .error (.noArgument flag)
    | none => .ok { flags }
  | argument :: rest =>
    match waiting, Word.ofText argument with
    | some flag, _ => do readFrom ((flag, ← flag.read argument) :: flags) none rest
    | none, .other => .ok { flags, others := argument :: rest }
    | none, .terminator => .ok { flags, others := rest }
    | none, .malformed => .error (.badSyntax argument)
    | none, .flag name value => do
      let flag ← Flag.find name
      match value, flag.argument with
      | some value, _ => readFrom ((flag, ← flag.read value) :: flags) none rest
      | none, .switch => readFrom ((flag, .truth true) :: flags) none rest
      | none, _ => readFrom flags (some flag) rest

/-- Reads arguments. -/
def Arguments.read (arguments : List Text) : Except UsageError Arguments :=
  readFrom [] none arguments

end IntegerMachine.CommandLine
