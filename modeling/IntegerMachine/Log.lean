import IntegerMachine.Text.Basic

/-!
# Log entries

What the command line tool notes on its way, with a level and the part of the tool that notes it.
-/
namespace IntegerMachine

/-- How important an entry is. -/
inductive LogLevel where
  | notice
  | info
  | debug
  deriving DecidableEq, Repr

namespace LogLevel

/-- The wording of the level. -/
def name : LogLevel → Text
  | notice => "NOTICE"
  | info => "INFO"
  | debug => "DEBUG"

/-- The verbosity from which on entries of a level are shown. -/
def verbosity : LogLevel → Int
  | notice => 0
  | info => 1
  | debug => 2

end LogLevel

/-- The verbosity below which there is no log at all. -/
def quietVerbosity : Int := -4

/-- An entry of the log. -/
structure LogEntry where
  level : LogLevel
  /-- The part of the tool that notes it. -/
  origin : Text
  message : Text
  deriving DecidableEq, Repr

/-- The entry on a line. -/
def LogEntry.text (entry : LogEntry) : Text :=
  .concat [entry.level.name, " [", entry.origin, "] ", entry.message, "\n"]

end IntegerMachine
