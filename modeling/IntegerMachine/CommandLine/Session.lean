import IntegerMachine.CommandLine.Flag
import IntegerMachine.CommandLine.Host
import IntegerMachine.Debugger
import IntegerMachine.Listing

/-!
# Sessions

A session of the command line tool: it reads the flags and a configuration file, loads or compiles a program, saves
and lists it on request, and runs it. Flags win over the configuration file. The run itself is left to the caller:
`start` gives the machine, and `conclude` takes what the run has come to.
-/
namespace IntegerMachine.CommandLine

/-- The settings of a session. -/
structure Settings where
  language : Text
  debug : Bool
  trace : Bool
  verbosity : Int
  logFile : Text
  depthLimit : Int
  deriving DecidableEq, Repr

/-- The settings by flags and a configuration file. An empty language in the file does not count. -/
def Settings.of (arguments : Arguments) (config : Config) : Settings :=
  { language :=
      if arguments.isGiven .language || config.language.isEmpty then arguments.text .language
      else config.language
    debug := if arguments.isGiven .debug then arguments.truth .debug else config.debug
    trace := if arguments.isGiven .trace then arguments.truth .trace else config.trace
    verbosity :=
      if arguments.isGiven .verbosity then arguments.number .verbosity else config.verbosity
    logFile := if arguments.isGiven .logFile then arguments.text .logFile else config.logFile
    depthLimit := if arguments.isGiven .depth then arguments.number .depth else config.depthLimit }

namespace Settings

/-- Whether entries of a level are shown. -/
def shows (settings : Settings) (level : LogLevel) : Bool :=
  level.verbosity ≤ settings.verbosity

/-- Why the language cannot be used, if it cannot. -/
def languageFailure? (settings : Settings) : Option Failure :=
  if settings.language.lower = "ijvm" then none
  else if settings.language.lower = "8088" then
    some { message := "language 8088 is not supported by this build" }
  else some { message := .concat ["unknown language ", settings.language.quoted] }

end Settings

/-- A program that is ready to run. -/
structure Session where
  settings : Settings
  /-- Whether the state is shown at the end. -/
  dump : Bool
  machine : Machine
  debugger : Debugger
  deriving DecidableEq, Repr

/-- What starting a session has come to. -/
inductive Start where
  | over (exitCode : UInt32)
  | ready (session : Session)
  deriving DecidableEq, Repr

/-- The way from the start of a session: it goes on with a value, or it has failed. -/
abbrev Progress (m : Type → Type) := ExceptT Failure m

section

variable {m : Type → Type} [Monad m]

/-- Adds an entry to the log if its level is shown. -/
def noteIf (host : Host m) (settings : Settings) (level : LogLevel) (origin message : Text) :
    m Unit := do
  if settings.shows level then host.note { level, origin, message }

/-- The origin of entries of the tool itself. -/
def toolOrigin : Text := "ijvm"

/-- The origin of entries of analysis. -/
def analysisOrigin : Text := "ijvm.sema"

/-- The origin of entries of the machine. -/
def machineOrigin : Text := "ijvm.vm"

/-- Reads the configuration file that the flags name, or searches for one. -/
def configure (host : Host m) (arguments : Arguments) : Progress m Config := do
  let path := arguments.text .config
  ExceptT.mk (if path.isEmpty then host.findConfig else host.readConfig path)

/-- Opens the log file. That it cannot be opened is one message, without a trail. -/
def openLog (host : Host m) (settings : Settings) : Progress m Unit := do
  if !settings.logFile.isEmpty && quietVerbosity < settings.verbosity then
    if let some fault ← host.logTo settings.logFile then
      throw { message := ((fault.opening settings.logFile).within "log file error").text }

/-- Notes what analysis did. -/
def noteReview (host : Host m) (settings : Settings) (review : Review) : m Unit := do
  match review.analysis with
  | none => noteIf host settings .info analysisOrigin review.skipMessage
  | some result =>
    for message in result.messages review.file settings.trace do
      noteIf host settings .debug analysisOrigin message

/-- The wording of what keeps a reviewed source from being built. -/
def buildFailure (review : Review) : CompileError → Failure
  | .refused refusal => { message := refusal.message review.file }
  | .build error => error.failure review.file

/-- Compiles a source file, after writing the report about it. -/
def compileFile (host : Host m) (settings : Settings) (path : Text) : Progress m Program := do
  let review ← ExceptT.mk (host.reviewSource path)
  ExceptT.lift (noteReview host settings review)
  host.putMessage review.report.text
  let count := review.syntaxErrors.length + review.errors.length
  if 0 < count then throw { message := .concat [path, ": ", .ofNat count, " error(s)"] }
  ExceptT.lift (noteIf host settings .info toolOrigin
    (.concat [path, ": analysis complete, ", .ofNat review.warnings.length, " warning(s)"]))
  match review.build with
  | .ok program => return program
  | .error error => throw (buildFailure review error)

/-- The program that the arguments ask for. -/
def obtain (host : Host m) (settings : Settings) (arguments : Arguments) : Progress m Program := do
  let image := arguments.text .image
  let file := arguments.text .file
  let file := if file.isEmpty then arguments.others.headD [] else file
  if !image.isEmpty then ExceptT.mk (host.loadProgram image)
  else if !file.isEmpty then compileFile host settings file
  else throw { message := "no source file or image specified" }

/-- Saves the program if the arguments ask for it. -/
def save (host : Host m) (settings : Settings) (arguments : Arguments) (program : Program) :
    Progress m Unit := do
  let path := arguments.text .out
  if !path.isEmpty then
    if let some failure ← host.saveProgram path program then throw failure
    ExceptT.lift (noteIf host settings .info toolOrigin (.concat ["program saved to ", path]))

/-- Whether a run may read the input. -/
def readsInput (settings : Settings) (program : Program) : Bool :=
  settings.debug || program.blueprints.any fun blueprint =>
    blueprint.code.any fun instruction => instruction.opcode == .input

/-- The machine for a program, at the start of its run. -/
def prepare (host : Host m) (settings : Settings) (program : Program) : Progress m Machine := do
  match Machine.create? program with
  | none => throw { message := "no program" }
  | some machine =>
    let machine ← ExceptT.mk (pure (machine.limitDepth settings.depthLimit))
    let source ← if readsInput settings program then host.readInput else pure { lines := [] }
    let machine := machine.pushInput source
    return { machine with
      output := { device := .tracked {} }
      journal := { active := settings.shows .debug, tracing := settings.trace } }

/-- Everything after the configuration. -/
def launch (host : Host m) (settings : Settings) (arguments : Arguments) (config : Config) :
    Progress m Start := do
  openLog host settings
  if !config.path.isEmpty then
    ExceptT.lift (noteIf host settings .info toolOrigin (.concat ["using config ", config.path]))
  if let some failure := settings.languageFailure? then throw failure
  let program ← obtain host settings arguments
  save host settings arguments program
  if arguments.truth .list then host.put program.listing.text
  if arguments.truth .parse || !arguments.truth .interpret then return .over 0
  let machine ← prepare host settings program
  return .ready {
    settings
    dump := arguments.truth .dump
    machine
    debugger := { continued := !settings.debug } }

/-- Reports a failure; with debugging on, as a trail. -/
def report (host : Host m) (debug : Bool) (failure : Failure) : m UInt32 := do
  host.putMessage ((if debug then failure.trail else failure.text) ++ ("\n" : Text))
  return 1

/-- Starts a session with the given arguments. -/
def start (host : Host m) (arguments : List Text) : m Start := do
  match Arguments.read arguments with
  | .error error =>
    host.putMessage (error.message ++ usage)
    return .over error.exitCode
  | .ok arguments =>
    match ← configure host arguments with
    | .error failure => return .over (← report host (arguments.truth .debug) failure)
    | .ok config =>
      let settings := Settings.of arguments config
      match ← launch host settings arguments config with
      | .error failure => return .over (← report host settings.debug failure)
      | .ok start => return start

/-- Writes what a run has produced since the last time: output, messages of the debugger, and the log. -/
def deliver (host : Host m) (session : Session) : m Session := do
  let machine := session.machine
  let sink := machine.output.sink
  if !sink.received.isEmpty then host.put sink.text
  let shown := session.debugger.transcript
  if !shown.isEmpty then host.putMessage shown
  for event in machine.journal.events.reverse do
    noteIf host session.settings .debug machineOrigin event.message
  return { session with
    machine := { machine with
      output := { machine.output with sink := { sink with received := #[] } }
      journal := { machine.journal with events := [] } }
    debugger := { session.debugger with shown := [] } }

/-- Ends a session whose run has come to an end; gives the exit code. A run that was stopped on request has not
failed. -/
def conclude (host : Host m) (session : Session) (ending : Ending) : m UInt32 := do
  let session ← deliver host session
  let machine := session.machine
  let failure? :=
    if ending = .stopped .requested then none else ending.failure? machine
  if ending = .stopped .requested then
    noteIf host session.settings .notice toolOrigin
      (.concat ["stopped after ", .ofNat machine.executed, " instructions"])
  match failure? with
  | some failure => report host session.settings.debug failure
  | none =>
    if session.dump then host.put machine.snapshot.dump
    return 0

end

end IntegerMachine.CommandLine
