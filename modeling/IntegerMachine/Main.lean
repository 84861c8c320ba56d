import IntegerMachine.CommandLine.Session
import IntegerMachine.CommandLine.World

/-!
# The command line tool

The host that the tool runs on, and its main function. The input is read as a whole before a run that may need it.
A run goes on in slices; what it has produced is written after each of them.
-/
namespace IntegerMachine.CommandLine

/-- The string of a text. -/
def stringOf (text : Text) : String := String.ofList text.characters

/-- The text of bytes. -/
def textOf (bytes : ByteArray) : Text := bytes.toList

/-- The bytes of a text. -/
def bytesOf (text : Text) : ByteArray := ByteArray.mk text.toArray

/-- What is wrong with a file, by the error of the system. -/
def faultOf : IO.Error → FileFault
  | .noFileOrDirectory .. => .missing
  | .inappropriateType .. => .isFolder
  | .permissionDenied .. => .other "permission denied"
  | error => .other (toString error : String)

/-- Does something with a file; gives the fault if it fails. -/
def attempt {α : Type} (action : IO α) : IO (Except FileFault α) := do
  try return .ok (← action)
  catch error => return .error (faultOf error)

/-- The fault of an attempt. -/
def faultIn {α : Type} : Except FileFault α → Option FileFault
  | .ok _ => none
  | .error fault => some fault

/-- Reads a stream to its end. -/
partial def readAll (stream : IO.FS.Stream) (before : ByteArray) : IO ByteArray := do
  let bytes ← stream.read 65536
  if bytes.isEmpty then return before else readAll stream (before ++ bytes)

/-- Writes a text to a stream. -/
def writeTo (stream : IO.FS.Stream) (text : Text) : IO Unit := do
  stream.write (bytesOf text)
  stream.flush

/-- The system as a host. The log goes to the file in the reference, or to the messages if there is none. -/
def system (log : IO.Ref (Option IO.FS.Handle)) : Host IO where
  folders := do
    let parts := (Text.ofString (← IO.currentDir).toString).split (Text.byte '/')
    return (Path.way (Path.follow [] parts)).reverse.map World.showPath
  isPresent name := do
    match ← attempt (IO.FS.Handle.mk (stringOf name) .read) with
    | .ok _ => return true
    | .error _ => return false
  readFile name := do
    return (← attempt (IO.FS.readBinFile (stringOf name))).map textOf
  writeFile name content := do
    return faultIn (← attempt (IO.FS.writeBinFile (stringOf name) (bytesOf content)))
  readInput := do return .ofText (textOf (← readAll (← IO.getStdin) .empty))
  put text := do writeTo (← IO.getStdout) text
  putMessage text := do writeTo (← IO.getStderr) text
  logTo name := do
    match ← attempt (IO.FS.Handle.mk (stringOf name) .append) with
    | .ok handle =>
      log.set (some handle)
      return none
    | .error fault => return some fault
  note entry := do
    match ← log.get with
    | some handle => handle.write (bytesOf entry.text)
    | none => writeTo (← IO.getStderr) entry.text

/-- The number of steps between two times of writing what a run has produced. -/
def slice : Nat := 100000

/-- Goes on with a run to its end; gives the exit code. -/
partial def proceed (host : Host IO) (session : Session) : IO UInt32 := do
  let done := Machine.loop Debugger.hook slice session.debugger session.machine
  let session := { session with machine := done.machine, debugger := done.state }
  if done.ending = .suspended then proceed host (← deliver host session)
  else
    let done := Machine.finish done
    conclude host { session with machine := done.machine } done.ending

/-- Runs the tool with the given arguments; gives the exit code. -/
def run (arguments : List String) : IO UInt32 := do
  let host := system (← IO.mkRef none)
  match ← start host (arguments.map Text.ofString) with
  | .over code => return code
  | .ready session => proceed host { session with machine := session.machine.restart }

end IntegerMachine.CommandLine

/-- The command line tool. -/
def main (arguments : List String) : IO UInt32 := IntegerMachine.CommandLine.run arguments
