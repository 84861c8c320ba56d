import IntegerMachine.Text.Basic

/-!
# Failures

A failure is what is reported when an activity cannot be completed: the message of what went wrong,
and the activities it went wrong in, the outermost first.
-/
namespace IntegerMachine

/-- A message with the contexts it arose in. -/
structure Failure where
  message : Text
  /-- The activities that failed because of it, the outermost first. -/
  contexts : List Text := []
  deriving DecidableEq, Repr

namespace Failure

/-- The failure as it is seen from an activity around it. -/
def within (context : Text) (failure : Failure) : Failure :=
  { failure with contexts := context :: failure.contexts }

/-- The failure on one line, the outermost context first. -/
def text (failure : Failure) : Text := .join ": " (failure.contexts ++ [failure.message])

/-- The failure as a trail of lines, from what went wrong to the outermost context. -/
def trail (failure : Failure) : Text := .join "\n" (failure.message :: failure.contexts.reverse)

/-- The failure of a look-up outside of a table. A negative index is refused before the length counts. -/
def badIndex (index : Int) (length : Nat) : Failure :=
  { message := .concat ["runtime error: index out of range [", .ofInt index, "]",
      if index < 0 then [] else .concat [" with length ", .ofNat length]] }

/-- The failure of a use of something that is missing. -/
def missing : Failure :=
  { message := "runtime error: invalid memory address or nil pointer dereference" }

end Failure

end IntegerMachine
