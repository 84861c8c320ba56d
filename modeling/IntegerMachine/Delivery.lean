import IntegerMachine.Failure
import IntegerMachine.Sink

/-!
# Delivery

A document goes to a receiver as a sequence of writes. Whoever writes it does not look at each result: a courier stands
in front of the receiver, remembers the first write that was refused, and passes nothing on from then on.
-/
namespace IntegerMachine

/-- Whatever takes texts one at a time. It may refuse a text, with a message. -/
class Receiver (Target : Type) where
  write : Target → Text → Option Text × Target

instance : Receiver Sink := ⟨Sink.write⟩

/-- A document as the sequence of its writes. -/
abbrev Document := List Text

/-- A receiver with the failure of the first write that it has refused. -/
structure Courier (Target : Type) where
  receiver : Target
  failure : Option Failure := none
  deriving DecidableEq, Repr

/-- What can be written to: a receiver as it is, or one that has a courier already. -/
inductive Outlet (Target : Type) where
  | bare (receiver : Target)
  | served (courier : Courier Target)
  deriving DecidableEq, Repr

/-- The courier of an outlet. A courier gets no other one in front of it. -/
def Outlet.courier {Target : Type} : Outlet Target → Courier Target
  | bare receiver => { receiver }
  | served courier => courier

namespace Courier

variable {Target : Type} [Receiver Target]

/-- Passes a text on, unless a write was refused before. -/
def write (courier : Courier Target) (text : Text) : Courier Target :=
  if courier.failure.isSome then courier
  else match Receiver.write courier.receiver text with
    | (none, receiver) => { courier with receiver }
    | (some message, receiver) =>
      { receiver, failure := some { message, contexts := ["write failed"] } }

/-- Writes a document, whether or not its writes are passed on. -/
def writeAll (courier : Courier Target) (document : Document) : Courier Target :=
  document.foldl write courier

/-- What there is to report in the end, and the receiver. -/
def outcome (courier : Courier Target) : Option Failure × Target := (courier.failure, courier.receiver)

end Courier

namespace Document

/-- The text of a document. -/
def text (document : Document) : Text := document.flatten

/-- A document with a first and a last piece around it. -/
def enclose (first : Text) (document : Document) (last : Text) : Document :=
  first :: (document ++ [last])

/-- Writes a document to a receiver. -/
def deliver {Target : Type} [Receiver Target] (document : Document) (receiver : Target) : Option Failure × Target :=
  (Courier.writeAll { receiver } document).outcome

end Document

end IntegerMachine
