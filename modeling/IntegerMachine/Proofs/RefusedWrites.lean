import IntegerMachine.Listing
import IntegerMachine.Review
import IntegerMachine.Proofs.WrittenBytes

/-!
# Refused writes

A listing and a report are written to a courier, and the loops that write them go on after a refused write. Still no
document arrives with a hole in it: a receiver is offered the writes in order up to the first one that it refuses, and
nothing behind it, even if something behind it would fit.

For a receiver that takes a limited number of bytes this says how much arrives: the longest run of initial writes
within the limit. A failure is reported exactly if this is not the whole text.
-/
namespace IntegerMachine

/-! ## Couriers -/

namespace Courier

variable {Target : Type} [Receiver Target]

/-- After a refused write a courier passes nothing on. The loops may go on, but each of their writes is dropped. -/
theorem write_all_failed {courier : Courier Target} (failed : courier.failure.isSome) (document : Document) :
    courier.writeAll document = courier := by
  induction document with
  | nil => rfl
  | cons piece rest ih =>
    have dropped : courier.write piece = courier := if_pos failed
    calc courier.writeAll (piece :: rest) = (courier.write piece).writeAll rest := rfl
      _ = courier.writeAll rest := by rw [dropped]
      _ = courier := ih

/-- Documents written one after the other are one document, whatever is refused in between. -/
theorem write_all_append (courier : Courier Target) (first second : Document) :
    courier.writeAll (first ++ second) = (courier.writeAll first).writeAll second := List.foldl_append

/-- To look at a courier between two documents, and to stop if a write was refused, makes no difference. Writing on
has no effect in that case. -/
theorem write_all_unless_failed (courier : Courier Target) (document : Document) :
    (if courier.failure.isSome then courier else courier.writeAll document) = courier.writeAll document := by
  split
  · next failed => exact (write_all_failed failed document).symm
  · rfl

end Courier

/-! ## Listings -/

section Listings

variable {Target : Type} [Receiver Target]

namespace Blueprint

/-- The loop over instructions writes their listing. The induction is on the code and carries the courier and the
index. -/
theorem write_code (courier : Courier Target) (index : Nat) (code : List Instruction) :
    writeCode courier index code = courier.writeAll (listCode index code) := by
  induction code generalizing courier index with
  | nil => rfl
  | cons instruction rest ih => exact ih _ _

/-- A block is written as it is listed: its first line, the variables, the instructions, and its last line. -/
theorem write_block (blueprint : Blueprint) (first last : Text) (courier : Courier Target) :
    blueprint.writeBlock first last courier = courier.writeAll (.enclose first blueprint.listBody last) := by
  calc blueprint.writeBlock first last courier
      = (((courier.write first).writeAll (listVars blueprint.vars)).writeAll
          (listCode 0 blueprint.code.toList)).write last := by rw [writeBlock, write_code]
    _ = ((courier.write first).writeAll blueprint.listBody).writeAll [last] := by
        rw [← Courier.write_all_append, listBody]
        rfl
    _ = (courier.write first).writeAll (blueprint.listBody ++ [last]) := (Courier.write_all_append _ _ _).symm

end Blueprint

namespace Program

/-- Methods are written as they are listed, one after the other. The loop looks for a refusal between them, which
makes no difference. -/
theorem write_methods (courier : Courier Target) (methods : List Blueprint) :
    writeMethods courier methods = courier.writeAll (methods.flatMap Blueprint.listMethod) := by
  induction methods generalizing courier with
  | nil => rfl
  | cons method rest ih =>
    rw [writeMethods, ih, Courier.write_all_unless_failed, Blueprint.write_block, ← Courier.write_all_append]
    rfl

/-- Blueprints are written as they are listed, the main block first and then the methods. -/
theorem write_blueprints (courier : Courier Target) (blueprints : List Blueprint) :
    writeBlueprints courier blueprints = courier.writeAll (listBlueprints blueprints) := by
  cases blueprints with
  | nil => rfl
  | cons main methods =>
    rw [writeBlueprints, write_methods, Courier.write_all_unless_failed, Blueprint.write_block,
      ← Courier.write_all_append]
    rfl

/-- To write the listing of a program is to deliver the listing. So what is shown for documents holds of the loops
that write listings, for every receiver. -/
theorem list_bare (program : Program) (receiver : Target) :
    program.list (.bare receiver) = program.listing.deliver receiver := by
  rw [list, write_blueprints, ← Courier.write_all_append]
  rfl

end Program

end Listings

/-! ## Receivers that are watched -/

/-- A receiver with all texts that it was offered, whether or not it has taken them. -/
structure Watched (Target : Type) where
  receiver : Target
  offered : List Text := []

instance {Target : Type} [Receiver Target] : Receiver (Watched Target) where
  write watched text :=
    let (refusal, receiver) := Receiver.write watched.receiver text
    (refusal, { receiver, offered := watched.offered ++ [text] })

namespace Courier

variable {Target : Type} [Receiver Target]

/-- A courier whose receiver is not watched any more. -/
def unwatched (courier : Courier (Watched Target)) : Courier Target :=
  { receiver := courier.receiver.receiver, failure := courier.failure }

/-- A text is passed on, or refused, in the same way whether or not the receiver is watched. The receiver below is
given the same text. -/
theorem unwatched_write (courier : Courier (Watched Target)) (text : Text) :
    (courier.write text).unwatched = courier.unwatched.write text := by
  unfold write
  by_cases failed : courier.failure.isSome
  · rw [if_pos failed, if_pos (show courier.unwatched.failure.isSome from failed)]
  · rw [if_neg failed, if_neg (show ¬ courier.unwatched.failure.isSome from failed)]
    cases result : Receiver.write courier.receiver.receiver text with
    | mk refusal next =>
      simp only [Receiver.write, unwatched] at result ⊢
      rw [result]
      cases refusal with
      | none => rfl
      | some message => rfl

/-- To watch a receiver changes nothing about what it receives of a document, nor about what is reported. So whatever is
shown for watched receivers says what happens without anybody who watches. -/
theorem unwatched_write_all (courier : Courier (Watched Target)) (document : Document) :
    (courier.writeAll document).unwatched = courier.unwatched.writeAll document := by
  induction document generalizing courier with
  | nil => rfl
  | cons piece rest ih =>
    calc (courier.writeAll (piece :: rest)).unwatched = ((courier.write piece).writeAll rest).unwatched := rfl
      _ = (courier.write piece).unwatched.writeAll rest := ih _
      _ = (courier.unwatched.write piece).writeAll rest := by rw [unwatched_write]
      _ = courier.unwatched.writeAll (piece :: rest) := rfl

end Courier

/-- A sink that takes any number of bytes. -/
def Watched.unlimited : Watched Sink := { receiver := {} }

/-- A sink that refuses any write that would bring what it has received above a limit. -/
def Watched.limited (limit : Nat) (refusal : Text) : Watched Sink :=
  { receiver := { capacity := some (limit, refusal) } }

/-- A way to write something to any watched sink. -/
abbrev Procedure := Watched Sink → Option Failure × Watched Sink

/-- All writes of a procedure: those that a sink without a limit is offered. -/
def Procedure.writes (procedure : Procedure) : List Text := (procedure .unlimited).2.offered

/-- The whole text of a procedure: what a sink without a limit receives. -/
def Procedure.wholeText (procedure : Procedure) : Text := (procedure .unlimited).2.receiver.text

/-- The longest run of initial writes with no more bytes than the limit. -/
structure LongestRun (limit : Nat) (writes run : List Text) : Prop where
  initial : run <+: writes
  fits : run.flatten.length ≤ limit
  longest : ∀ other, other <+: writes → other.flatten.length ≤ limit → other.length ≤ run.length

/-- With a limited sink, a procedure delivers the longest run of its writes within the limit. The sink is offered this
run and, of the writes behind it, at most the first one. A failure is given exactly if not the whole text was
delivered. -/
structure Procedure.StopsCleanly (procedure : Procedure) (limit : Nat) (refusal : Text) (run : List Text) : Prop where
  longestRun : LongestRun limit procedure.writes run
  delivered : (procedure (.limited limit refusal)).2.receiver.text = run.flatten
  offered : (procedure (.limited limit refusal)).2.offered = procedure.writes.take (run.length + 1)
  failure_iff : (procedure (.limited limit refusal)).1.isSome ↔
    (procedure (.limited limit refusal)).2.receiver.text ≠ procedure.wholeText

/-! ## Writes that fit -/

/-- The initial writes that fit, one after the other, into the given room. -/
def fitting (room : Nat) : List Text → List Text
  | [] => []
  | piece :: rest => if piece.length ≤ room then piece :: fitting (room - piece.length) rest else []

section Fitting

variable {room : Nat} {piece : Text} (rest : List Text)

/-- A write that fits is followed by those that fit into the room that is left. -/
theorem fitting_cons (fits : piece.length ≤ room) :
    fitting room (piece :: rest) = piece :: fitting (room - piece.length) rest := if_pos fits

/-- Behind a write that does not fit there is none, although a shorter one might fit. -/
theorem fitting_refused (tooLong : room < piece.length) : fitting room (piece :: rest) = [] :=
  if_neg (Nat.not_le.mpr tooLong)

end Fitting

/-- The writes that fit one after the other are the longest run that fits. The induction carries the room that is
left. -/
theorem fitting_longest (room : Nat) (writes : List Text) : LongestRun room writes (fitting room writes) := by
  induction writes generalizing room with
  | nil =>
    constructor
    · exact List.nil_prefix
    · exact Nat.zero_le _
    · intro other initial _
      exact initial.length_le
  | cons piece rest ih =>
    rcases Nat.lt_or_ge room piece.length with tooLong | fits
    · rw [fitting_refused rest tooLong]
      constructor
      · exact List.nil_prefix
      · exact Nat.zero_le _
      · intro other initial total
        cases other with
        | nil => exact Nat.le_refl _
        | cons first others =>
          obtain ⟨rfl, _⟩ := List.cons_prefix_cons.mp initial
          rw [List.flatten_cons, List.length_append] at total
          omega
    · rw [fitting_cons rest fits]
      have later := ih (room - piece.length)
      constructor
      · exact (List.prefix_cons_inj piece).mpr later.initial
      · have bound := later.fits
        rw [List.flatten_cons, List.length_append]
        omega
      · intro other initial total
        cases other with
        | nil => exact Nat.zero_le _
        | cons first others =>
          obtain ⟨rfl, behind⟩ := List.cons_prefix_cons.mp initial
          rw [List.flatten_cons, List.length_append] at total
          exact Nat.succ_le_succ (later.longest others behind (by omega))

/-- All bytes are there only if all writes are: the write that does not fit is not empty. A refusal is therefore never
without consequences. -/
theorem fitting_flatten_iff (room : Nat) (writes : List Text) :
    (fitting room writes).flatten = writes.flatten ↔ fitting room writes = writes := by
  induction writes generalizing room with
  | nil => simp [fitting]
  | cons piece rest ih =>
    rcases Nat.lt_or_ge room piece.length with tooLong | fits
    · have filled : piece ≠ [] := List.length_pos_iff.mp (Nat.zero_lt_of_lt tooLong)
      simp [fitting_refused rest tooLong, filled]
    · simp [fitting_cons rest fits, ih]

/-! ## What a courier delivers -/

/-- A sink with a limit takes a text or refuses it as a whole. It never takes a part of a write. -/
theorem Sink.write_limited (sink : Sink) {limit : Nat} {refusal : Text}
    (limited : sink.capacity = some (limit, refusal)) (text : Text) :
    sink.write text =
      if limit < sink.text.length + text.length then (some refusal, sink) else (none, sink.append text) := by
  obtain ⟨received, capacity⟩ := sink
  cases limited
  rfl

namespace Courier

/-- A courier in front of a watched sink, of which nothing was refused yet. -/
def watching (sink : Sink) (offered : List Text) : Courier (Watched Sink) :=
  { receiver := { receiver := sink, offered } }

section Steps

variable {sink next : Sink} {offered : List Text} {piece : Text}

/-- A text that the sink takes leaves nothing to report, and the courier goes on with the sink behind it. -/
theorem write_taken (taken : sink.write piece = (none, next)) :
    (watching sink offered).write piece = watching next (offered ++ [piece]) := by
  have passed : Receiver.write (watching sink offered).receiver piece =
      (none, { receiver := next, offered := offered ++ [piece] }) := by
    simp [Receiver.write, watching, taken]
  rw [write, passed]
  rfl

/-- A text that the sink refuses was offered to it, and the refusal is remembered as the failure that will be
reported. -/
theorem write_refused {refusal : Text} (refused : sink.write piece = (some refusal, next)) :
    (watching sink offered).write piece =
      { watching next (offered ++ [piece]) with
        failure := some { message := refusal, contexts := ["write failed"] } } := by
  have passed : Receiver.write (watching sink offered).receiver piece =
      (some refusal, { receiver := next, offered := offered ++ [piece] }) := by
    simp [Receiver.write, watching, refused]
  rw [write, passed]
  rfl

end Steps

/-- What has become of a sink with some room, behind a courier that was given a document. -/
structure Wrote (sink : Sink) (offered : List Text) (room : Nat) (document : Document)
    (after : Courier (Watched Sink)) : Prop where
  text : after.receiver.receiver.text = sink.text ++ (fitting room document).flatten
  offered : after.receiver.offered = offered ++ document.take ((fitting room document).length + 1)
  failure_iff : after.failure.isSome ↔ fitting room document ≠ document

/-- A courier writes what fits into its sink, and offers it no more than one write behind that. The induction is on the
document: a write that fits leaves a courier with nothing to report and less room, and behind one that does not fit
nothing is passed on. -/
theorem write_all_limited {limit : Nat} {refusal : Text} (document : Document) (sink : Sink) (offered : List Text)
    (limited : sink.capacity = some (limit, refusal)) (within : sink.text.length ≤ limit) :
    Wrote sink offered (limit - sink.text.length) document ((watching sink offered).writeAll document) := by
  induction document generalizing sink offered with
  | nil =>
    constructor
    · exact (List.append_nil _).symm
    · exact (List.append_nil _).symm
    · simp [writeAll, watching, fitting]
  | cons piece rest ih =>
    rcases Nat.lt_or_ge (limit - sink.text.length) piece.length with tooLong | fits
    · have above : limit < sink.text.length + piece.length := by omega
      have refused : sink.write piece = (some refusal, sink) := (sink.write_limited limited piece).trans (if_pos above)
      have stopped : (watching sink offered).writeAll (piece :: rest) = (watching sink offered).write piece :=
        write_all_failed (by rw [write_refused refused]; rfl) rest
      rw [stopped, write_refused refused]
      constructor
      · simp [watching, fitting_refused rest tooLong]
      · simp [watching, fitting_refused rest tooLong]
      · simp [fitting_refused rest tooLong]
    · have notAbove : ¬ limit < sink.text.length + piece.length := by omega
      have taken : sink.write piece = (none, sink.append piece) :=
        (sink.write_limited limited piece).trans (if_neg notAbove)
      have onward : (watching sink offered).writeAll (piece :: rest) =
          (watching (sink.append piece) (offered ++ [piece])).writeAll rest :=
        congrArg (writeAll · rest) (write_taken taken)
      have longer : (sink.append piece).text.length = sink.text.length + piece.length := by
        rw [Sink.text_append, List.length_append]
      have later := ih (sink.append piece) (offered ++ [piece]) limited (by omega)
      have room : limit - (sink.append piece).text.length = limit - sink.text.length - piece.length := by omega
      rw [room] at later
      rw [onward]
      constructor
      · rw [later.text, Sink.text_append, fitting_cons rest fits, List.flatten_cons, List.append_assoc]
      · rw [later.offered, fitting_cons rest fits, List.length_cons, List.take_succ_cons, List.append_assoc,
          List.singleton_append]
      · rw [later.failure_iff, fitting_cons rest fits, ne_eq, ne_eq, List.cons_inj_right]

/-- A sink without a limit is offered all writes of a document and receives its text, and its courier has nothing to
report. Every write is taken, so the sink behind it has no limit either. -/
theorem write_all_unlimited (document : Document) (sink : Sink) (offered : List Text)
    (unlimited : sink.capacity = none) :
    ((watching sink offered).writeAll document).failure = none ∧
      ((watching sink offered).writeAll document).receiver.offered = offered ++ document ∧
      ((watching sink offered).writeAll document).receiver.receiver.text = sink.text ++ document.flatten := by
  induction document generalizing sink offered with
  | nil => simp [writeAll, watching]
  | cons piece rest ih =>
    have onward : (watching sink offered).writeAll (piece :: rest) =
        (watching (sink.append piece) (offered ++ [piece])).writeAll rest :=
      congrArg (writeAll · rest) (write_taken (Sink.write_unlimited unlimited piece))
    obtain ⟨nothing, all, text⟩ := ih (sink.append piece) (offered ++ [piece]) unlimited
    rw [onward, nothing, all, text, Sink.text_append, List.append_assoc, List.append_assoc]
    exact ⟨rfl, rfl, rfl⟩

end Courier

/-- A sink without a limit receives the whole listing that the loops over a program write, behind what it has received
before, and no failure is reported. -/
theorem Program.list_unlimited (program : Program) (sink : Sink) (unlimited : sink.capacity = none) :
    (program.list (.bare sink)).1 = none ∧
      (program.list (.bare sink)).2.text = sink.text ++ program.listing.text := by
  obtain ⟨nothing, _, text⟩ := Courier.write_all_unlimited program.listing sink [] unlimited
  have listed : program.list (.bare sink) =
      ((Courier.watching sink []).writeAll program.listing).unwatched.outcome := by
    rw [program.list_bare, Courier.unwatched_write_all]
    rfl
  rw [listed]
  exact ⟨nothing, text⟩

/-- The delivery of a document stops cleanly. The run that is delivered are the writes that fit, and all parts of the
statement are read off the courier with a limited sink and the one with an unlimited sink. -/
theorem deliver_stops_cleanly (document : Document) (limit : Nat) (refusal : Text) :
    Procedure.StopsCleanly (fun sink => document.deliver sink) limit refusal (fitting limit document) := by
  let deliver : Procedure := fun sink => document.deliver sink
  obtain ⟨_, all, whole⟩ := Courier.write_all_unlimited document {} [] rfl
  have writes : deliver.writes = document := all
  have wholeText : deliver.wholeText = document.flatten := whole
  have wrote := Courier.write_all_limited document { capacity := some (limit, refusal) } [] rfl (Nat.zero_le limit)
  have delivered : (deliver (.limited limit refusal)).2.receiver.text = (fitting limit document).flatten := wrote.text
  constructor
  · change LongestRun limit deliver.writes _
    rw [writes]
    exact fitting_longest limit document
  · exact delivered
  · change _ = deliver.writes.take _
    rw [writes]
    exact wrote.offered
  · change _ ↔ (deliver (.limited limit refusal)).2.receiver.text ≠ deliver.wholeText
    rw [delivered, wholeText, ne_eq, fitting_flatten_iff]
    exact wrote.failure_iff

/-- Behind a write that does not fit, one that would fit is not tried. -/
example : let (failure, sink) := Document.deliver ["ab", "cdef", "g"] (Watched.limited 3 "full")
    failure.map Failure.text = some "write failed: full" ∧ sink.receiver.text = "ab" ∧
      sink.offered = ["ab", "cdef"] := by
  decide +kernel

/-- Listings and reports stop cleanly when a sink refuses a write. Nothing is asked of the limit, which may be zero,
nor of the program and the review. -/
theorem listing_and_report_stop_cleanly (program : Program) (review : Review) (limit : Nat) (refusal : Text) :
    (∃ run, Procedure.StopsCleanly (fun sink => program.list (.bare sink)) limit refusal run) ∧
      ∃ run, Procedure.StopsCleanly (fun sink => review.report.deliver sink) limit refusal run := by
  have listed : (fun sink : Watched Sink => program.list (.bare sink)) = fun sink => program.listing.deliver sink :=
    funext fun sink => program.list_bare sink
  constructor
  · rw [listed]
    exact ⟨_, deliver_stops_cleanly program.listing limit refusal⟩
  · exact ⟨_, deliver_stops_cleanly review.report limit refusal⟩

end IntegerMachine
