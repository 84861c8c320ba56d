import IntegerMachine.Proofs.Building
import IntegerMachine.Proofs.Decoding
import IntegerMachine.Proofs.Devices
import Mathlib.Data.List.Forall2

/-!
# What an output receives

A device may hold back a part of what was written. It is described by the state in which a flush leaves it: everything
has reached the sink then, and what a write adds to it does not depend on what was held back. An output is reliable if
neither its sink nor its device refuses anything.
-/
namespace IntegerMachine

/-! ## Sinks and buffers -/

namespace Sink

/-- The sink after it has received a text. -/
def append (sink : Sink) (text : Text) : Sink := { sink with received := sink.received.appendList text }

/-- A sink without a capacity takes everything. A write to it never fails, however much it has received. -/
theorem write_unlimited {sink : Sink} (unlimited : sink.capacity = none) (text : Text) :
    sink.write text = (none, sink.append text) := by
  obtain ⟨received, capacity⟩ := sink
  cases unlimited
  rfl

/-- The text of a sink that has received more is what it had, with the new text behind it. -/
theorem text_append (sink : Sink) (text : Text) : (sink.append text).text = sink.text ++ text :=
  Array.toList_appendList

/-- Receiving two texts one after the other is receiving them at once. How writes are divided cannot be told from a
sink. -/
theorem append_append (sink : Sink) (first second : Text) :
    (sink.append first).append second = sink.append (first ++ second) := by
  have received : ((sink.append first).append second).received = (sink.append (first ++ second)).received := by
    apply Array.ext'
    change ((sink.append first).append second).text = (sink.append (first ++ second)).text
    rw [text_append, text_append, text_append, List.append_assoc]
  exact congrArg (fun received => { sink with received }) received

end Sink

namespace Buffer

/-- What the sink has received when everything that is pending was passed on. -/
def drained (buffer : Buffer) (sink : Sink) : Sink := sink.append buffer.pending.toList

/-- What is added to a buffer is added to what the sink will have received. It comes behind what is pending
already. -/
theorem drained_append (buffer : Buffer) (sink : Sink) (text : Text) :
    (buffer.append text).drained sink = (buffer.drained sink).append text := by
  rw [drained, drained, append, Sink.append_append]
  exact congrArg sink.append Array.toList_appendList

/-- A buffer has taken a text: it is behind everything that was given to the buffer before, and nothing has failed. -/
structure Takes (before : Sink) (text : Text) (buffer : Buffer) (sink : Sink) : Prop where
  sound : buffer.failure = none
  unlimited : sink.capacity = none
  drained : buffer.drained sink = before.append text

section Reliable

variable {buffer : Buffer} {sink : Sink} (sound : buffer.failure = none) (unlimited : sink.capacity = none)

include sound

/-- A buffer that has not failed takes a text that is put behind what is pending. The sink is not touched. -/
theorem append_takes (unlimited : sink.capacity = none) (text : Text) :
    Takes (buffer.drained sink) text (buffer.append text) sink :=
  ⟨sound, unlimited, drained_append buffer sink text⟩

include unlimited

/-- Flushing passes on what is pending. The buffer is empty afterwards, and has not failed since the sink takes
everything. -/
theorem flush_reliable : buffer.flush sink = (none, {}, buffer.drained sink) := by
  obtain ⟨⟨pending⟩, failure⟩ := buffer
  cases sound
  cases pending with
  | nil => rfl
  | cons first rest =>
    rw [flush, Sink.write_unlimited unlimited]
    rfl

/-- An empty buffer takes every text, at once or by passing it on. A text that is larger than the buffer goes to the
sink directly. -/
theorem write_empty_takes (empty : buffer.pending = #[]) (text : Text) :
    ∃ after rest, buffer.writeEmpty sink text = ({ count := text.length }, after, rest) ∧
      Takes (buffer.drained sink) text after rest := by
  rw [writeEmpty]
  by_cases fits : text.length ≤ size
  · rw [if_pos fits]
    exact ⟨_, _, rfl, append_takes sound unlimited text⟩
  · rw [if_neg fits, Sink.write_unlimited unlimited]
    refine ⟨_, _, rfl, sound, unlimited, ?_⟩
    rw [drained, drained, empty]
    rfl

/-- A buffer takes every text. It may pass on what is pending on the way, and where it does is not told: what the sink
will have received is the same. -/
theorem write_takes (text : Text) :
    ∃ count after rest, buffer.write sink text = ({ count }, after, rest) ∧
      Takes (buffer.drained sink) text after rest := by
  have whole : ¬ buffer.failure.isSome = true := by rw [sound]; exact Bool.false_ne_true
  rw [write, if_neg whole]
  by_cases fits : text.length ≤ buffer.available
  · rw [if_pos fits]
    exact ⟨_, _, _, rfl, append_takes sound unlimited text⟩
  · rw [if_neg fits]
    by_cases empty : buffer.pending.isEmpty = true
    · rw [if_pos empty]
      obtain ⟨after, rest, written, takes⟩ :=
        write_empty_takes sound unlimited (Array.isEmpty_iff.mp empty) text
      exact ⟨_, after, rest, written, takes⟩
    · rw [if_neg empty]
      -- The buffer is filled up and flushed, and takes the rest when it is empty.
      have filled : (buffer.append (text.take buffer.available)).failure = none := sound
      have fresh : ({} : Buffer).failure = none := rfl
      have open' : ((buffer.drained sink).append (text.take buffer.available)).capacity = none := unlimited
      obtain ⟨after, rest, written, takes⟩ := write_empty_takes fresh open' rfl (text.drop buffer.available)
      dsimp only
      rw [flush_reliable filled unlimited, drained_append]
      dsimp only
      rw [written]
      refine ⟨_, after, rest, rfl, takes.sound, takes.unlimited, ?_⟩
      calc after.drained rest
          = ((buffer.drained sink).append (text.take buffer.available)).append (text.drop buffer.available) :=
            takes.drained
        _ = (buffer.drained sink).append text := by rw [Sink.append_append, List.take_append_drop]

/-- A buffer takes every text after making room for it. If there is no room left, what is pending is passed on
first. -/
theorem write_within_takes (room : Nat) (text : Text) :
    ∃ after rest, buffer.writeWithin sink room text = (none, after, rest) ∧
      Takes (buffer.drained sink) text after rest := by
  have whole : ¬ buffer.failure.isSome = true := by rw [sound]; exact Bool.false_ne_true
  rw [writeWithin, if_neg whole]
  by_cases fits : room ≤ buffer.available
  · rw [if_pos fits]
    exact ⟨_, _, rfl, append_takes sound unlimited text⟩
  · have fresh : ({} : Buffer).failure = none := rfl
    have drains : (buffer.drained sink).capacity = none := unlimited
    rw [if_neg fits, flush_reliable sound unlimited]
    exact ⟨_, _, rfl, append_takes fresh drains text⟩

end Reliable

end Buffer

/-! ## Devices -/

namespace Device

/-- The failure that a device reports. -/
def failure? : Device → Option Text
  | none | characters => .none
  | buffered buffer => buffer.failure
  | bytes flushFailure => flushFailure
  | tracked tracker => tracker.buffer.failure

/-- What a device holds back. -/
def pending : Device → Text
  | none | characters | bytes _ => []
  | buffered buffer => buffer.pending.toList
  | tracked tracker => tracker.buffer.pending.toList

/-- The device when it holds back nothing. -/
def settled : Device → Device
  | buffered _ => buffered {}
  | tracked tracker => tracked { tracker with buffer := {} }
  | device => device

/-- Whether a device is given characters. -/
def takesCharacters : Device → Bool
  | characters | buffered _ => true
  | none | bytes _ | tracked _ => false

/-- Whether a device is given bytes. -/
def takesBytes : Device → Bool
  | bytes _ | tracked _ => true
  | none | characters | buffered _ => false

/-- What a device makes of a cell. -/
def encode (device : Device) (cell : Cell) : Text :=
  if device.takesCharacters then Output.encodeCharacter cell
  else if device.takesBytes then Output.encodeBytes cell
  else []

/-- A device that holds back nothing after a cell was written. -/
def follow (cell : Cell) : Device → Device
  | tracked tracker =>
    tracked { tracker with partialLine := LineTracker.follow tracker.partialLine (Output.encodeBytes cell) }
  | device => device

/-- What a device that is given characters makes of cells, whether it holds them back or not. -/
theorem encode_character {device : Device} (given : device.takesCharacters = true) :
    device.encode = Output.encodeCharacter := by
  funext cell
  exact if_pos given

/-- What a device that is given bytes makes of cells. No device is given both, so that the first test fails for it. -/
theorem encode_bytes {device : Device} (given : device.takesBytes = true) : device.encode = Output.encodeBytes := by
  funext cell
  cases device with
  | bytes | tracked => rfl
  | none | characters | buffered => cases given

/-- What a device makes of cells does not depend on what it holds back. Passing it on keeps the kind of the device. -/
theorem encode_settled (device : Device) : device.settled.encode = device.encode := by
  cases device <;> rfl

/-- What a device makes of cells does not depend on the line that it is in. A tracker only remembers the line. -/
theorem encode_follow (device : Device) (cell : Cell) : (device.follow cell).encode = device.encode := by
  cases device <;> rfl

end Device

namespace Output

/-- Neither the sink nor the device refuses anything. -/
structure Reliable (output : Output) : Prop where
  unlimited : output.sink.capacity = none
  sound : output.device.failure? = none

/-- The output when the device has passed on everything. -/
def settled (output : Output) : Output :=
  { device := output.device.settled, sink := output.sink.append output.device.pending }

/-- Flushing a reliable output passes on everything. It does not fail, whatever the device is. -/
theorem flush_reliable {output : Output} (reliable : output.Reliable) : output.flush = (none, output.settled) := by
  obtain ⟨device, sink⟩ := output
  obtain ⟨unlimited, sound⟩ := reliable
  cases device with
  | none | characters => rfl
  | bytes flushFailure =>
    cases sound
    rfl
  | buffered buffer =>
    rw [flush]
    dsimp only
    rw [Buffer.flush_reliable sound unlimited]
    rfl
  | tracked tracker =>
    simp only [flush, LineTracker.flush, Buffer.flush_reliable sound unlimited]
    rfl

/-- An output that holds back nothing after a cell was written. -/
def receive (output : Output) (cell : Cell) : Output :=
  { device := output.device.follow cell, sink := output.sink.append (output.device.encode cell) }

/-- A reliable output takes every cell and stays reliable. What it holds back then makes no difference to what it was
given in the end. -/
theorem put_reliable {output : Output} (reliable : output.Reliable) (cell : Cell) :
    (output.put cell).1 = none ∧ (output.put cell).2.Reliable ∧
      (output.put cell).2.settled = output.settled.receive cell := by
  obtain ⟨device, sink⟩ := output
  obtain ⟨unlimited, sound⟩ := reliable
  cases device with
  | none => exact ⟨rfl, ⟨unlimited, sound⟩, rfl⟩
  | characters =>
    rw [put]
    dsimp only
    rw [Sink.write_unlimited unlimited]
    exact ⟨rfl, ⟨unlimited, sound⟩, rfl⟩
  | bytes flushFailure =>
    rw [put]
    dsimp only
    rw [Sink.write_unlimited unlimited]
    exact ⟨rfl, ⟨unlimited, sound⟩, rfl⟩
  | buffered buffer =>
    obtain ⟨after, rest, written, takes⟩ := Buffer.write_within_takes sound unlimited
      (if 0 ≤ cell ∧ cell < 128 then 1 else 4) (encodeCharacter cell)
    rw [put]
    dsimp only
    rw [written]
    refine ⟨rfl, ⟨takes.unlimited, takes.sound⟩, ?_⟩
    exact congrArg (Output.mk (.buffered {})) takes.drained
  | tracked tracker =>
    obtain ⟨count, after, rest, written, takes⟩ := Buffer.write_takes sound unlimited (encodeBytes cell)
    rw [put]
    dsimp only
    rw [LineTracker.write, written]
    refine ⟨rfl, ⟨takes.unlimited, takes.sound⟩, ?_⟩
    exact congrArg (Output.mk _) takes.drained

/-- A reliable output does not refuse a cell, so that the instruction that writes it is completed. -/
theorem put_accepted {output : Output} (reliable : output.Reliable) (cell : Cell) : (output.put cell).1 = none :=
  (put_reliable reliable cell).1

/-- A reliable output is reliable after a cell was written, or none at all. -/
theorem Reliable.after {output : Output} (reliable : output.Reliable) (cell : Option Cell) :
    (output.after cell).Reliable := by
  cases cell with
  | none => exact reliable
  | some cell => exact (put_reliable reliable cell).2.1

/-- The output after cells were written, the first one first. -/
def afterAll (output : Output) (cells : List Cell) : Output :=
  cells.foldl (fun output cell => (output.put cell).2) output

/-- Writing some cells and then others is writing all of them in this order. -/
theorem after_all_append (output : Output) (first second : List Cell) :
    output.afterAll (first ++ second) = (output.afterAll first).afterAll second :=
  List.foldl_append

/-- What an instruction writes is a list of one cell at most. By this the outputs of single instructions are put
together to that of a run. -/
theorem after_all_written (output : Output) (cell : Option Cell) : output.afterAll cell.toList = output.after cell := by
  cases cell <;> rfl

/-- A reliable output takes all cells and stays reliable. What it was given in the end is what it makes of the cells,
one behind the other. The induction is on the cells, and what is held back in between drops out. -/
theorem after_all_reliable {output : Output} (reliable : output.Reliable) (cells : List Cell) :
    (output.afterAll cells).Reliable ∧
      (output.afterAll cells).settled.sink = output.settled.sink.append (cells.flatMap output.device.encode) := by
  induction cells generalizing output with
  | nil => exact ⟨reliable, rfl⟩
  | cons cell rest ih =>
    obtain ⟨_, still, receives⟩ := put_reliable reliable cell
    obtain ⟨reliable, sink⟩ := ih still
    have device : (output.put cell).2.device.settled = output.device.settled.follow cell :=
      congrArg Output.device receives
    have encodes : (output.put cell).2.device.encode = output.device.encode := by
      rw [← Device.encode_settled, device, Device.encode_follow, Device.encode_settled]
    have first : (output.put cell).2.settled.sink = output.settled.sink.append (output.device.encode cell) := by
      rw [receives, ← Device.encode_settled output.device]
      rfl
    refine ⟨reliable, ?_⟩
    calc ((output.put cell).2.afterAll rest).settled.sink
        = (output.settled.sink.append (output.device.encode cell)).append (rest.flatMap output.device.encode) := by
          rw [sink, first, encodes]
      _ = output.settled.sink.append ((cell :: rest).flatMap output.device.encode) := by
          rw [Sink.append_append, List.flatMap_cons]

end Output

/-! ## Runs -/

namespace Machine

/-- The cells that a run without a hook writes from a machine on, in the order of execution. -/
def writes (fuel : Nat) (machine : Machine) : List Cell :=
  (dispatched noHook fuel () machine).flatMap fun dispatch => (dispatch.machine.written dispatch.instruction).toList

/-- The output of a run is what writing its cells makes of the output. Nothing else touches it, since there is no
hook. The output need not be reliable here. -/
theorem loop_writes (fuel : Nat) (machine : Machine) :
    (loop noHook fuel () machine).machine.output = machine.output.afterAll (writes fuel machine) := by
  induction fuel generalizing machine with
  | zero => rfl
  | succ fuel ih =>
    rw [loop, writes, dispatched]
    cases phase : machine.next with
    | «over» => rfl
    | left after =>
      rw [← (left_devices phase).2]
      exact ih after
    | ready reached instruction =>
      obtain ⟨-, output, frame, callers, frames⟩ := ready_devices phase
      have written : (reached.execute instruction).state.output =
          machine.output.afterAll (reached.written instruction).toList := by
        rw [(execute_devices frames instruction).2, output, Output.after_all_written]
      dsimp only [noHook]
      rw [List.flatMap_cons, Output.after_all_append, ← written]
      cases raised : (reached.execute instruction).trap with
      | some trap => rfl
      | none => exact ih (reached.execute instruction).state

/-- A run is another one but for the output, to which the same cells were written. -/
structure Rewired (output : Output) (cells : List Cell) (first second : Finish Unit) : Prop where
  ending : second.ending = first.ending
  machine : second.machine = first.machine.connect first.machine.input (output.afterAll cells)

/-- With another output that is reliable too, a run writes the same cells and is the same but for the output. A
program cannot see what becomes of its writes unless one is refused, and none is. -/
theorem loop_rewired {machine : Machine} (own : machine.output.Reliable) {output : Output} (reliable : output.Reliable)
    (fuel : Nat) :
    writes fuel (machine.connect machine.input output) = writes fuel machine ∧
      Rewired output (writes fuel machine) (loop noHook fuel () machine)
        (loop noHook fuel () (machine.connect machine.input output)) := by
  induction fuel generalizing machine output with
  | zero => exact ⟨rfl, rfl, rfl⟩
  | succ fuel ih =>
    rw [writes, writes, loop, loop, dispatched, dispatched, next_connect]
    cases phase : machine.next with
    | «over» => exact ⟨rfl, rfl, rfl⟩
    | left after =>
      obtain ⟨input, sameOutput⟩ := left_devices phase
      rw [← sameOutput] at own
      rw [← input]
      exact ih own reliable
    | ready reached instruction =>
      obtain ⟨input, sameOutput, frame, callers, frames⟩ := ready_devices phase
      rw [← sameOutput] at own
      obtain ⟨nextInput, nextOutput⟩ := execute_devices frames instruction
      have connected := execute_connect reached.input output frames instruction (fun _ => rfl) fun _ value =>
        (Output.put_accepted reliable value).trans (Output.put_accepted own value).symm
      rw [← nextInput] at connected
      rw [← input]
      dsimp only [Phase.connect, noHook]
      rw [List.flatMap_cons, List.flatMap_cons, connected]
      dsimp only [Outcome.connect]
      have stillOwn : (reached.execute instruction).state.output.Reliable := nextOutput ▸ own.after _
      obtain ⟨sameCells, rewired⟩ := ih stillOwn (reliable.after (reached.written instruction))
      cases raised : (reached.execute instruction).trap with
      | some trap =>
        refine ⟨rfl, rfl, ?_⟩
        rw [List.flatMap_nil, List.append_nil, Output.after_all_written]
      | none =>
        refine ⟨congrArg _ sameCells, rewired.ending, ?_⟩
        rw [Output.after_all_append, Output.after_all_written]
        exact rewired.machine

/-- The machine when its output has passed on everything. -/
def settled (machine : Machine) : Machine := { machine with output := machine.output.settled }

/-- Passing on everything makes no other difference between two runs than there was. It only concerns the output, in
which they differ anyway. -/
theorem Rewired.settled {output : Output} {cells : List Cell} {first second : Finish Unit}
    (rewired : Rewired output cells first second) :
    second.machine.settled = { first.machine.settled with output := second.machine.settled.output } := by
  rw [rewired.machine]
  rfl

/-- The flush at the end of a run on a reliable output passes on everything and does not fail. The ending of the run
stays as it is. -/
theorem finish_reliable {State : Type} {result : Finish State} (reliable : result.machine.output.Reliable) :
    Machine.finish result = { result with machine := result.machine.settled } := by
  obtain ⟨state, machine, ending⟩ := result
  rw [Machine.finish, Output.flush_reliable reliable]
  cases ending <;> rfl

/-- The output after a run on a reliable output is what its cells have made of it, with everything passed on. A
program without a main block writes nothing. -/
theorem run_writes {machine : Machine} (reliable : machine.output.Reliable) (fuel : Nat) :
    (machine.run noHook fuel ()).machine.output =
      (machine.output.afterAll (writes fuel machine.restart)).settled := by
  rw [run]
  by_cases main : machine.program.main?.isSome = true
  · have written := loop_writes fuel machine.restart
    have still : (loop noHook fuel () machine.restart).machine.output.Reliable :=
      written ▸ (Output.after_all_reliable reliable _).1
    rw [if_pos main, finish_reliable still]
    exact congrArg Output.settled written
  · rw [if_neg main, finish_reliable reliable, writes, no_main_dispatched main]
    rfl

/-- A run without a hook on an output. -/
def runOn (machine : Machine) (output : Output) (fuel : Nat) : Finish Unit :=
  ({ machine with output } : Machine).run noHook fuel ()

/-- The cells that are written in a run without a hook on an output, in the order of execution. -/
def cellsOn (machine : Machine) (output : Output) (fuel : Nat) : List Cell :=
  writes fuel ({ machine with output } : Machine).restart

/-- On two reliable outputs a run writes the same cells and is the same but for the outputs. The final flush is
included in this. -/
theorem run_rewired (machine : Machine) {first second : Output} (firstReliable : first.Reliable)
    (secondReliable : second.Reliable) (fuel : Nat) :
    machine.cellsOn second fuel = machine.cellsOn first fuel ∧
      (machine.runOn second fuel).ending = (machine.runOn first fuel).ending ∧
      (machine.runOn second fuel).machine =
        { (machine.runOn first fuel).machine with output := (machine.runOn second fuel).machine.output } := by
  have own : ({ machine with output := first } : Machine).restart.output.Reliable := firstReliable
  obtain ⟨sameCells, rewired⟩ := loop_rewired own secondReliable fuel
  refine ⟨sameCells, ?_⟩
  rw [runOn, runOn, run, run]
  by_cases main : machine.program.main?.isSome = true
  · have firstStill : (loop noHook fuel () ({ machine with output := first } : Machine).restart).machine.output.Reliable := by
      rw [loop_writes]
      exact (Output.after_all_reliable firstReliable _).1
    have secondStill :
        (loop noHook fuel () ({ machine with output := second } : Machine).restart).machine.output.Reliable := by
      rw [loop_writes]
      exact (Output.after_all_reliable secondReliable _).1
    rw [if_pos main, if_pos main, finish_reliable firstStill, finish_reliable secondStill]
    exact ⟨rewired.ending, rewired.settled⟩
  · rw [if_neg main, if_neg main, finish_reliable secondReliable, finish_reliable firstReliable]
    exact ⟨rfl, rfl⟩

/-- What a reliable output has received in the end of a run on it: what it was given before, and then the cells as its
device encodes them. -/
theorem run_received (machine : Machine) {output : Output} (reliable : output.Reliable) (fuel : Nat) :
    (machine.runOn output fuel).machine.output.sink.text =
      output.settled.sink.text ++ (machine.cellsOn output fuel).flatMap output.device.encode := by
  have own : ({ machine with output } : Machine).output.Reliable := reliable
  rw [runOn, run_writes own, (Output.after_all_reliable reliable _).2, Sink.text_append]
  rfl

end Machine

/-! ## Characters and bytes -/

/-- The text of a cell is the encoding of the character with that code point, and of the replacement where there is no
such character. -/
inductive Encodes (cell : Cell) : Text → Prop where
  | character (character : Char) (point : (character.toNat : Int) = cell.toInt) : Encodes cell (Text.ofChar character)
  | replaced (invalid : ∀ character : Char, (character.toNat : Int) ≠ cell.toInt) :
      Encodes cell (Text.ofChar replacement)

namespace Output

/-- A device that takes characters is given the text of a cell. Negative cells, surrogates and numbers above all code
points are replaced. -/
theorem encode_character_encodes (cell : Cell) : Encodes cell (encodeCharacter cell) := by
  rw [encodeCharacter, Text.ofCodePoint]
  split
  · next valid =>
    apply Encodes.character
    have isChar : cell.toInt.toNat.isValidChar := by
      rw [Nat.isValidChar]
      omega
    rw [to_nat_of_nat _ isChar]
    omega
  · next invalid =>
    apply Encodes.replaced
    intro character point
    have valid : character.toNat < 0xD800 ∨ 0xDFFF < character.toNat ∧ character.toNat < 0x110000 := character.valid
    omega

/-- The low byte of a small cell is the cell. Below 128 it is the encoding of the character, too. -/
theorem low_byte (cell : Cell) (low : 0 ≤ cell.toInt) (high : cell.toInt < 128) :
    cell.toUInt32.toUInt8.toNat = cell.toInt.toNat := by
  have signed : cell.toInt = cell.toBitVec.toInt := rfl
  have unsigned : cell.toUInt32.toNat = cell.toBitVec.toNat := rfl
  have bounded := cell.toBitVec.isLt
  have value := BitVec.toInt_eq_toNat_cond cell.toBitVec
  rw [UInt32.toNat_toUInt8, unsigned]
  split at value <;> omega

/-- For a cell that is not negative bytes and characters are the same. Below 128 both are one byte, and from there on
bytes are those of the character. -/
theorem encode_bytes_of_nonneg {cell : Cell} (nonneg : 0 ≤ cell) : encodeBytes cell = encodeCharacter cell := by
  rw [Int32.le_iff_toInt_le, Int32.toInt_zero] at nonneg
  rw [encodeBytes, encodeCharacter]
  split
  · next small =>
    rw [Int32.lt_iff_toInt_lt] at small
    have high : cell.toInt < 128 := small
    have value := low_byte cell nonneg high
    have isPoint : 0 ≤ cell.toInt ∧ cell.toInt < 0xD800 ∨ 0xDFFF < cell.toInt ∧ cell.toInt ≤ 0x10FFFF := by omega
    rw [Text.ofCodePoint, if_pos isPoint, ← value]
    exact (Text.of_char_ascii (by omega)).symm
  · rfl

/-- A negative cell is one byte, but a character of three bytes. The byte is the lowest of the cell, and the character
is the replacement. -/
theorem encode_of_negative {cell : Cell} (negative : ¬ 0 ≤ cell) :
    (encodeBytes cell).length = 1 ∧ (encodeCharacter cell).length = 3 := by
  rw [Int32.le_iff_toInt_le, Int32.toInt_zero] at negative
  have small : cell < 128 := by
    rw [Int32.lt_iff_toInt_lt]
    change cell.toInt < 128
    omega
  have noPoint : ¬ (0 ≤ cell.toInt ∧ cell.toInt < 0xD800 ∨ 0xDFFF < cell.toInt ∧ cell.toInt ≤ 0x10FFFF) := by omega
  rw [encodeBytes, if_pos small, encodeCharacter, Text.ofCodePoint, if_neg noPoint]
  exact ⟨rfl, rfl⟩

/-- The bytes of cells are no longer than their characters. They are as long for each cell that is not negative, and
shorter for the others. -/
theorem encode_bytes_length (cells : List Cell) :
    (cells.flatMap encodeBytes).length ≤ (cells.flatMap encodeCharacter).length := by
  induction cells with
  | nil => exact Nat.le_refl _
  | cons cell rest ih =>
    rw [List.flatMap_cons, List.flatMap_cons, List.length_append, List.length_append]
    by_cases nonneg : 0 ≤ cell
    · rw [encode_bytes_of_nonneg nonneg]
      exact Nat.add_le_add_left ih _
    · obtain ⟨one, three⟩ := encode_of_negative nonneg
      omega

/-- The bytes of cells are their characters exactly if no cell is negative. One negative cell is enough to make a
difference, because the bytes never catch up. -/
theorem encode_bytes_eq_iff (cells : List Cell) :
    cells.flatMap encodeBytes = cells.flatMap encodeCharacter ↔ ∀ cell ∈ cells, 0 ≤ cell := by
  induction cells with
  | nil => simp
  | cons cell rest ih =>
    rw [List.forall_mem_cons, ← ih, List.flatMap_cons, List.flatMap_cons]
    by_cases nonneg : 0 ≤ cell
    · rw [encode_bytes_of_nonneg nonneg, List.append_cancel_left_eq]
      exact (and_iff_right nonneg).symm
    · refine iff_of_false ?_ (fun both => nonneg both.1)
      intro same
      have lengths := congrArg List.length same
      rw [List.length_append, List.length_append] at lengths
      have shorter := encode_bytes_length rest
      obtain ⟨one, three⟩ := encode_of_negative nonneg
      omega

end Output

/-- On two reliable outputs, one given bytes and one given characters, a run is the same but for the outputs. The one
given characters has received the texts of the cells that were written, in the order of execution. The one given bytes
has received the same exactly if none of the cells is negative. -/
theorem plain_bytes_agree_iff (machine : Machine) (plain runes : Output) (plainReliable : plain.Reliable)
    (runesReliable : runes.Reliable) (isPlain : plain.device.takesBytes = true)
    (isRunes : runes.device.takesCharacters = true) (fuel : Nat) :
    machine.cellsOn runes fuel = machine.cellsOn plain fuel ∧
      (machine.runOn runes fuel).ending = (machine.runOn plain fuel).ending ∧
      (machine.runOn runes fuel).machine =
        { (machine.runOn plain fuel).machine with output := (machine.runOn runes fuel).machine.output } ∧
      ∃ received texts,
        (machine.runOn plain fuel).machine.output.sink.text = plain.settled.sink.text ++ received ∧
        (machine.runOn runes fuel).machine.output.sink.text = runes.settled.sink.text ++ texts.flatten ∧
        List.Forall₂ Encodes (machine.cellsOn plain fuel) texts ∧
        (received = texts.flatten ↔ ∀ cell ∈ machine.cellsOn plain fuel, 0 ≤ cell) := by
  obtain ⟨sameCells, ending, rewired⟩ := machine.run_rewired plainReliable runesReliable fuel
  refine ⟨sameCells, ending, rewired, (machine.cellsOn plain fuel).flatMap Output.encodeBytes,
    (machine.cellsOn plain fuel).map Output.encodeCharacter, ?_, ?_, ?_, ?_⟩
  · rw [machine.run_received plainReliable, Device.encode_bytes isPlain]
  · rw [machine.run_received runesReliable, Device.encode_character isRunes, sameCells]
    rfl
  · rw [List.forall₂_map_right_iff, List.forall₂_same]
    intro cell _
    exact Output.encode_character_encodes cell
  · exact Output.encode_bytes_eq_iff _

/-- A program that writes a letter, a character of three bytes, a surrogate and a number above all code points. -/
def mixedPoints : Source := .ofText ".main
BIPUSH 'H'
OUT
BIPUSH 0x263A
OUT
BIPUSH 0xD800
OUT
BIPUSH 0x110000
OUT
.end-main
"

/-- A line tracker and a buffer for characters receive the same bytes: the last two cells are replaced in both. -/
theorem mixed_points_agree : ∃ program, (mixedPoints.compile "m").2 = .ok program ∧
    ({ program } : Machine).cellsOn { device := .tracked {} } 9 = [0x48, 0x263A, 0xD800, 0x110000] ∧
    (({ program } : Machine).runOn { device := .tracked {} } 9).machine.output.sink.text =
      (({ program } : Machine).runOn { device := .buffered {} } 9).machine.output.sink.text ∧
    (({ program } : Machine).runOn { device := .buffered {} } 9).machine.output.sink.text =
      [0x48, 0xE2, 0x98, 0xBA, 0xEF, 0xBF, 0xBD, 0xEF, 0xBF, 0xBD] := by
  have written : (mixedPoints.compile "m").2.toOption.any (fun program =>
      decide (({ program } : Machine).cellsOn { device := .tracked {} } 9 = [0x48, 0x263A, 0xD800, 0x110000] ∧
        (({ program } : Machine).runOn { device := .buffered {} } 9).machine.output.sink.text =
          [0x48, 0xE2, 0x98, 0xBA, 0xEF, 0xBF, 0xBD, 0xEF, 0xBF, 0xBD])) = true := by
    decide +kernel
  obtain ⟨program, compiled, passes⟩ := exists_ok_of_any written
  obtain ⟨cells, bytes⟩ := of_decide_eq_true passes
  obtain ⟨-, -, -, received, texts, plain, runes, -, agree⟩ := plain_bytes_agree_iff { program }
    { device := .tracked {} } { device := .buffered {} } ⟨rfl, rfl⟩ ⟨rfl, rfl⟩ rfl rfl 9
  have nonneg : ∀ cell ∈ ({ program } : Machine).cellsOn { device := .tracked {} } 9, 0 ≤ cell := by
    rw [cells]
    simp only [List.forall_mem_cons]
    exact ⟨by decide, by decide, by decide, by decide, fun _ none => absurd none List.not_mem_nil⟩
  refine ⟨program, compiled, cells, ?_, bytes⟩
  rw [plain, runes, agree.mpr nonneg]
  rfl

/-- A program that writes minus one. -/
def minusOne : Source := .ofText ".main
BIPUSH -1
OUT
.end-main
"

/-- A negative cell is its low byte where bytes are given, and the replacement where characters are given. -/
theorem minus_one_differs : ∃ program, (minusOne.compile "m").2 = .ok program ∧
    (({ program } : Machine).runOn { device := .bytes none } 3).machine.output.sink.text = [0xFF] ∧
    (({ program } : Machine).runOn { device := .characters } 3).machine.output.sink.text = Text.ofChar replacement := by
  have written : (minusOne.compile "m").2.toOption.any (fun program =>
      decide ((({ program } : Machine).runOn { device := .bytes none } 3).machine.output.sink.text = [0xFF] ∧
        (({ program } : Machine).runOn { device := .characters } 3).machine.output.sink.text =
          Text.ofChar replacement)) = true := by
    decide +kernel
  obtain ⟨program, compiled, passes⟩ := exists_ok_of_any written
  obtain ⟨bytes, characters⟩ := of_decide_eq_true passes
  exact ⟨program, compiled, bytes, characters⟩

end IntegerMachine
