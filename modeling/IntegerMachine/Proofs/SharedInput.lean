import IntegerMachine.Debugger
import IntegerMachine.Proofs.LineInput
import IntegerMachine.Proofs.WrittenBytes

/-!
# A program and its debugger on one input

The debugger and the program read lines from the same input. Which line goes to which of them depends on the run: the
debugger takes one before each instruction until it is told to go on without pauses, and the program takes one at each
instruction that reads. Each instruction that a run dispatches therefore says which lines were taken for it, and by whom.

A debugged run is compared with the run without a debugger on those lines that went to the program, followed by those
that were left. Both dispatch the same instructions in the same states, until the debugger stops the run.
-/
namespace IntegerMachine

namespace Input

/-- No source ends in a failure. -/
def Clean (input : Input) : Prop := ∀ source ∈ input, source.failure = none

/-- A read takes the first line that is left, and answers with nothing when there is none. Sources that have come to
their end are passed over, and since none ends in a failure, the read does not fail either. -/
theorem read_line_clean {input : Input} (clean : input.Clean) :
    input.readLine.1 = .ok input.remaining.head? ∧ input.readLine.2.Clean ∧
      input.readLine.2.remaining = input.remaining.tail := by
  induction input with
  | nil => exact ⟨rfl, clean, rfl⟩
  | cons source older ih =>
    obtain ⟨lines, failure⟩ := source
    obtain ⟨whole, below⟩ := List.forall_mem_cons.mp clean
    cases whole
    cases lines with
    | nil => exact ih below
    | cons line rest => exact ⟨rfl, List.forall_mem_cons.mpr ⟨rfl, below⟩, rfl⟩

/-- A value is read from the first line that is left. At the end of the input the value is that of the empty line, so
that the end alone makes no instruction trap. -/
theorem read_value_clean {input : Input} (clean : input.Clean) :
    input.readValue = (.ok (firstCharacter (input.remaining.head?.getD [])), input.readLine.2) := by
  have first := (read_line_clean clean).1
  rw [readValue]
  generalize input.readLine = result at first ⊢
  obtain ⟨answer, rest⟩ := result
  cases first
  rfl

/-- The lines that were taken from an input between two moments. -/
def taken (before after : Input) : List Text :=
  before.remaining.take (before.remaining.length - after.remaining.length)

/-- The lines that were taken are found by comparing what was left before with what is left afterwards. -/
theorem taken_of_append {before after : Input} {lines : List Text}
    (split : before.remaining = lines ++ after.remaining) : before.taken after = lines := by
  rw [taken, split, List.length_append, Nat.add_sub_cancel, List.take_left]

end Input

namespace Output

/-- An output that has passed on everything is reliable if it was. Only what it holds back is gone. -/
theorem Reliable.settled {output : Output} (reliable : output.Reliable) : output.settled.Reliable := by
  obtain ⟨device, sink⟩ := output
  obtain ⟨unlimited, sound⟩ := reliable
  cases device with
  | buffered buffer => exact ⟨unlimited, rfl⟩
  | tracked tracker => exact ⟨unlimited, rfl⟩
  | _ => exact ⟨unlimited, sound⟩

/-- Passing on everything a second time does nothing, since nothing is held back any more. -/
theorem settled_settled (output : Output) : output.settled.settled = output.settled := by
  obtain ⟨device, sink⟩ := output
  cases device <;> rfl

/-- What two reliable outputs hold back makes no difference to what a cell adds. It comes behind everything that they
were given, wherever that is at the moment. -/
theorem after_settled {first second : Output} (firstReliable : first.Reliable) (secondReliable : second.Reliable)
    (same : first.settled = second.settled) (cell : Option Cell) :
    (first.after cell).settled = (second.after cell).settled := by
  cases cell with
  | none => exact same
  | some cell =>
    calc (first.put cell).2.settled = first.settled.receive cell := (put_reliable firstReliable cell).2.2
      _ = second.settled.receive cell := by rw [same]
      _ = (second.put cell).2.settled := (put_reliable secondReliable cell).2.2.symm

end Output

namespace Machine

/-- The devices of a machine never fail. -/
structure Served (machine : Machine) : Prop where
  clean : machine.input.Clean
  reliable : machine.output.Reliable

/-- Another machine with the same devices has devices that never fail too. -/
theorem Served.keep {machine after : Machine} (served : machine.Served) (input : after.input = machine.input)
    (output : after.output = machine.output) : after.Served :=
  ⟨input ▸ served.clean, output ▸ served.reliable⟩

/-- An instruction takes the first line if it reads a value, and none otherwise. The devices do not fail afterwards.
This holds of instructions that trap, too. -/
theorem Served.execute {machine : Machine} (served : machine.Served) {frame : Frame} {callers : List Frame}
    (frames : machine.frames = frame :: callers) (instruction : Instruction) :
    (machine.execute instruction).state.Served ∧ (machine.execute instruction).state.input.remaining =
      if instruction.opcode = .input then machine.input.remaining.tail else machine.input.remaining := by
  obtain ⟨input, output⟩ := execute_devices frames instruction
  have reliable : (machine.execute instruction).state.output.Reliable := output ▸ served.reliable.after _
  by_cases reads : instruction.opcode = .input
  · obtain ⟨_, clean, remaining⟩ := Input.read_line_clean served.clean
    rw [Input.after, if_pos reads, Input.read_value_clean served.clean] at input
    rw [if_pos reads, input]
    exact ⟨⟨input ▸ clean, reliable⟩, remaining⟩
  · rw [Input.after, if_neg reads] at input
    rw [if_neg reads, input]
    exact ⟨⟨input ▸ served.clean, reliable⟩, rfl⟩

end Machine

/-! ## Commands -/

namespace Debugger

/-- A line that asks to go on without pauses. -/
def Continues (line : Text) : Prop := line.head? = some (Text.byte 'c') ∨ line.head? = some (Text.byte 'C')

/-- A line that asks to end the run. -/
def Quits (line : Text) : Prop :=
  line.head? = some (Text.byte 'q') ∨ line.head? = some (Text.byte 'Q') ∨ line.head? = some 4

/-- The lines that ask to go on without pauses are those that start with the letter c in either case. The rest of the
line does not matter. -/
theorem of_line_continue_iff {line : Text} : Command.ofLine line = .continue ↔ Continues line := by
  cases line with
  | nil => simp [Command.ofLine, Continues]
  | cons first rest =>
    rw [Command.ofLine, Continues, List.head?_cons, Option.some.injEq, Option.some.injEq]
    by_cases continues : first = Text.byte 'c' ∨ first = Text.byte 'C'
    · rw [if_pos continues]
      exact iff_of_true rfl continues
    · rw [if_neg continues]
      refine iff_of_false ?_ continues
      split <;> intro impossible <;> cases impossible

/-- The lines that ask to end the run are those that start with the letter q in either case, or with the byte 4. The
rest of the line does not matter. -/
theorem of_line_quit_iff {line : Text} : Command.ofLine line = .quit ↔ Quits line := by
  cases line with
  | nil => simp [Command.ofLine, Quits]
  | cons first rest =>
    rw [Command.ofLine, Quits, List.head?_cons, Option.some.injEq, Option.some.injEq, Option.some.injEq]
    by_cases continues : first = Text.byte 'c' ∨ first = Text.byte 'C'
    · rw [if_pos continues]
      refine iff_of_false (by intro impossible; cases impossible) ?_
      rcases continues with rfl | rfl <;> decide
    · rw [if_neg continues]
      by_cases quits : first = Text.byte 'q' ∨ first = Text.byte 'Q' ∨ first = 4
      · rw [if_pos quits]
        exact iff_of_true rfl quits
      · rw [if_neg quits]
        exact iff_of_false (by intro impossible; cases impossible) quits

/-- What the debugger does before an instruction. It takes no line, or the first one that is left, and passes on the
output; nothing else of the machine changes. -/
inductive Answers (debugger : Debugger) (machine : Machine) : Reply Debugger → Prop
  | continued : debugger.continued = true → Answers debugger machine { state := debugger, machine }
  | ended {state : Debugger} {input : Input} : debugger.continued = false → machine.input.remaining = [] →
      state.continued = false → input.Clean → input.remaining = [] → Answers debugger machine
        { state, machine := machine.connect input machine.output.settled, verdict := .stop .requested }
  | quit {state : Debugger} {input : Input} {line : Text} : debugger.continued = false →
      machine.input.remaining = line :: input.remaining → Quits line → state.continued = false → input.Clean →
      Answers debugger machine
        { state, machine := machine.connect input machine.output.settled, verdict := .stop .requested }
  | obeyed {state : Debugger} {input : Input} {line : Text} : debugger.continued = false →
      machine.input.remaining = line :: input.remaining → ¬ Quits line → (state.continued = true ↔ Continues line) →
      input.Clean → Answers debugger machine { state, machine := machine.connect input machine.output.settled }

/-- The debugger answers like this on devices that do not fail. The flush before the pause and the read of the command
then go well, so that only the command and the end of the input are left to tell the cases apart. -/
theorem hook_answers (debugger : Debugger) {machine : Machine} (served : machine.Served) :
    Answers debugger machine (hook debugger machine) := by
  rw [hook]
  cases continued : debugger.continued with
  | true => exact .continued continued
  | false =>
    rw [if_neg Bool.false_ne_true, Output.flush_reliable served.reliable]
    dsimp only
    obtain ⟨first, clean, remaining⟩ := Input.read_line_clean served.clean
    rw [obey]
    dsimp only
    generalize machine.input.readLine = result at first clean remaining ⊢
    obtain ⟨answer, input⟩ := result
    cases first
    have waits : (debugger.pause { machine with output := machine.output.settled }).continued = false := continued
    cases lines : machine.input.remaining with
    | nil =>
      rw [lines] at remaining
      exact .ended continued lines waits clean remaining
    | cons line rest =>
      rw [lines] at remaining
      have split : machine.input.remaining = line :: Input.remaining input := by
        rw [lines, remaining]
        rfl
      dsimp only [List.head?_cons]
      cases command : Command.ofLine line with
      | step =>
        have stays : ¬ Quits line := mt of_line_quit_iff.mpr (by rw [command]; decide)
        have pauses : ¬ Continues line := mt of_line_continue_iff.mpr (by rw [command]; decide)
        exact .obeyed continued split stays (iff_of_false (by rw [waits]; exact Bool.false_ne_true) pauses) clean
      | «continue» =>
        have stays : ¬ Quits line := mt of_line_quit_iff.mpr (by rw [command]; decide)
        exact .obeyed continued split stays (iff_of_true rfl (of_line_continue_iff.mp command)) clean
      | quit => exact .quit continued split (of_line_quit_iff.mp command) waits clean

/-- The lines that the debugger takes before an instruction. -/
def reads (debugger : Debugger) (input : Input) : List Text :=
  if debugger.continued then [] else input.remaining.head?.toList

/-- A debugger that goes on without pauses takes no lines. -/
theorem reads_continued {debugger : Debugger} (continued : debugger.continued = true) (input : Input) :
    debugger.reads input = [] := if_pos continued

/-- A debugger that pauses takes the next line, if there is one. -/
theorem reads_paused {debugger : Debugger} (paused : debugger.continued = false) (input : Input) :
    debugger.reads input = input.remaining.head?.toList := if_neg (paused ▸ Bool.false_ne_true)

namespace Answers

variable {debugger : Debugger} {machine : Machine} {reply : Reply Debugger} (answers : Answers debugger machine reply)

include answers

/-- Only the devices of the machine change, and what the output was given in the end stays the same. The debugger
flushes the output at a pause, and writes nothing of its own to it. -/
theorem connected : reply.machine = machine.connect reply.machine.input reply.machine.output ∧
    reply.machine.output.settled = machine.output.settled := by
  cases answers with
  | continued => exact ⟨rfl, rfl⟩
  | ended | quit | obeyed => exact ⟨rfl, Output.settled_settled _⟩

/-- The devices do not fail afterwards. Where the debugger pauses, its output has passed on everything and its input
is without failures. -/
theorem served (served : machine.Served) : reply.machine.Served := by
  cases answers with
  | continued => exact served
  | ended _ _ _ clean | quit _ _ _ _ clean | obeyed _ _ _ _ clean => exact ⟨clean, served.reliable.settled⟩

/-- The lines that are taken were the first ones. What the debugger leaves is what was there, without them. -/
theorem lines : machine.input.remaining = debugger.reads machine.input ++ reply.machine.input.remaining := by
  cases answers with
  | continued continued => rw [reads_continued continued, List.nil_append]
  | ended paused none _ _ still =>
    rw [reads_paused paused, none]
    exact still.symm
  | quit paused split | obeyed paused split =>
    rw [reads_paused paused, split]
    rfl

/-- The debugger goes on without pauses if it did before or takes a line that asks for it. It never comes back to
pausing. -/
theorem continued_iff : reply.state.continued = true ↔
    debugger.continued = true ∨ ∃ line ∈ debugger.reads machine.input, Continues line := by
  cases answers with
  | continued continued => exact iff_of_true continued (.inl continued)
  | ended paused none still =>
    rw [reads_paused paused, none, still, paused]
    simp
  | quit paused split quits still =>
    have notBoth : ¬ Continues _ := mt of_line_continue_iff.mpr (by rw [of_line_quit_iff.mpr quits]; decide)
    rw [reads_paused paused, split, still, paused]
    simp [notBoth]
  | obeyed paused split _ continues =>
    rw [reads_paused paused, split, continues, paused]
    simp

/-- The debugger stops the run exactly when it takes a line that asks for it or finds none. One that goes on without
pauses does not notice the end of the input. -/
theorem stop_iff : reply.verdict = .stop .requested ↔ (∃ line ∈ debugger.reads machine.input, Quits line) ∨
    debugger.continued = false ∧ machine.input.remaining = [] := by
  cases answers with
  | continued continued =>
    rw [reads_continued continued, continued]
    simp
  | ended paused none => exact iff_of_true rfl (.inr ⟨paused, none⟩)
  | quit paused split quits =>
    rw [reads_paused paused, split]
    simp [quits]
  | obeyed paused split stays =>
    rw [reads_paused paused, split]
    simp [stays]

/-- The debugger lets the instruction be executed, or it stops the run because it was asked to. -/
theorem verdict : reply.verdict = .proceed ∨ reply.verdict = .stop .requested := by
  cases answers with
  | continued | obeyed => exact .inl rfl
  | ended | quit => exact .inr rfl

end Answers

end Debugger

/-! ## Pauses -/

namespace Machine

/-- The machine that an instruction meets and the instruction, without the input and with the output passed on. -/
def Dispatch.view {State : Type} (dispatch : Dispatch State) : Machine × Instruction :=
  (dispatch.machine.connect [] dispatch.machine.output.settled, dispatch.instruction)

namespace Dispatch

/-- What the debugger does before the instruction. -/
def reply (pause : Dispatch Debugger) : Reply Debugger := Debugger.hook pause.state pause.machine

/-- The machine after the instruction, if the debugger lets it be executed. -/
def follower (pause : Dispatch Debugger) : Machine :=
  if pause.reply.verdict = .proceed then (pause.reply.machine.execute pause.instruction).state else pause.reply.machine

/-- The lines that the debugger takes before the instruction. -/
def commands (pause : Dispatch Debugger) : List Text := pause.machine.input.taken pause.reply.machine.input

/-- The lines that the instruction takes. -/
def answers (pause : Dispatch Debugger) : List Text := pause.reply.machine.input.taken pause.follower.input

/-- The debugger takes a line that asks to go on without pauses. -/
def Continues (pause : Dispatch Debugger) : Prop := ∃ line ∈ pause.commands, Debugger.Continues line

/-- The debugger takes a line that asks to end the run. -/
def Quits (pause : Dispatch Debugger) : Prop := ∃ line ∈ pause.commands, Debugger.Quits line

/-- An instruction that is not executed takes nothing. The machine is left as the debugger has answered with it. -/
theorem stopped_takes_nothing {pause : Dispatch Debugger} (stops : pause.reply.verdict = .stop .requested) :
    pause.follower = pause.reply.machine ∧ pause.answers = [] := by
  have stays : ¬ pause.reply.verdict = .proceed := by
    rw [stops]
    decide
  have follows : pause.follower = pause.reply.machine := if_neg stays
  exact ⟨follows, Input.taken_of_append (by rw [follows, List.nil_append])⟩

/-- A pause of a run on devices that do not fail. -/
structure Attended (pause : Dispatch Debugger) : Prop where
  served : pause.machine.Served
  frames : ∃ frame callers, pause.machine.frames = frame :: callers

namespace Attended

variable {pause : Dispatch Debugger} (attended : pause.Attended)

include attended

/-- At an attended pause the debugger answers as described. -/
theorem replies : Debugger.Answers pause.state pause.machine pause.reply :=
  Debugger.hook_answers pause.state attended.served

/-- What the debugger leaves to be seen of the machine is what it has met. The input is not shown, and the output is
shown with everything passed on, which hides the flush. -/
theorem reply_shown : pause.reply.machine.connect [] pause.reply.machine.output.settled = pause.view.1 := by
  obtain ⟨connected, settled⟩ := attended.replies.connected
  rw [settled, connected]
  rfl

/-- The debugger takes one line until it goes on without pauses, as long as there is one. -/
theorem commands_eq : pause.commands = pause.state.reads pause.machine.input :=
  Input.taken_of_append attended.replies.lines

/-- Behind a pause the debugger goes on without pauses if it did before, or if a line that it took at this pause asks
for it. -/
theorem continued_iff : pause.reply.state.continued = true ↔ pause.state.continued = true ∨ pause.Continues := by
  rw [Continues, attended.commands_eq]
  exact attended.replies.continued_iff

/-- The debugger stops the run at a pause exactly when a line that it took there asks for it, or when it wanted a line
and there was none. -/
theorem stop_iff : pause.reply.verdict = .stop .requested ↔
    pause.Quits ∨ pause.state.continued = false ∧ pause.machine.input.remaining = [] := by
  rw [Quits, attended.commands_eq]
  exact attended.replies.stop_iff

/-- There still is an innermost frame when the instruction is executed, since the debugger does not change the
frames. -/
theorem reply_frames : ∃ frame callers, pause.reply.machine.frames = frame :: callers := by
  obtain ⟨frame, callers, frames⟩ := attended.frames
  refine ⟨frame, callers, ?_⟩
  rw [attended.replies.connected.1]
  exact frames

/-- An instruction that is executed takes the next line if it reads, and none otherwise. The lines before it are those
that it takes, followed by those that are left. -/
theorem executed (proceeds : pause.reply.verdict = .proceed) :
    (pause.reply.machine.execute pause.instruction).state.Served ∧
      pause.follower = (pause.reply.machine.execute pause.instruction).state ∧
      pause.answers = (if pause.instruction.opcode = .input then pause.reply.machine.input.remaining.head?.toList else []) ∧
      pause.reply.machine.input.remaining = pause.answers ++ pause.follower.input.remaining := by
  obtain ⟨frame, callers, frames⟩ := attended.reply_frames
  obtain ⟨served, remaining⟩ := (attended.replies.served attended.served).execute frames pause.instruction
  have follows : pause.follower = (pause.reply.machine.execute pause.instruction).state := if_pos proceeds
  have split : pause.reply.machine.input.remaining =
      (if pause.instruction.opcode = .input then pause.reply.machine.input.remaining.head?.toList else []) ++
        pause.follower.input.remaining := by
    rw [follows, remaining]
    by_cases reads : pause.instruction.opcode = .input
    · rw [if_pos reads, if_pos reads]
      cases pause.reply.machine.input.remaining <;> rfl
    · rw [if_neg reads, if_neg reads, List.nil_append]
  have taken : pause.answers = _ := Input.taken_of_append split
  refine ⟨served, follows, taken, ?_⟩
  rw [taken]
  exact split

/-- The line that an instruction reads is the first one of those that go to the program from here on. Where there is
none, none can go to it later. That is why a run on these lines alone reads the same. -/
theorem answer (proceeds : pause.reply.verdict = .proceed) {later : List Text}
    (ended : pause.follower.input.remaining = [] → later = []) :
    (pause.instruction.opcode = .input →
        (pause.answers ++ later).head? = pause.reply.machine.input.remaining.head?) ∧
      (if pause.instruction.opcode = .input then (pause.answers ++ later).tail else pause.answers ++ later) = later := by
  obtain ⟨-, -, taken, split⟩ := attended.executed proceeds
  by_cases reads : pause.instruction.opcode = .input
  · rw [if_pos reads] at taken ⊢
    cases lines : pause.reply.machine.input.remaining with
    | nil =>
      rw [lines] at taken split
      have none : later = [] := ended (List.append_eq_nil_iff.mp split.symm).2
      rw [taken, none]
      exact ⟨fun _ => rfl, rfl⟩
    | cons line rest =>
      rw [lines] at taken
      rw [taken]
      exact ⟨fun _ => rfl, rfl⟩
  · rw [if_neg reads] at taken ⊢
    rw [taken]
    exact ⟨fun itReads => absurd itReads reads, rfl⟩

/-- The lines that are taken for an instruction were the first ones: those that the debugger takes, then those that
the instruction takes. -/
theorem lines : pause.machine.input.remaining = pause.commands ++ pause.answers ++ pause.follower.input.remaining := by
  have taken : pause.machine.input.remaining = pause.commands ++ pause.reply.machine.input.remaining :=
    attended.commands_eq ▸ attended.replies.lines
  rcases attended.replies.verdict with proceeds | stops
  · obtain ⟨-, -, -, split⟩ := attended.executed proceeds
    rw [List.append_assoc, ← split]
    exact taken
  · obtain ⟨follows, none⟩ := stopped_takes_nothing stops
    rw [none, follows, List.append_nil]
    exact taken

end Attended

end Dispatch

/-! ## Debugged runs -/

/-- The course of a debugged run on devices that do not fail: the pauses, and how it ends. The cases are those of the run. -/
inductive Debugs : Nat → Debugger → Machine → List (Dispatch Debugger) → Finish Debugger → Prop
  | suspended {state : Debugger} {machine : Machine} : Debugs 0 state machine [] { state, machine, ending := .suspended }
  | completed {fuel : Nat} {state : Debugger} {machine : Machine} : machine.next = .over →
      Debugs (fuel + 1) state machine [] { state, machine, ending := .completed }
  | left {fuel : Nat} {state : Debugger} {machine after : Machine} {pauses : List (Dispatch Debugger)}
      {finish : Finish Debugger} : machine.next = .left after → Debugs fuel state after pauses finish →
      Debugs (fuel + 1) state machine pauses finish
  | stopped {fuel : Nat} {machine : Machine} {pause : Dispatch Debugger} :
      machine.next = .ready pause.machine pause.instruction → pause.Attended →
      pause.reply.verdict = .stop .requested →
      Debugs (fuel + 1) pause.state machine [pause] { pause.reply with ending := .stopped .requested }
  | trapped {fuel : Nat} {machine : Machine} {pause : Dispatch Debugger} {trap : Trap} :
      machine.next = .ready pause.machine pause.instruction → pause.Attended → pause.reply.verdict = .proceed →
      (pause.reply.machine.execute pause.instruction).trap = some trap →
      Debugs (fuel + 1) pause.state machine [pause]
        { pause.reply with
          machine := (pause.reply.machine.execute pause.instruction).state
          ending := .trapped trap }
  | executed {fuel : Nat} {machine : Machine} {pause : Dispatch Debugger} {pauses : List (Dispatch Debugger)}
      {finish : Finish Debugger} : machine.next = .ready pause.machine pause.instruction → pause.Attended →
      pause.reply.verdict = .proceed → (pause.reply.machine.execute pause.instruction).trap = none →
      Debugs fuel pause.reply.state (pause.reply.machine.execute pause.instruction).state pauses finish →
      Debugs (fuel + 1) pause.state machine (pause :: pauses) finish

/-- Every debugged run on devices that do not fail takes such a course. The induction is on the fuel; each pause
leaves devices that do not fail for the rest of the run. -/
theorem loop_debugs {machine : Machine} (served : machine.Served) (fuel : Nat) (state : Debugger) :
    Debugs fuel state machine (dispatched Debugger.hook fuel state machine)
      (loop Debugger.hook fuel state machine) := by
  induction fuel generalizing state machine with
  | zero => exact .suspended
  | succ fuel ih =>
    rw [dispatched, loop]
    cases phase : machine.next with
    | «over» => exact .completed phase
    | left after =>
      obtain ⟨input, output⟩ := left_devices phase
      exact .left phase (ih (served.keep input output) state)
    | ready reached instruction =>
      obtain ⟨input, output, frames⟩ := ready_devices phase
      let pause : Dispatch Debugger := { state, machine := reached, instruction }
      have attended : pause.Attended := ⟨served.keep input output, frames⟩
      have asked : Debugger.hook state reached = pause.reply := rfl
      dsimp only
      rw [asked]
      rcases attended.replies.verdict with proceeds | stops
      · rw [proceeds]
        dsimp only
        cases raised : (pause.reply.machine.execute instruction).trap with
        | some trap => exact .trapped phase attended proceeds raised
        | none => exact .executed phase attended proceeds raised (ih (attended.executed proceeds).1 _)
      · rw [stops]
        exact .stopped phase attended stops

namespace Debugs

variable {fuel : Nat} {state : Debugger} {machine : Machine} {pauses : List (Dispatch Debugger)} {finish : Finish Debugger}
  (debugs : Debugs fuel state machine pauses finish)

include debugs

/-- The devices do not fail when the run has ended. Each pause and each instruction keeps them so. -/
theorem served (served : machine.Served) : finish.machine.Served := by
  induction debugs with
  | suspended | completed => exact served
  | left phase _ ih =>
    obtain ⟨input, output⟩ := left_devices phase
    exact ih (served.keep input output)
  | stopped _ attended => exact attended.replies.served attended.served
  | trapped _ attended proceeds => exact (attended.executed proceeds).1
  | executed _ attended proceeds _ _ ih => exact ih (attended.executed proceeds).1

/-- Every line went to the debugger or to the program, or is left. They went in the order in which they stood, pause
by pause. -/
theorem lines : machine.input.remaining =
    pauses.flatMap (fun pause => pause.commands ++ pause.answers) ++ finish.machine.input.remaining := by
  induction debugs with
  | suspended | completed => rfl
  | left phase _ ih =>
    rw [← (left_devices phase).1]
    exact ih
  | stopped phase attended stops =>
    rw [← (ready_devices phase).1, List.flatMap_singleton, attended.lines, (Dispatch.stopped_takes_nothing stops).1]
  | trapped phase attended proceeds =>
    rw [← (ready_devices phase).1, List.flatMap_singleton, attended.lines, (attended.executed proceeds).2.1]
  | executed phase attended proceeds _ _ ih =>
    rw [← (ready_devices phase).1, List.flatMap_cons, List.append_assoc, ← ih, attended.lines,
      (attended.executed proceeds).2.1]

/-- A run that the debugger stops ends with the pause at which it does. The instruction there is not executed, so that
the machine is the one of the debugger's answer. -/
theorem stopped_last {reason : Stop} (isStopped : finish.ending = .stopped reason) : reason = .requested ∧
    ∃ before pause, pauses = before ++ [pause] ∧ finish.machine = pause.reply.machine := by
  induction debugs with
  | suspended | completed | trapped => cases isStopped
  | left _ _ ih => exact ih isStopped
  | @stopped _ _ pause =>
    cases isStopped
    exact ⟨rfl, [], pause, rfl, rfl⟩
  | @executed _ _ pause _ _ _ _ _ _ _ ih =>
    obtain ⟨requested, before, last, rfl, same⟩ := ih isStopped
    exact ⟨requested, pause :: before, last, rfl, same⟩

/-- What is known of each pause: whether the debugger still reads is settled by the pauses before it, and the run is
stopped by the last pause if the debugger asks for it there. The induction is on the course of the run, for every
pause in it. -/
theorem at_pause {before after : List (Dispatch Debugger)} {pause : Dispatch Debugger}
    (split : pauses = before ++ pause :: after) : pause.Attended ∧
      (pause.state.continued = true ↔ state.continued = true ∨ ∃ earlier ∈ before, earlier.Continues) ∧
      (pause.reply.verdict = .stop .requested ↔ after = [] ∧ finish.ending = .stopped .requested) := by
  induction debugs generalizing before with
  | suspended | completed => simp at split
  | left _ _ ih => exact ih split
  | stopped _ attended stops =>
    cases before with
    | cons first rest => simp at split
    | nil =>
      cases split
      exact ⟨attended, by simp, iff_of_true stops ⟨rfl, rfl⟩⟩
  | trapped _ attended proceeds =>
    cases before with
    | cons first rest => simp at split
    | nil =>
      cases split
      refine ⟨attended, by simp, iff_of_false (by rw [proceeds]; decide) ?_⟩
      rintro ⟨_, impossible⟩
      cases impossible
  | executed _ attended proceeds _ later ih =>
    cases before with
    | nil =>
      cases split
      refine ⟨attended, by simp, iff_of_false (by rw [proceeds]; decide) ?_⟩
      rintro ⟨rfl, isStopped⟩
      obtain ⟨_, before, last, impossible, _⟩ := later.stopped_last isStopped
      simp at impossible
    | cons first rest =>
      obtain ⟨rfl, others⟩ := List.cons.inj split
      obtain ⟨itself, continued, stops⟩ := ih others
      refine ⟨itself, ?_, stops⟩
      rw [continued, attended.continued_iff, or_assoc, List.exists_mem_cons_iff]

end Debugs

/-! ## The run without a debugger -/

/-- A machine that goes along with a debugged one: it has lines of its own, and its output may hold back another part. -/
structure Mirrors (machine plain : Machine) (lines : List Text) : Prop where
  same : plain = machine.connect plain.input plain.output
  clean : plain.input.Clean
  lines : plain.input.remaining = lines
  reliable : plain.output.Reliable
  settled : plain.output.settled = machine.output.settled

namespace Mirrors

variable {machine plain : Machine} {lines : List Text} (mirrors : Mirrors machine plain lines)

include mirrors

/-- Both machines leave a frame, or advance to the same instruction. What comes next does not depend on the devices,
and they have everything else in common. -/
theorem next : plain.next = machine.next.connect plain.input plain.output := by
  rw [← next_connect, ← mirrors.same]

/-- Leaving a frame and advancing to an instruction do not concern the devices. -/
theorem advance {after : Machine} (output : after.output = machine.output) :
    Mirrors after (after.connect plain.input plain.output) lines where
  same := rfl
  clean := mirrors.clean
  lines := mirrors.lines
  reliable := mirrors.reliable
  settled := output ▸ mirrors.settled

/-- A machine that differs in its devices only is mirrored too, as long as its output was given the same. This is how
the answers of the debugger come in. -/
theorem connect {after : Machine} (connected : after = machine.connect after.input after.output)
    (settled : after.output.settled = machine.output.settled) : Mirrors after plain lines where
  same := by
    rw [connected]
    exact mirrors.same
  clean := mirrors.clean
  lines := mirrors.lines
  reliable := mirrors.reliable
  settled := mirrors.settled.trans settled.symm

/-- Both machines are the same without their inputs and with their outputs passed on. -/
theorem shown : plain.connect [] plain.output.settled = machine.connect [] machine.output.settled := by
  rw [mirrors.settled, mirrors.same]
  rfl

/-- Both machines are the same but for their inputs when their outputs have passed on everything, as they have at the
end of a run. -/
theorem settled_eq : machine.settled = { plain.settled with input := machine.input } := by
  rw [Machine.settled, Machine.settled, mirrors.settled, mirrors.same]
  rfl

/-- An instruction does the same on both machines if it reads the same line. They raise the same trap or none, and go
along with each other afterwards; a line that was read is no longer among the lines of the plain machine. -/
theorem execute (served : machine.Served) {frame : Frame} {callers : List Frame}
    (frames : machine.frames = frame :: callers) (instruction : Instruction)
    (answer : instruction.opcode = .input → lines.head? = machine.input.remaining.head?) :
    (plain.execute instruction).trap = (machine.execute instruction).trap ∧
      Mirrors (machine.execute instruction).state (plain.execute instruction).state
        (if instruction.opcode = .input then lines.tail else lines) := by
  have sameInput (reads : instruction.opcode = .input) :
      plain.input.readValue.1 = machine.input.readValue.1 := by
    rw [Input.read_value_clean mirrors.clean, Input.read_value_clean served.clean, mirrors.lines, answer reads]
  have sameOutput (value : Cell) : (plain.output.put value).1 = (machine.output.put value).1 :=
    (Output.put_accepted mirrors.reliable value).trans (Output.put_accepted served.reliable value).symm
  have connected := execute_connect plain.input plain.output frames instruction sameInput fun _ => sameOutput
  rw [← mirrors.same] at connected
  have plainServed : plain.Served := ⟨mirrors.clean, mirrors.reliable⟩
  have plainFrames : plain.frames = frame :: callers := by
    rw [mirrors.same]
    exact frames
  obtain ⟨still, remaining⟩ := plainServed.execute plainFrames instruction
  rw [mirrors.lines] at remaining
  refine ⟨by rw [connected]; rfl, ?_, still.clean, remaining, still.reliable, ?_⟩
  · rw [connected]
    rfl
  · rw [connected, (execute_devices frames instruction).2]
    exact Output.after_settled mirrors.reliable served.reliable mirrors.settled _

end Mirrors

/-- The plain machine meets the instruction in the same state. It still goes along with the debugged one when the
debugger has answered, since the answer concerns the devices only. -/
theorem Mirrors.ready {machine plain : Machine} {lines : List Text} (mirrors : Mirrors machine plain lines)
    {pause : Dispatch Debugger} (phase : machine.next = .ready pause.machine pause.instruction)
    (attended : pause.Attended) :
    ∃ reached, plain.next = .ready reached pause.instruction ∧
      pause.view = Dispatch.view { state := (), machine := reached, instruction := pause.instruction } ∧
      Mirrors pause.reply.machine reached lines := by
  have met : Mirrors pause.machine (pause.machine.connect plain.input plain.output) lines :=
    mirrors.advance (ready_devices phase).2.1
  refine ⟨_, ?_, ?_, met.connect attended.replies.connected.1 attended.replies.connected.2⟩
  · rw [mirrors.next, phase]
    rfl
  · exact congrArg (·, pause.instruction) met.shown.symm

/-- The plain machine executes the instruction like the debugged one. Its lines start with the one that the
instruction takes there, and the others are left to it. -/
theorem Mirrors.executed {plain : Machine} {later : List Text} {pause : Dispatch Debugger}
    (mirrors : Mirrors pause.reply.machine plain (pause.answers ++ later)) (attended : pause.Attended)
    (proceeds : pause.reply.verdict = .proceed) (ended : pause.follower.input.remaining = [] → later = []) :
    (plain.execute pause.instruction).trap = (pause.reply.machine.execute pause.instruction).trap ∧
      Mirrors (pause.reply.machine.execute pause.instruction).state (plain.execute pause.instruction).state later := by
  obtain ⟨frame, callers, frames⟩ := attended.reply_frames
  obtain ⟨answer, others⟩ := attended.answer proceeds ended
  obtain ⟨trap, still⟩ := mirrors.execute (attended.replies.served attended.served) frames pause.instruction answer
  rw [others] at still
  exact ⟨trap, still⟩

section Plain

variable {plain reached : Machine} {instruction : Instruction} (fuel : Nat)
  (phase : plain.next = .ready reached instruction)

include phase

/-- A run without a hook whose next instruction traps dispatches this instruction only, and ends with the trap. -/
theorem plain_trapped {trap : Trap} (raised : (reached.execute instruction).trap = some trap) :
    dispatched noHook (fuel + 1) () plain = [{ state := (), machine := reached, instruction }] ∧
      loop noHook (fuel + 1) () plain =
        { state := (), machine := (reached.execute instruction).state, ending := .trapped trap } := by
  rw [dispatched, loop, phase]
  dsimp only [noHook]
  rw [raised]
  exact ⟨rfl, rfl⟩

/-- A run without a hook whose next instruction is completed dispatches it, and goes on with one step less. -/
theorem plain_executed (raised : (reached.execute instruction).trap = none) :
    dispatched noHook (fuel + 1) () plain = { state := (), machine := reached, instruction } ::
        dispatched noHook fuel () (reached.execute instruction).state ∧
      loop noHook (fuel + 1) () plain = loop noHook fuel () (reached.execute instruction).state := by
  rw [dispatched, loop, phase]
  dsimp only [noHook]
  rw [raised]
  exact ⟨rfl, rfl⟩

/-- The first dispatch of a run without a hook is the instruction that it comes to, whether this one traps or not. -/
theorem plain_ready : ∃ later, dispatched noHook (fuel + 1) () plain =
    { state := (), machine := reached, instruction } :: later := by
  cases raised : (reached.execute instruction).trap with
  | some trap => exact ⟨[], (plain_trapped fuel phase raised).1⟩
  | none => exact ⟨_, (plain_executed fuel phase raised).1⟩

end Plain

/-- The run without a debugger on the lines that go to the program dispatches the same instructions in the same
states, and ends in the same way unless the debugger stops the run before. The induction is on the course of the
debugged run, and the two machines go along with each other all the way. -/
theorem Debugs.mirrored {fuel : Nat} {state : Debugger} {machine plain : Machine} {pauses : List (Dispatch Debugger)}
    {finish : Finish Debugger} (debugs : Debugs fuel state machine pauses finish)
    (mirrors : Mirrors machine plain (pauses.flatMap Dispatch.answers ++ finish.machine.input.remaining)) :
    pauses.map Dispatch.view <+: (dispatched noHook fuel () plain).map Dispatch.view ∧
      (finish.ending ≠ .stopped .requested →
        pauses.map Dispatch.view = (dispatched noHook fuel () plain).map Dispatch.view ∧
        (loop noHook fuel () plain).ending = finish.ending ∧
        Mirrors finish.machine (loop noHook fuel () plain).machine finish.machine.input.remaining) := by
  induction debugs generalizing plain with
  | suspended => exact ⟨List.nil_prefix, fun _ => ⟨rfl, rfl, mirrors⟩⟩
  | completed phase =>
    have same : plain.next = .over := by
      rw [mirrors.next, phase]
      rfl
    rw [dispatched, loop, same]
    exact ⟨List.nil_prefix, fun _ => ⟨rfl, rfl, mirrors⟩⟩
  | @left _ _ _ after _ _ phase _ ih =>
    have same : plain.next = .left (after.connect plain.input plain.output) := by
      rw [mirrors.next, phase]
      rfl
    rw [dispatched, loop, same]
    exact ih (mirrors.advance (left_devices phase).2)
  | @stopped fuel _ pause phase attended stops =>
    obtain ⟨reached, same, view, _⟩ := mirrors.ready phase attended
    obtain ⟨later, dispatches⟩ := plain_ready fuel same
    rw [dispatches, List.map_cons, List.map_cons, view]
    exact ⟨List.cons_prefix_cons.mpr ⟨rfl, List.nil_prefix⟩, fun other => absurd rfl other⟩
  | @trapped fuel _ pause trap phase attended proceeds raised =>
    obtain ⟨reached, same, view, met⟩ := mirrors.ready phase attended
    rw [List.flatMap_singleton] at met
    have ended : pause.follower.input.remaining = [] →
        (pause.reply.machine.execute pause.instruction).state.input.remaining = [] := by
      rw [(attended.executed proceeds).2.1]
      exact id
    obtain ⟨trap, still⟩ := met.executed attended proceeds ended
    obtain ⟨dispatches, ends⟩ := plain_trapped fuel same (trap.trans raised)
    rw [dispatches, ends, List.map_cons, List.map_cons, view]
    exact ⟨List.prefix_refl _, fun _ => ⟨rfl, rfl, still⟩⟩
  | @executed fuel _ pause pauses finish phase attended proceeds raised later ih =>
    obtain ⟨reached, same, view, met⟩ := mirrors.ready phase attended
    rw [List.flatMap_cons, List.append_assoc] at met
    have ended : pause.follower.input.remaining = [] →
        pauses.flatMap Dispatch.answers ++ finish.machine.input.remaining = [] := by
      rw [(attended.executed proceeds).2.1, later.lines]
      intro none
      obtain ⟨taken, rest⟩ := List.append_eq_nil_iff.mp none
      rw [rest, List.append_nil, List.flatMap_eq_nil_iff]
      intro other member
      exact (List.append_eq_nil_iff.mp (List.flatMap_eq_nil_iff.mp taken other member)).2
    obtain ⟨trap, still⟩ := met.executed attended proceeds ended
    obtain ⟨dispatches, goesOn⟩ := plain_executed fuel same (trap.trans raised)
    obtain ⟨agrees, unstopped⟩ := ih still
    rw [dispatches, goesOn, List.map_cons, List.map_cons, view]
    refine ⟨List.cons_prefix_cons.mpr ⟨rfl, agrees⟩, ?_⟩
    intro goes
    obtain ⟨dispatchesAll, ending, machine⟩ := unstopped goes
    exact ⟨congrArg _ dispatchesAll, ending, machine⟩

/-! ## The two runs -/

/-- A run with a debugger. -/
def debugged (machine : Machine) (fuel : Nat) : Finish Debugger := machine.run Debugger.hook fuel {}

/-- The instructions that a run with a debugger dispatches. -/
def pauses (machine : Machine) (fuel : Nat) : List (Dispatch Debugger) :=
  dispatched Debugger.hook fuel {} machine.restart

/-- The lines that nobody has taken in a run with a debugger. -/
def unread (machine : Machine) (fuel : Nat) : List Text := (machine.debugged fuel).machine.input.remaining

/-- The machine with only those lines that the program takes in a run with a debugger and those that nobody takes. -/
def undisturbed (machine : Machine) (fuel : Nat) : Machine :=
  machine.connect [{ lines := (machine.pauses fuel).flatMap Dispatch.answers ++ machine.unread fuel }] machine.output

/-- The run without a debugger on these lines. -/
def undebugged (machine : Machine) (fuel : Nat) : Finish Unit := (machine.undisturbed fuel).run noHook fuel ()

/-- What happens at a pause, given the pauses before and after it and the ending of the run. -/
structure Dispatch.Ruled (pause : Dispatch Debugger) (before after : List (Dispatch Debugger)) (ending : Ending) :
    Prop where
  /-- The debugger takes the next line as long as it was not told to go on without pauses. -/
  reads : (∀ earlier ∈ before, ¬ earlier.Continues) → pause.commands = pause.machine.input.remaining.head?.toList
  /-- It takes none afterwards. -/
  silent : (∃ earlier ∈ before, earlier.Continues) → pause.commands = []
  /-- An instruction takes the next line if it reads and is executed, and none otherwise. -/
  answers : pause.answers = if pause.instruction.opcode = .input ∧ pause.reply.verdict = .proceed then
    pause.reply.machine.input.remaining.head?.toList else []
  /-- The run is stopped here exactly when the debugger takes a line that asks for it or finds the end of the input. -/
  stops : pause.Quits ∨ (∀ earlier ∈ before, ¬ earlier.Continues) ∧ pause.machine.input.remaining = [] ↔
    after = [] ∧ ending = .stopped .requested

/-- Each pause of a run follows the rules, if the debugger pauses at the start of the run. What decides about it are
the lines taken at the pauses before it. -/
theorem Debugs.ruled {fuel : Nat} {machine : Machine} {pauses : List (Dispatch Debugger)} {finish : Finish Debugger}
    (debugs : Debugs fuel {} machine pauses finish) {before after : List (Dispatch Debugger)} {pause : Dispatch Debugger}
    (split : pauses = before ++ pause :: after) : pause.Ruled before after finish.ending := by
  obtain ⟨attended, continued, stops⟩ := debugs.at_pause split
  have goesOn : pause.state.continued = true ↔ ∃ earlier ∈ before, earlier.Continues := by
    rw [continued]
    exact or_iff_right Bool.false_ne_true
  have reading : pause.state.continued = false ↔ ∀ earlier ∈ before, ¬ earlier.Continues := by
    rw [← Bool.not_eq_true, goesOn]
    exact ⟨fun none earlier member continues => none ⟨earlier, member, continues⟩,
      fun none ⟨earlier, member, continues⟩ => none earlier member continues⟩
  constructor
  · intro paused
    rw [attended.commands_eq, Debugger.reads_paused (reading.mpr paused)]
  · intro told
    rw [attended.commands_eq, Debugger.reads_continued (goesOn.mpr told)]
  · rcases attended.replies.verdict with proceeds | stopping
    · rw [(attended.executed proceeds).2.2.1, proceeds]
      simp only [and_true]
    · rw [(Dispatch.stopped_takes_nothing stopping).2, stopping]
      exact (if_neg (by rintro ⟨_, impossible⟩; cases impossible)).symm
  · rw [← stops, attended.stop_iff, reading]

/-- A run with a debugger on a reliable output ends as its steps do, with everything passed on. -/
theorem debugged_eq {machine : Machine} (served : machine.Served) (main : machine.program.main?.isSome = true)
    (fuel : Nat) : machine.debugged fuel =
      { loop Debugger.hook fuel {} machine.restart with
        machine := (loop Debugger.hook fuel {} machine.restart).machine.settled } := by
  have restarted : machine.restart.Served := served.keep rfl rfl
  have still := (loop_debugs restarted fuel {}).served restarted
  rw [debugged, run, if_pos main, finish_reliable still.reliable]

/-- The machine for the run without a debugger starts like the debugged one. Its lines are those that the program
takes, followed by those that nobody takes. -/
theorem undisturbed_mirrors {machine : Machine} (reliable : machine.output.Reliable) (fuel : Nat) :
    Mirrors machine.restart (machine.undisturbed fuel).restart
      ((machine.pauses fuel).flatMap Dispatch.answers ++ machine.unread fuel) where
  same := rfl
  clean := by
    intro source member
    rw [List.mem_singleton.mp member]
  lines := List.append_nil _
  reliable := reliable
  settled := rfl

end Machine

/-- A debugger that shares its input with the program takes only its own lines: one before each instruction, until one of them
asks to go on without pauses. The run dispatches the same instructions in the same states, and writes the same, as the run
without a debugger on the other lines. It ends in the same way too, unless the debugger stops it before. -/
theorem debugger_takes_only_its_lines (machine : Machine) (lines : List Text) (shared : machine.input = [{ lines }])
    (reliable : machine.output.Reliable) (fuel : Nat) :
    lines = (machine.pauses fuel).flatMap (fun pause => pause.commands ++ pause.answers) ++ machine.unread fuel ∧
      (∀ before pause after, machine.pauses fuel = before ++ pause :: after →
        pause.Ruled before after (machine.debugged fuel).ending) ∧
      (machine.pauses fuel).map Machine.Dispatch.view <+:
        (Machine.dispatched Machine.noHook fuel () (machine.undisturbed fuel).restart).map Machine.Dispatch.view ∧
      ((machine.debugged fuel).ending ≠ .stopped .requested →
        (machine.pauses fuel).map Machine.Dispatch.view =
          (Machine.dispatched Machine.noHook fuel () (machine.undisturbed fuel).restart).map Machine.Dispatch.view ∧
        (machine.undebugged fuel).ending = (machine.debugged fuel).ending ∧
        (machine.undebugged fuel).machine.input.remaining = machine.unread fuel ∧
        (machine.debugged fuel).machine =
          { (machine.undebugged fuel).machine with input := (machine.debugged fuel).machine.input }) ∧
      ∀ reason, (machine.debugged fuel).ending = .stopped reason → reason = .requested ∧
        ∃ before pause, machine.pauses fuel = before ++ [pause] ∧
          (machine.debugged fuel).machine.connect [] (machine.debugged fuel).machine.output = pause.view.1 := by
  have served : machine.Served := by
    refine ⟨?_, reliable⟩
    rw [shared]
    intro source member
    rw [List.mem_singleton.mp member]
  have all : lines = machine.input.remaining := by
    rw [shared]
    exact (List.append_nil lines).symm
  have mirrors := Machine.undisturbed_mirrors reliable fuel
  by_cases main : machine.program.main?.isSome = true
  · have restarted : machine.restart.Served := served.keep rfl rfl
    have debugs : Machine.Debugs fuel {} machine.restart (machine.pauses fuel)
        (Machine.loop Debugger.hook fuel {} machine.restart) := Machine.loop_debugs restarted fuel {}
    have result := Machine.debugged_eq served main fuel
    have unread : machine.unread fuel = (Machine.loop Debugger.hook fuel {} machine.restart).machine.input.remaining := by
      rw [Machine.unread, result]
      rfl
    rw [unread] at mirrors ⊢
    obtain ⟨agrees, unstopped⟩ := debugs.mirrored mirrors
    rw [result]
    refine ⟨all.trans debugs.lines, fun before pause after split => debugs.ruled split, agrees, ?_, ?_⟩
    · intro goes
      obtain ⟨dispatches, ending, mirrored⟩ := unstopped goes
      have sameMain : (machine.undisturbed fuel).program.main?.isSome = true := main
      rw [Machine.undebugged, Machine.run, if_pos sameMain, Machine.finish_reliable mirrored.reliable]
      exact ⟨dispatches, ending, mirrored.lines, mirrored.settled_eq⟩
    · intro reason isStopped
      obtain ⟨requested, before, pause, split, last⟩ := debugs.stopped_last isStopped
      refine ⟨requested, before, pause, split, ?_⟩
      rw [last]
      exact (debugs.at_pause split).1.reply_shown
  · have none : machine.pauses fuel = [] := Machine.no_main_dispatched main Debugger.hook fuel {}
    have sameMain : ¬ (machine.undisturbed fuel).program.main?.isSome = true := main
    have result : machine.debugged fuel = { state := {}, machine := machine.settled, ending := .trapped .missing } := by
      rw [Machine.debugged, Machine.run, if_neg main, Machine.finish_reliable reliable]
    have plain : machine.undebugged fuel =
        { state := (), machine := (machine.undisturbed fuel).settled, ending := .trapped .missing } := by
      rw [Machine.undebugged, Machine.run, if_neg sameMain, Machine.finish_reliable]
      exact reliable
    have unread : machine.unread fuel = machine.input.remaining := by
      rw [Machine.unread, result]
      rfl
    rw [none, Machine.no_main_dispatched sameMain, plain, result, unread]
    refine ⟨all, ?_, List.nil_prefix, fun _ => ⟨rfl, rfl, ?_, rfl⟩, ?_⟩
    · intro before pause after split
      simp at split
    · have lines : (machine.undisturbed fuel).input.remaining = _ := mirrors.lines
      rw [none, unread] at lines
      exact lines
    · intro reason impossible
      cases impossible

/-- A program that writes back the first characters of two lines. -/
def twoLetters : Source := .ofText ".main
IN
OUT
IN
OUT
.end-main
"

/-- A machine whose input holds commands, lines for the program, and one more line. -/
def interleavedCommands (program : Program) : Machine :=
  { program
    input := [{ lines := ["s", "A", "c!", "B", "rest"] }]
    output := { device := .tracked {} } }

/-- The debugger takes two lines and the program two others. The program goes on without pauses from its second instruction on,
and ends as it would without a debugger. -/
theorem two_letters_debugged : ∃ program, (twoLetters.compile "m").2 = .ok program ∧
    ((interleavedCommands program).pauses 9).map Machine.Dispatch.commands = [[("s" : Text)], [("c!" : Text)], [], []] ∧
    ((interleavedCommands program).pauses 9).map Machine.Dispatch.answers = [[("A" : Text)], [], [("B" : Text)], []] ∧
    (interleavedCommands program).unread 9 = [("rest" : Text)] ∧
    ((interleavedCommands program).undebugged 9).ending = .completed ∧
    ((interleavedCommands program).undebugged 9).machine.output.sink.text = ("AB" : Text) := by
  have debugged : (twoLetters.compile "m").2.toOption.any (fun program =>
      decide (((interleavedCommands program).pauses 9).map Machine.Dispatch.commands =
          [[("s" : Text)], [("c!" : Text)], [], []] ∧
        ((interleavedCommands program).pauses 9).map Machine.Dispatch.answers = [[("A" : Text)], [], [("B" : Text)], []] ∧
        (interleavedCommands program).unread 9 = [("rest" : Text)] ∧
        ((interleavedCommands program).debugged 9).ending = .completed ∧
        ((interleavedCommands program).debugged 9).machine.output.sink.text = ("AB" : Text))) = true := by
    decide +kernel
  obtain ⟨program, compiled, passes⟩ := exists_ok_of_any debugged
  obtain ⟨commands, answers, unread, completed, written⟩ := of_decide_eq_true passes
  have reliable : (interleavedCommands program).output.Reliable := ⟨rfl, rfl⟩
  obtain ⟨-, -, -, unstopped, -⟩ := debugger_takes_only_its_lines (interleavedCommands program) _ rfl reliable 9
  have goes : ((interleavedCommands program).debugged 9).ending ≠ .stopped .requested := by
    rw [completed]
    decide
  obtain ⟨-, ending, -, machine⟩ := unstopped goes
  refine ⟨program, compiled, commands, answers, unread, ending.trans completed, ?_⟩
  rw [← written, machine]

end IntegerMachine
