import IntegerMachine.Proofs.Activation

/-!
# Whose value is handed over

There is one place for a value on its way to a caller, and a frame goes on after it has returned. So a frame that is
left does not always hand over the value of its own return. If it calls a method behind its return, the place is
emptied when that method is left, and its value has come back to itself. If it neither returns nor calls anything, what
was pending when it was opened goes to its caller, as if the frame had returned it.

What an activation does itself is told apart from what the methods do that it calls: the deeds of an activation are its
own returns and calls, in their order. They determine what is pending whenever its frame is the innermost one, and
therefore what its caller receives. That is the value of its own last return exactly if it has called nothing behind
that return. An activation without a return hands over nothing exactly if nothing was pending when it was opened, or if
it has called a method.
-/
namespace IntegerMachine

/-- What an activation does itself to the place for the pending value. -/
inductive Deed where
  | returned (value : Cell)
  | called
  deriving DecidableEq, Repr

namespace Deed

/-- The value of the last return among deeds, the latest of which comes first. -/
def lastReturn : List Deed → Option Cell
  | [] => none
  | returned value :: _ => some value
  | called :: earlier => lastReturn earlier

/-- What is pending behind deeds, the latest first, if something was pending in front of them. -/
def pending (inherited : Option Cell) : List Deed → Option Cell
  | [] => inherited
  | returned value :: _ => some value
  | called :: _ => none

/-- What is pending behind deeds is the value of the last return among them: nothing was called behind it, and if there
is none then nothing was inherited, or a call has taken it away. -/
def Faithful (inherited : Option Cell) : List Deed → Prop
  | [] => inherited = none
  | returned _ :: _ => True
  | called :: earlier => ∀ value, returned value ∉ earlier

/-- There is no last return exactly if there is no return. Calls in front of it or behind it do not count here. -/
theorem last_return_none_iff (deeds : List Deed) : lastReturn deeds = none ↔ ∀ value, returned value ∉ deeds := by
  induction deeds with
  | nil => simp [lastReturn]
  | cons deed earlier ih =>
    cases deed with
    | returned value =>
      refine ⟨nofun, fun none => ?_⟩
      exact absurd List.mem_cons_self (none value)
    | called => simp [lastReturn, ih]

/-- The value of the last return is pending exactly behind faithful deeds. Only the latest deed decides: a return is
pending itself, and a call has left nothing behind. -/
theorem pending_eq_last_iff (inherited : Option Cell) (deeds : List Deed) :
    pending inherited deeds = lastReturn deeds ↔ Faithful inherited deeds := by
  cases deeds with
  | nil => exact Iff.rfl
  | cons deed earlier =>
    cases deed with
    | returned value => exact ⟨fun _ => trivial, fun _ => rfl⟩
    | called =>
      refine Iff.trans ?_ (last_return_none_iff earlier)
      exact eq_comm

end Deed

namespace Stage

open Machine

/-- What the frame above the given number of others does at a stage: it is the innermost one, and a return or a call
comes next and goes well. -/
def deed? (below : Nat) : Stage → Option Deed
  | ready machine instruction =>
    if machine.frames.length = below + 1 ∧ (machine.execute instruction).trap = none then
      match instruction.opcode with
      | .ireturn => (machine.current?.bind fun frame => frame.stack.head?).map .returned
      | .invokevirtual => some .called
      | _ => none
    else none
  | _ => none

/-- An instruction that traps does nothing to the pending value, and so is no deed. -/
theorem deed_failed {below : Nat} {machine : Machine} {instruction : Instruction} {trap : Trap}
    (raised : (machine.execute instruction).trap = some trap) : (ready machine instruction).deed? below = none :=
  if_neg fun both => Option.some_ne_none trap (raised.symm.trans both.2)

/-- Without frames there is nothing to execute. -/
theorem execute_no_frames {machine : Machine} (none : machine.frames = []) (instruction : Instruction) :
    (machine.execute instruction).state.frames = [] := by
  rw [execute, none]
  exact none

/-- What a frame does is not done by the frames above it. -/
theorem deed_covered {below : Nat} {machine : Machine} {instruction : Instruction}
    (covered : below + 1 < machine.frames.length) : (ready machine instruction).deed? below = none :=
  if_neg fun both => Nat.lt_irrefl _ (both.1 ▸ covered)

/-- From the stage `opened` on, the frame above the given number of others is there up to a stage, and has done the given
deeds, the latest first. -/
inductive Acts (below : Nat) (opened : Stage) : List Deed → Stage → Prop where
  | opened : Acts below opened [] opened
  | step {deeds : List Deed} {stage later : Stage} (earlier : Acts below opened deeds stage)
      (step : Step Spares stage later) (deep : below < later.frames.length) :
      Acts below opened ((stage.deed? below).toList ++ deeds) later

/-- Where a frame acts there are more frames than those below it, from the stage on at which it was opened. -/
theorem Acts.reaches {below : Nat} {opened stage : Stage} {deeds : List Deed} (acts : Acts below opened deeds stage) :
    ReachesAbove below opened stage := by
  induction acts with
  | opened => exact .refl
  | step _ step deep ih => exact ih.tail ⟨step, deep⟩

/-- The deeds of the frame above the given number of others tell what is pending while it is the innermost one. While
there are frames above it, its last deed is a call. -/
structure Accounts (below : Nat) (inherited : Option Cell) (deeds : List Deed) (stage : Stage) : Prop where
  innermost : stage.frames.length = below + 1 → stage.machine.pending = Deed.pending inherited deeds
  covered : below + 1 < stage.frames.length → ∃ earlier, deeds = .called :: earlier

namespace Accounts

variable {below : Nat} {inherited : Option Cell} {deeds : List Deed} {stage later : Stage}

/-- A step that keeps the number of frames and what is pending, and is no deed, leaves the account as it was. -/
theorem kept (accounts : stage.Accounts below inherited deeds) (length : later.frames.length = stage.frames.length)
    (pending : later.machine.pending = stage.machine.pending) : later.Accounts below inherited deeds :=
  ⟨fun own => pending.trans (accounts.innermost (length ▸ own)), fun more => accounts.covered (length ▸ more)⟩

/-- A frame that is left was called by the frame below it, so that nothing is pending when that one goes on: the last
deed of that one is a call. -/
theorem left {machine : Machine} {frame : Frame} {callers : List Frame}
    (accounts : (between machine).Accounts below inherited deeds) (frames : machine.frames = frame :: callers)
    (deep : below < callers.length) : (between (machine.leave frame callers)).Accounts below inherited deeds := by
  have longer : (between machine).frames.length = callers.length + 1 := congrArg List.length frames
  have length : (between (machine.leave frame callers)).frames.length = callers.length := leave_length machine frame callers
  obtain ⟨earlier, rfl⟩ := accounts.covered (by omega)
  refine ⟨fun _ => ?_, fun _ => ⟨earlier, rfl⟩⟩
  obtain ⟨caller, rest, rfl⟩ := List.exists_cons_of_length_pos (Nat.zero_lt_of_lt deep)
  rfl

/-- A completed instruction that opens no frame changes what is pending only if it is a return, which is a deed. If
the frame is not the innermost one, the return is somebody else's. -/
theorem stayed {machine : Machine} {instruction : Instruction} {frame : Frame} {callers : List Frame}
    (accounts : (ready machine instruction).Accounts below inherited deeds) (frames : machine.frames = frame :: callers)
    (completed : (machine.execute instruction).trap = none)
    (stays : machine.Stays frame callers instruction (machine.execute instruction)) :
    (between (machine.execute instruction).state).Accounts below inherited
      (((ready machine instruction).deed? below).toList ++ deeds) := by
  have length : (between (machine.execute instruction).state).frames.length = machine.frames.length := by
    obtain ⟨outcome, -, -, after⟩ := stays.effect
    rw [Stage.frames, Stage.machine, after, frames, List.length_cons, List.length_cons]
  by_cases own : machine.frames.length = below + 1
  · by_cases isReturn : instruction.opcode = .ireturn
    · obtain ⟨value, rest, stack, -, pending⟩ := stays.returned completed isReturn
      have deed : (ready machine instruction).deed? below = some (.returned value) := by
        rw [deed?, if_pos ⟨own, completed⟩, isReturn]
        simp [current?, frames, stack]
      rw [deed]
      exact ⟨fun _ => pending, fun more => absurd (length ▸ more) (by omega)⟩
    · have deed : (ready machine instruction).deed? below = none := by
        rw [deed?, if_pos ⟨own, completed⟩]
        split
        · contradiction
        · exact absurd ‹_› (stays.no_call completed)
        · rfl
      rw [deed]
      exact accounts.kept length (stays.pending.trans (if_neg fun both => isReturn both.1))
  · have deed : (ready machine instruction).deed? below = none := if_neg fun both => own both.1
    rw [deed]
    refine ⟨fun innermost => absurd (length.symm.trans innermost) own, fun more => ?_⟩
    exact accounts.covered (length ▸ more)

/-- A call is a deed of the innermost frame. Whatever is pending at that moment is not in the account until the frame
is the innermost one again. -/
theorem called {machine : Machine} {instruction : Instruction} {frame : Frame} {callers : List Frame} {name : Text}
    {method : Blueprint} (accounts : (ready machine instruction).Accounts below inherited deeds)
    (frames : machine.frames = frame :: callers) (deep : below < machine.frames.length)
    (calls : machine.Calls frame callers instruction name method (machine.execute instruction)) :
    (between (machine.execute instruction).state).Accounts below inherited
      (((ready machine instruction).deed? below).toList ++ deeds) := by
  have length : (between (machine.execute instruction).state).frames.length = machine.frames.length + 1 := by
    rw [Stage.frames, Stage.machine, calls.frames, frames]
    rfl
  refine ⟨fun innermost => absurd innermost (by omega), fun _ => ?_⟩
  by_cases own : machine.frames.length = below + 1
  · have deed : (ready machine instruction).deed? below = some .called := by
      rw [deed?, if_pos ⟨own, calls.trap⟩, calls.opcode]
    rw [deed]
    exact ⟨deeds, rfl⟩
  · have covered : below + 1 < machine.frames.length := by omega
    rw [deed_covered covered]
    exact accounts.covered covered

/-- Every step keeps the account, as long as the frame is there. The cases are those of a step, and the lemmas above
are one for each. -/
theorem step (accounts : stage.Accounts below inherited deeds) (step : Step Spares stage later)
    (deepBefore : below < stage.frames.length) (deep : below < later.frames.length) :
    later.Accounts below inherited ((stage.deed? below).toList ++ deeds) := by
  cases step with
  | left isLeft =>
    obtain ⟨frame, callers, frames, -, rfl⟩ := next_eq_left isLeft
    exact accounts.left frames (leave_length _ frame callers ▸ deep)
  | advanced isReady spares =>
    obtain ⟨frame, callers, frames, -, rfl⟩ := next_eq_ready isReady
    refine accounts.kept ?_ spares.pending
    rw [Stage.frames, Stage.frames, Stage.machine, Stage.machine, spares.frames, frames]
    rfl
  | @executed machine instruction completed =>
    obtain ⟨frame, callers, frames⟩ := List.exists_cons_of_length_pos (Nat.zero_lt_of_lt deepBefore)
    rcases execute_effect frames instruction with stays | ⟨name, method, calls⟩
    · exact accounts.stayed frames completed stays
    · exact accounts.called frames deepBefore calls
  | @failed machine instruction trap raised =>
    obtain ⟨frame, callers, frames⟩ := List.exists_cons_of_length_pos (Nat.zero_lt_of_lt deepBefore)
    rw [deed_failed raised]
    rcases execute_effect frames instruction with stays | ⟨name, method, calls⟩
    · obtain ⟨outcome, -, -, after⟩ := stays.effect
      have unfinished := fun completed => Option.some_ne_none trap (raised.symm.trans completed)
      refine accounts.kept ?_ (stays.pending.trans (if_neg fun both => unfinished both.2))
      exact (congrArg List.length after).trans (congrArg List.length frames).symm
    · cases calls.trap.symm.trans raised

end Accounts

/-- The account of a frame that starts as the innermost one is right as long as the frame is there. What it inherits
is what was pending when it was opened. -/
theorem Acts.accounts {below : Nat} {opened stage : Stage} {deeds : List Deed} (acts : Acts below opened deeds stage)
    (innermost : opened.frames.length = below + 1) : stage.Accounts below opened.machine.pending deeds := by
  have both : stage.Accounts below opened.machine.pending deeds ∧ below < stage.frames.length := by
    induction acts with
    | opened =>
      refine ⟨⟨fun _ => rfl, fun more => absurd innermost (Nat.ne_of_gt more)⟩, ?_⟩
      exact innermost ▸ Nat.lt_succ_self below
    | step _ step deep ih => exact ⟨ih.1.step step ih.2 deep, deep⟩
  exact both.1

/-- In a run of a machine, a call with something pending has opened an activation above the given caller and the frames
below it, which is in progress at a stage and has done the given deeds. -/
inductive InProgress (machine : Machine) : Option Cell → List Deed → Frame → List Frame → Stage → Prop where
  | intro {before : Machine} {instruction : Instruction} {callee caller : Frame} {callers : List Frame}
      {deeds : List Deed} {stage : Stage} (reaches : Reaches Spares (between machine.restart) (ready before instruction))
      (isCall : instruction.opcode = .invokevirtual) (completed : (before.execute instruction).trap = none)
      (opened : (before.execute instruction).state.frames = callee :: caller :: callers)
      (acts : Acts (callers.length + 1) (between (before.execute instruction).state) deeds stage) :
      InProgress machine before.pending deeds caller callers stage

namespace InProgress

variable {machine : Machine} {inherited : Option Cell} {deeds : List Deed} {caller : Frame} {callers : List Frame}

/-- An activation is in progress as long as there are more frames than those below it. Its deeds are collected step by
step. -/
theorem step {stage later : Stage} (inProgress : InProgress machine inherited deeds caller callers stage)
    (step : Step Spares stage later) (deep : callers.length + 1 < later.frames.length) :
    InProgress machine inherited ((stage.deed? (callers.length + 1)).toList ++ deeds) caller callers later := by
  obtain ⟨reaches, isCall, completed, opened, acts⟩ := inProgress
  exact .intro reaches isCall completed opened (acts.step step deep)

/-- When an activation is left, its caller receives what its deeds have left pending, and goes on where it was.
Nothing is pending after that. -/
theorem receives {reached after : Machine} (inProgress : InProgress machine inherited deeds caller callers (between reached))
    (own : reached.frames.length = callers.length + 2) (left : reached.next = .left after) :
    after.frames = { caller with stack := (Deed.pending inherited deeds).toList ++ caller.stack } :: callers ∧
      after.pending = none := by
  cases inProgress with
  | @intro before instruction callee _ _ _ _ reaches isCall completed opened acts =>
  cases frames : before.frames with
  | nil => cases (execute_no_frames frames instruction).symm.trans opened
  | cons frame rest =>
    rcases execute_effect frames instruction with stays | ⟨name, method, calls⟩
    · exact absurd isCall (stays.no_call completed)
    · have same := calls.frames.symm.trans opened
      simp only [List.cons.injEq] at same
      obtain ⟨rfl, rfl, rfl⟩ := same
      have innermost : (between (before.execute instruction).state).frames.length = rest.length + 1 + 1 :=
        congrArg List.length opened
      have pending := (acts.accounts innermost).innermost own
      rw [show (between (before.execute instruction).state).machine.pending = before.pending from calls.pending] at pending
      have covers : Covers method frame.pc
          ({ frame with stack := frame.stack.drop (method.params.length + 1) } :: rest)
          (between (before.execute instruction).state) := ⟨[], _, opened, rfl, rfl⟩
      have shallow : (between after).frames.length ≤ rest.length + 1 := by
        obtain ⟨top, below, split, -, rfl⟩ := next_eq_left left
        rw [split] at own
        rw [Stage.frames, Stage.machine, leave_length]
        exact Nat.le_of_eq (Nat.succ.inj own)
      have returned := (covers.reaches acts.reaches).returns (.left left) shallow
      rw [pending] at returned
      exact returned

end InProgress

/-- Every frame above that of the main block is an activation in progress. The induction is on the steps of the run: a
step changes the innermost frame, adds one, or drops it, so that all activations but a new one are there before it. -/
theorem in_progress_of_reaches {machine : Machine} {stage : Stage}
    (reaches : Reaches Spares (between machine.restart) stage) (inner : List Frame) {current caller : Frame}
    {callers : List Frame} (frames : stage.frames = inner ++ current :: caller :: callers) :
    ∃ inherited deeds, InProgress machine inherited deeds caller callers stage := by
  induction reaches generalizing inner current caller callers with
  | refl =>
    have few : machine.restart.frames.length ≤ 1 := by
      rw [restart]
      cases machine.program.main? <;> simp
    have many := congrArg List.length frames
    rw [List.length_append, List.length_cons, List.length_cons] at many
    change machine.restart.frames.length = _ at many
    omega
  | @tail stage later earlier step ih =>
    have deep : callers.length + 1 < later.frames.length := by
      rw [frames, List.length_append, List.length_cons, List.length_cons]
      omega
    have goesOn (above : List Frame) {own : Frame} (there : stage.frames = above ++ own :: caller :: callers) :
        ∃ inherited deeds, InProgress machine inherited deeds caller callers later := by
      obtain ⟨inherited, deeds, inProgress⟩ := ih above there
      exact ⟨inherited, _, inProgress.step step deep⟩
    -- A step that changes nothing but the innermost frame.
    have changed {top other : Frame} {rest : List Frame} (before : stage.frames = top :: rest)
        (after : later.frames = other :: rest) :
        ∃ inherited deeds, InProgress machine inherited deeds caller callers later := by
      have same := after.symm.trans frames
      cases inner with
      | nil =>
        cases same
        exact goesOn [] before
      | cons first others =>
        cases same
        exact goesOn (top :: others) before
    cases step with
    | left isLeft =>
      obtain ⟨frame, rest, before, -, rfl⟩ := next_eq_left isLeft
      cases rest with
      | nil =>
        cases inner <;> cases frames
      | cons resumed others =>
        cases inner with
        | nil =>
          cases frames
          exact goesOn [frame] before
        | cons first inside =>
          cases frames
          exact goesOn (frame :: resumed :: inside) before
    | advanced isReady spares =>
      obtain ⟨frame, rest, before, -, rfl⟩ := next_eq_ready isReady
      exact changed before spares.frames
    | @executed reached instruction completed =>
      cases before : reached.frames with
      | nil => cases inner <;> cases (execute_no_frames before instruction).symm.trans frames
      | cons frame rest =>
        rcases execute_effect before instruction with stays | ⟨name, method, calls⟩
        · obtain ⟨outcome, -, -, after⟩ := stays.effect
          exact changed before after
        · cases inner with
          | nil =>
            cases calls.frames.symm.trans frames
            exact ⟨_, _, .intro earlier calls.opcode completed calls.frames .opened⟩
          | cons first inside =>
            have same := calls.frames.symm.trans frames
            rw [List.cons_append, List.cons.injEq] at same
            cases inside with
            | nil =>
              cases same.2
              exact goesOn [] before
            | cons second others =>
              cases same.2
              exact goesOn (frame :: others) before
    | @failed reached instruction trap raised =>
      cases before : reached.frames with
      | nil => cases inner <;> cases (execute_no_frames before instruction).symm.trans frames
      | cons frame rest =>
        rcases execute_effect before instruction with stays | ⟨name, method, calls⟩
        · obtain ⟨outcome, -, -, after⟩ := stays.effect
          exact changed before after
        · cases calls.trap.symm.trans raised

end Stage

open Machine Stage in
/-- In every run of every program, a frame that is left above another one is that of an activation in progress. Its
caller receives what the deeds of the activation have left pending. That is the value of the last return of the
activation itself, and nothing if it has not returned, exactly if its deeds are faithful to what it inherited. -/
theorem hand_over_follows_deeds (machine : Machine) {reached after : Machine} {callee caller : Frame}
    {callers : List Frame} (reaches : Reaches Spares (between machine.restart) (between reached))
    (frames : reached.frames = callee :: caller :: callers) (left : reached.next = .left after) :
    (∃ inherited deeds, InProgress machine inherited deeds caller callers (between reached)) ∧
    ∀ inherited deeds, InProgress machine inherited deeds caller callers (between reached) →
      after.frames = { caller with stack := (Deed.pending inherited deeds).toList ++ caller.stack } :: callers ∧
      (after.frames = { caller with stack := (Deed.lastReturn deeds).toList ++ caller.stack } :: callers ↔
        Deed.Faithful inherited deeds) := by
  refine ⟨in_progress_of_reaches reaches [] frames, fun inherited deeds inProgress => ?_⟩
  have own : reached.frames.length = callers.length + 2 := congrArg List.length frames
  have received := (inProgress.receives own left).1
  refine ⟨received, ?_⟩
  rw [received, ← Deed.pending_eq_last_iff]
  simp only [List.cons.injEq, and_true, Frame.mk.injEq, true_and, List.append_cancel_right_eq]
  exact ⟨fun same => by simpa using congrArg List.head? same, congrArg Option.toList⟩

/-! ## A value that strays -/

namespace Machine

/-- Goes on for a number of iterations, as long as there are more frames than the given number, and collects the deeds of
the frame directly above those. -/
def follow (below : Nat) : Nat → Machine → List Deed → Option (Machine × List Deed)
  | 0, machine, deeds => some (machine, deeds)
  | count + 1, machine, deeds =>
    match machine.next with
    | .over => none
    | .left after => if below < after.frames.length then follow below count after deeds else none
    | .ready reached instruction =>
      let outcome := reached.execute instruction
      if outcome.trap = none ∧ below < reached.frames.length ∧ below < outcome.state.frames.length then
        follow below count outcome.state (((Stage.ready reached instruction).deed? below).toList ++ deeds)
      else none

/-- The deeds that are collected are those of the frame. The function follows a run by evaluation, and this ties it to
the relation. -/
theorem follow_acts {below count : Nat} {opened : Stage} {machine reached : Machine} {deeds all : List Deed}
    (acts : Stage.Acts below opened deeds (.between machine))
    (followed : machine.follow below count deeds = some (reached, all)) :
    Stage.Acts below opened all (.between reached) := by
  induction count generalizing machine deeds with
  | zero =>
    cases followed
    exact acts
  | succ count ih =>
    rw [follow] at followed
    cases phase : machine.next with
    | «over» =>
      rw [phase] at followed
      cases followed
    | left after =>
      rw [phase] at followed
      dsimp only at followed
      split at followed
      · rename_i deep
        exact ih (acts.step (.left phase) deep) followed
      · cases followed
    | ready advanced instruction =>
      rw [phase] at followed
      dsimp only at followed
      split at followed
      · rename_i passed
        obtain ⟨completed, deepBefore, deep⟩ := passed
        have advance := acts.step (.advanced phase (.refl advanced)) deepBefore
        exact ih (advance.step (.executed completed) deep) followed
      · cases followed

/-- A frame that is left in a run. -/
structure Departure where
  inherited : Option Cell
  deeds : List Deed
  caller : Frame
  callers : List Frame
  /-- The machine before the frame is left. -/
  reached : Machine
  /-- The machine after the frame was left. -/
  after : Machine

/-- What is observed of a call that comes after a number of iterations, and whose frame is left after another number of
them. -/
def departure? (machine : Machine) (early count : Nat) : Option Departure :=
  let start := machine.restart.loop noHook early ()
  match start.ending, start.machine.next with
  | .suspended, .ready before instruction =>
    let called := before.execute instruction
    match called.state.frames with
    | _ :: caller :: callers =>
      match called.state.follow (callers.length + 1) count [] with
      | some (reached, deeds) =>
        match reached.next with
        | .left after =>
          if instruction.opcode = .invokevirtual ∧ called.trap = none ∧ reached.frames.tail = caller :: callers then
            some { inherited := before.pending, deeds, caller, callers, reached, after }
          else none
        | _ => none
      | none => none
    | _ => none
  | _, _ => none

open Stage in
/-- What is observed happens in a run: the observation is a computation, from which the stages and steps of the run
are recovered. -/
theorem departure_happens {machine : Machine} {early count : Nat} {seen : Departure}
    (observed : machine.departure? early count = some seen) :
    Reaches Spares (between machine.restart) (between seen.reached) ∧
      (∃ callee, seen.reached.frames = callee :: seen.caller :: seen.callers) ∧ seen.reached.next = .left seen.after ∧
      InProgress machine seen.inherited seen.deeds seen.caller seen.callers (between seen.reached) := by
  unfold departure? at observed
  dsimp only at observed
  split at observed
  · rename_i before instruction suspended advanced
    split at observed
    · rename_i callee caller callers opened
      split at observed
      · rename_i reached deeds followed
        split at observed
        · rename_i after left
          split at observed
          · rename_i passed
            obtain ⟨isCall, completed, waiting⟩ := passed
            cases observed
            have called : Reaches Spares (between machine.restart) (ready before instruction) :=
              .tail (suspended_reaches Spares.refl suspended) (.advanced advanced (.refl before))
            have acts := follow_acts .opened followed
            have inside := Relation.ReflTransGen.mono (fun _ _ both => both.1) _ _ acts.reaches
            refine ⟨(called.tail (.executed completed)).trans inside, ?_, left, .intro called isCall completed opened acts⟩
            obtain ⟨top, rest, frames, -⟩ := next_eq_left left
            exact ⟨top, by rw [← waiting, frames]; rfl⟩
          · cases observed
        · cases observed
      · cases observed
    · cases observed
  · cases observed

end Machine

/-- A call from the main block that is observed with its deeds happens in a run of the program. The main block is the
caller, so that there are no frames below it. -/
theorem exists_departure {source : Source} {file : Text} {early count : Nat} {inherited : Option Cell}
    {deeds : List Deed} (observed : (source.compile file).2.toOption.any (fun program =>
      (({ program } : Machine).departure? early count).any fun seen =>
        seen.inherited = inherited ∧ seen.deeds = deeds ∧ seen.callers = []) = true) :
    ∃ program reached after callee caller, (source.compile file).2 = .ok program ∧
      Stage.Reaches Machine.Spares (.between ({ program } : Machine).restart) (.between reached) ∧
      reached.frames = [callee, caller] ∧ reached.next = .left after ∧
      Stage.InProgress { program } inherited deeds caller [] (.between reached) := by
  obtain ⟨program, compiled, passes⟩ := exists_ok_of_any observed
  cases departs : ({ program } : Machine).departure? early count with
  | none =>
    rw [departs] at passes
    cases passes
  | some seen =>
    rw [departs, Option.any_some, decide_eq_true_eq] at passes
    obtain ⟨_, _, caller, _, reached, after⟩ := seen
    obtain ⟨rfl, rfl, rfl⟩ := passes
    obtain ⟨reaches, ⟨callee, frames⟩, left, inProgress⟩ := Machine.departure_happens departs
    exact ⟨program, reached, after, callee, caller, compiled, reaches, frames, left, inProgress⟩

/-- The call of the addition hands over the value that its own frame has returned. It calls nothing behind its
return. -/
theorem addition_hands_over : ∃ program reached after callee caller, (addition.compile "a").2 = .ok program ∧
    Stage.Reaches Machine.Spares (.between ({ program } : Machine).restart) (.between reached) ∧
    reached.frames = [callee, caller] ∧ reached.next = .left after ∧
    Stage.InProgress { program } none [.returned 7] caller [] (.between reached) ∧
    after.frames = [{ caller with stack := 7 :: caller.stack }] := by
  have observed : (addition.compile "a").2.toOption.any (fun program =>
      (({ program } : Machine).departure? 4 4).any fun seen =>
        seen.inherited = none ∧ seen.deeds = [.returned 7] ∧ seen.callers = []) = true := by
    decide +kernel
  obtain ⟨program, reached, after, callee, caller, compiled, reaches, frames, left, inProgress⟩ := exists_departure observed
  have follows := (hand_over_follows_deeds { program } reaches frames left).2 _ _ inProgress
  exact ⟨program, reached, after, callee, caller, compiled, reaches, frames, left, inProgress, follows.2.mpr trivial⟩

/-- A program with a method that returns a value and then calls another one, which jumps over its return. -/
def stray : Source := .ofText ".main
BIPUSH 0
INVOKEVIRTUAL outer
.end-main
.method outer()
BIPUSH 7
IRETURN
BIPUSH 0
INVOKEVIRTUAL silent
.end-method
.method silent()
GOTO end
BIPUSH 1
IRETURN
end:
.end-method
"

/-- The first method has returned a value, but its caller receives nothing when it is left. The value was handed to
the method itself when the second one was left. -/
theorem stray_value_lost : ∃ program reached after callee caller, (stray.compile "s").2 = .ok program ∧
    Stage.Reaches Machine.Spares (.between ({ program } : Machine).restart) (.between reached) ∧
    reached.frames = [callee, caller] ∧ reached.next = .left after ∧
    Stage.InProgress { program } none [.called, .returned 7] caller [] (.between reached) ∧
    after.frames = [caller] ∧
    after.frames ≠ [{ caller with stack := (Deed.lastReturn [.called, .returned 7]).toList ++ caller.stack }] := by
  have observed : (stray.compile "s").2.toOption.any (fun program =>
      (({ program } : Machine).departure? 1 6).any fun seen =>
        seen.inherited = none ∧ seen.deeds = [.called, .returned 7] ∧ seen.callers = []) = true := by
    decide +kernel
  obtain ⟨program, reached, after, callee, caller, compiled, reaches, frames, left, inProgress⟩ := exists_departure observed
  have received : after.frames = [caller] := (inProgress.receives (congrArg List.length frames) left).1
  refine ⟨program, reached, after, callee, caller, compiled, reaches, frames, left, inProgress, received, ?_⟩
  intro same
  have heights := congrArg (List.map fun frame => frame.stack.length) (received.symm.trans same)
  simp [Deed.lastReturn] at heights

end IntegerMachine
