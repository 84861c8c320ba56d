import IntegerMachine.Proofs.Decoding
import IntegerMachine.Proofs.Devices
import Mathlib.Data.List.Forall2
import Mathlib.Data.List.TakeWhile

/-!
# Lines and the stack of inputs

The lines of a text are its pieces, cut after each line feed, without the line feeds and carriage returns at their ends.
A read takes a line and gives the first code point of it.

Texts may be pushed and lines read in any order. Which line a read takes is settled by what happened before: it is the
first line not yet delivered of the newest text that has such a line. The stack of sources does not show this by itself,
because a source that is used up is dropped only by the first read that finds it so. The invariant therefore lists all
texts that were pushed, and says of each what it has delivered and whether a source still stands for it.
-/
namespace IntegerMachine

namespace Text

/-! ## The lines of a text -/

/-- A text is cut after each line feed; a last piece without one counts if it is not empty. -/
inductive Cut : Text → List Text → Prop
  | empty : Cut [] []
  | ended {row rest : Text} {others : List Text} : lineFeed ∉ row → Cut rest others →
      Cut (row ++ lineFeed :: rest) ((row ++ [lineFeed]) :: others)
  | last {row : Text} : row ≠ [] → lineFeed ∉ row → Cut row [row]

/-- A piece without all the line feeds and carriage returns at its end. -/
def Trimmed (piece line : Text) : Prop :=
  ∃ ends : Text, piece = line ++ ends ∧ (∀ byte ∈ ends, byte = 0x0A ∨ byte = 0x0D) ∧
    ∀ front last, line = front ++ [last] → last ≠ 0x0A ∧ last ≠ 0x0D

/-- The lines of a text are its trimmed pieces. -/
def HasLines (text : Text) (lines : List Text) : Prop :=
  ∃ pieces, Cut text pieces ∧ List.Forall₂ Trimmed pieces lines

/-- A piece that ends in a line feed is cut off, with the line feed still at its end. Trimming takes it away later. -/
theorem pieces_ended {row : Text} (unbroken : lineFeed ∉ row) (rest : Text) :
    pieces (row ++ lineFeed :: rest) = (row ++ [lineFeed]) :: pieces rest := by
  induction row with
  | nil => exact if_pos rfl
  | cons first row ih =>
    obtain ⟨other, behind⟩ := not_or.mp (mt List.mem_cons.mpr unbroken)
    rw [List.cons_append, pieces, if_neg (Ne.symm other), ih behind]
    rfl

/-- What is behind the last line feed is one piece. It must not be empty: a text that ends in a line feed has no
further piece. -/
theorem pieces_last {row : Text} (some : row ≠ []) (unbroken : lineFeed ∉ row) : pieces row = [row] := by
  induction row with
  | nil => exact absurd rfl some
  | cons first row ih =>
    obtain ⟨other, behind⟩ := not_or.mp (mt List.mem_cons.mpr unbroken)
    rw [pieces, if_neg (Ne.symm other)]
    cases row with
    | nil => rfl
    | cons second row => rw [ih (List.cons_ne_nil _ _) behind]

/-- There is one way to cut a text, and it is the one that the function finds. -/
theorem Cut.pieces_eq {text : Text} {pieces : List Text} (cut : Cut text pieces) : text.pieces = pieces := by
  induction cut with
  | empty => rfl
  | ended unbroken _ ih => rw [pieces_ended unbroken, ih]
  | last some unbroken => exact pieces_last some unbroken

/-- Every text can be cut. A byte in front of a text joins its first piece unless it is a line feed. -/
theorem cut_pieces (text : Text) : Cut text text.pieces := by
  induction text with
  | nil => exact .empty
  | cons first rest ih =>
    by_cases feed : first = lineFeed
    · rw [pieces, if_pos feed, feed]
      exact Cut.ended List.not_mem_nil ih
    · have joined {row : Text} (unbroken : lineFeed ∉ row) : lineFeed ∉ first :: row := by
        intro member
        rcases List.mem_cons.mp member with same | behind
        · exact feed same.symm
        · exact unbroken behind
      rw [pieces, if_neg feed]
      generalize pieces rest = others at ih
      cases ih with
      | empty => exact .last (List.cons_ne_nil _ _) (joined List.not_mem_nil)
      | ended unbroken behind => exact .ended (joined unbroken) behind
      | last _ unbroken => exact .last (List.cons_ne_nil _ _) (joined unbroken)

/-- The test of a byte is the comparison with the two bytes that are trimmed. -/
theorem is_line_end_iff {byte : UInt8} : isLineEnd byte = true ↔ byte = 0x0A ∨ byte = 0x0D := by
  rw [isLineEnd, Bool.or_eq_true, beq_iff_eq, beq_iff_eq]

/-- Trimming removes exactly the line feeds and carriage returns at the end. There may be several of either, in any
order. -/
theorem trimmed_iff {piece line : Text} : Trimmed piece line ↔ trimRight isLineEnd piece = line := by
  constructor
  · rintro ⟨ends, rfl, removed, kept⟩
    have all : ∀ byte ∈ ends.reverse, isLineEnd byte = true := by
      intro byte member
      exact is_line_end_iff.mpr (removed byte (List.mem_reverse.mp member))
    rw [trimRight, List.reverse_append, List.dropWhile_append_of_pos all]
    cases shape : line.reverse with
    | nil => exact (List.reverse_eq_nil_iff.mp shape).symm
    | cons last front =>
      have split : line = front.reverse ++ [last] := by rw [← List.reverse_cons, ← shape, List.reverse_reverse]
      have stays : isLineEnd last ≠ true := by
        intro isEnd
        obtain ⟨notFeed, notReturn⟩ := kept _ _ split
        rcases is_line_end_iff.mp isEnd with feed | carriage
        · exact notFeed feed
        · exact notReturn carriage
      rw [List.dropWhile_cons_of_neg stays, ← shape, List.reverse_reverse]
  · rintro rfl
    refine ⟨(piece.reverse.takeWhile isLineEnd).reverse, ?_, ?_, ?_⟩
    · rw [trimRight, ← List.reverse_append, List.takeWhile_append_dropWhile, List.reverse_reverse]
    · intro byte member
      exact is_line_end_iff.mp (List.mem_takeWhile_imp (List.mem_reverse.mp member))
    · intro front last split
      have head : piece.reverse.dropWhile isLineEnd = last :: front.reverse := by
        rw [← List.reverse_inj, List.reverse_cons, List.reverse_reverse]
        exact split
      have stays : ¬ isLineEnd last = true := by
        have first := List.head_dropWhile_not isLineEnd (l := piece.reverse) (by rw [head]; exact List.cons_ne_nil _ _)
        simp only [head, List.head_cons] at first
        rw [first]
        decide
      exact not_or.mp (mt is_line_end_iff.mpr stays)

/-- The lines of a text are those of the function that finds them. The relation says what lines are without saying how
they are found. -/
theorem has_lines_iff {text : Text} {lines : List Text} : HasLines text lines ↔ text.lines = lines := by
  have related (pieces : List Text) : List.Forall₂ Trimmed pieces lines ↔ pieces.map (trimRight isLineEnd) = lines := by
    rw [← List.forall₂_eq_eq_eq, List.forall₂_map_left_iff]
    constructor
    · exact List.Forall₂.imp fun _ _ => trimmed_iff.mp
    · exact List.Forall₂.imp fun _ _ => trimmed_iff.mpr
  constructor
  · rintro ⟨pieces, cut, trimmed⟩
    rw [Text.lines, cut.pieces_eq]
    exact (related pieces).mp trimmed
  · intro found
    exact ⟨text.pieces, cut_pieces text, (related text.pieces).mpr found⟩

/-! ## The value of a line -/

/-- The value that is read from a line: zero from the empty one, otherwise the code point of its first character, and
that of the replacement character where no character begins. -/
inductive Reads : Text → Cell → Prop
  | empty : Reads [] 0
  | character {first : Char} {rest : Text} {value : Cell} : value.toInt = first.toNat → Reads (ofChar first ++ rest) value
  | invalid {line : Text} : line ≠ [] → (∀ first rest, line ≠ ofChar first ++ rest) → Reads line 0xFFFD

/-- A code point is a cell. The greatest one is far below the greatest cell, so that no value is cut off. -/
theorem point_to_int (character : Char) : (Int32.ofInt character.toNat).toInt = character.toNat := by
  have bound : character.toNat < 0x110000 := by
    have valid := character.valid
    rw [UInt32.isValidChar, Nat.isValidChar] at valid
    exact by
      change character.val.toNat < _
      omega
  apply Int32.toInt_ofInt_of_le
  · have negative : (-2 ^ 31 : Int) ≤ 0 := by decide
    omega
  · have large : (0x110000 : Int) ≤ 2 ^ 31 := by decide
    omega

/-- The value of a line is that of its first glyph. If the first bytes are no character, this is the replacement
character, and the rest of the line is not looked at. -/
theorem reads_first_character (line : Text) : Reads line (Int32.ofInt (Input.firstCharacter line)) := by
  cases line with
  | nil => exact .empty
  | cons lead rest =>
    obtain ⟨tail, starts⟩ := starts_with_glyph lead rest
    have value : Input.firstCharacter (lead :: rest) = (glyphAt lead rest).value.toNat := rfl
    rw [value]
    cases first : glyphAt lead rest with
    | char character =>
      rw [first] at starts
      rw [starts]
      exact .character (point_to_int character)
    | stray byte cut =>
      apply Reads.invalid (List.cons_ne_nil _ _)
      intro character behind same
      have glyphs : glyphs (lead :: rest) = .char character :: glyphs behind := by
        rw [same, glyphs_of_char_append]
      have own : glyphAt lead rest = .char character := (List.cons.inj glyphs).1
      rw [first] at own
      cases own

end Text

/-! ## Histories -/

/-- Something that concerns the input of a machine: a text is pushed, or an instruction reads a value. -/
inductive Exchange where
  | pushed (text : Text)
  | read (value : Cell)
  deriving DecidableEq

/-- The text that is pushed. -/
def Exchange.text? : Exchange → Option Text
  | pushed text => some text
  | read _ => none

/-- The texts that were pushed, the oldest first. -/
def pushedTexts (history : List Exchange) : List Text := history.filterMap Exchange.text?

/-- A line that was delivered, with the number of its text, counted from zero in the order of pushing. -/
structure Delivery where
  text : Nat
  line : Text

/-- The lines that a text has delivered, in this order. -/
def delivered (deliveries : List Delivery) (number : Nat) : List Text :=
  deliveries.filterMap fun delivery => if delivery.text = number then some delivery.line else none

/-- A text has delivered all of its lines. -/
def Exhausted (texts : List Text) (deliveries : List Delivery) (number : Nat) : Prop :=
  ∀ text, texts[number]? = some text → delivered deliveries number = text.lines

/-- Which line each read of a history takes: the next one of the newest text that is not exhausted. -/
inductive Accounts : List Exchange → List Delivery → Prop
  | start : Accounts [] []
  | pushed {history : List Exchange} {deliveries : List Delivery} (text : Text) :
      Accounts history deliveries → Accounts (history ++ [.pushed text]) deliveries
  | line {history : List Exchange} {deliveries : List Delivery} {number : Nat} {text line : Text} {later : List Text}
      {value : Cell} : Accounts history deliveries →
      (pushedTexts history)[number]? = some text → text.lines = delivered deliveries number ++ line :: later →
      (∀ newer, number < newer → Exhausted (pushedTexts history) deliveries newer) → line.Reads value →
      Accounts (history ++ [.read value]) (deliveries ++ [{ text := number, line }])
  | ended {history : List Exchange} {deliveries : List Delivery} : Accounts history deliveries →
      (∀ number, Exhausted (pushedTexts history) deliveries number) → Accounts (history ++ [.read 0]) deliveries

/-- A push adds its text behind those that were pushed before, so that numbers stay what they are. -/
theorem pushed_texts_push (history : List Exchange) (text : Text) :
    pushedTexts (history ++ [.pushed text]) = pushedTexts history ++ [text] := List.filterMap_append

/-- A read pushes nothing. -/
theorem pushed_texts_read (history : List Exchange) (value : Cell) :
    pushedTexts (history ++ [.read value]) = pushedTexts history := by
  rw [pushedTexts, List.filterMap_append]
  exact List.append_nil _

/-- A history of a machine, starting without input. An instruction reads in a frame, which is the innermost one or none of
the machine's. Whatever leaves the input as it is may happen in between. -/
inductive Machine.Fed : List Exchange → Machine → Prop
  | start {machine : Machine} : machine.input = [] → Fed [] machine
  | push {history : List Exchange} {machine : Machine} (text : Text) : Fed history machine →
      Fed (history ++ [.pushed text]) (machine.pushInput (.ofText text))
  | read {history : List Exchange} {machine : Machine} {frame : Frame} {callers : List Frame} {instruction : Instruction}
      {value : Cell} : Fed history machine → instruction.opcode = .input →
      (machine.executeIn frame callers instruction).state.frames = frame.push value :: callers →
      Fed (history ++ [.read value]) (machine.executeIn frame callers instruction).state
  | keep {history : List Exchange} {machine after : Machine} : Fed history machine → after.input = machine.input →
      Fed history after

/-! ## What the stack of sources holds -/

/-- For each text that was pushed there is a source with the lines that it has not delivered, or it is exhausted. -/
inductive Holds (deliveries : List Delivery) : List Text → Input → Prop
  | empty : Holds deliveries [] []
  | source {texts : List Text} {older : Input} {text : Text} {lines : List Text} : Holds deliveries texts older →
      text.lines = delivered deliveries texts.length ++ lines → Holds deliveries (texts ++ [text]) ({ lines } :: older)
  | dropped {texts : List Text} {older : Input} {text : Text} : Holds deliveries texts older →
      delivered deliveries texts.length = text.lines → Holds deliveries (texts ++ [text]) older

/-- A read takes the line that it should take, and what is left is in order again. -/
inductive Taken (deliveries : List Delivery) (texts : List Text) : Option Text → Input → Prop
  | line {number : Nat} {text line : Text} {later : List Text} {rest : Input} :
      texts[number]? = some text → text.lines = delivered deliveries number ++ line :: later →
      (∀ newer, number < newer → Exhausted texts deliveries newer) →
      Holds (deliveries ++ [{ text := number, line }]) texts rest → Taken deliveries texts (some line) rest
  | ended {rest : Input} : (∀ number, Exhausted texts deliveries number) → Holds deliveries texts rest →
      Taken deliveries texts none rest

section Deliveries

variable {deliveries : List Delivery} {texts : List Text} {input : Input} {text : Text}

/-- A delivery concerns its own text, behind what that text has delivered before. -/
theorem delivered_snoc (number : Nat) (line : Text) :
    delivered (deliveries ++ [{ text := number, line }]) number = delivered deliveries number ++ [line] := by
  rw [delivered, List.filterMap_append, ← delivered]
  simp only [List.filterMap_cons, List.filterMap_nil, if_pos]

/-- A delivery does not concern other texts. -/
theorem delivered_other {number other : Nat} (apart : number ≠ other) (line : Text) :
    delivered (deliveries ++ [{ text := number, line }]) other = delivered deliveries other := by
  rw [delivered, List.filterMap_append, ← delivered]
  simp only [List.filterMap_cons, List.filterMap_nil, if_neg apart, List.append_nil]

/-- A text that was not pushed yet has delivered nothing. When it is pushed, all of its lines are still to come. -/
theorem Accounts.delivered_nil {history : List Exchange} (accounts : Accounts history deliveries) {number : Nat}
    (later : (pushedTexts history).length ≤ number) : delivered deliveries number = [] := by
  induction accounts with
  | start => rfl
  | pushed text _ ih =>
    rw [pushed_texts_push, List.length_append] at later
    exact ih (Nat.le_of_add_right_le later)
  | line _ place _ _ _ ih =>
    rw [pushed_texts_read] at later
    have before := (List.getElem?_eq_some_iff.mp place).1
    rw [delivered_other (by omega), ih later]
  | ended _ _ ih =>
    rw [pushed_texts_read] at later
    exact ih later

/-- The text at a place, after another was pushed: it is the new one at the last place, and an older one at any
other. -/
theorem pushed_at_iff {number : Nat} {found : Text} : (texts ++ [text])[number]? = some found ↔
    texts[number]? = some found ∨ number = texts.length ∧ text = found := by
  rcases Nat.lt_trichotomy number texts.length with before | here | behind
  · rw [List.getElem?_append_left before]
    constructor
    · exact .inl
    · rintro (older | ⟨same, _⟩)
      · exact older
      · omega
  · rw [here, List.getElem?_concat_length, List.getElem?_eq_none (Nat.le_refl _)]
    simp
  · rw [List.getElem?_eq_none (by rw [List.length_append, List.length_singleton]; omega),
      List.getElem?_eq_none (Nat.le_of_lt behind)]
    constructor
    · intro impossible
      cases impossible
    · rintro (impossible | ⟨same, _⟩)
      · cases impossible
      · omega

/-- All texts are exhausted exactly if the newest is and all older ones are. Reads go from the newest text to the
oldest in this way. -/
theorem exhausted_snoc_iff : (∀ number, Exhausted (texts ++ [text]) deliveries number) ↔
    (∀ number, Exhausted texts deliveries number) ∧ delivered deliveries texts.length = text.lines := by
  constructor
  · intro all
    constructor
    · intro number found place
      exact all number found (pushed_at_iff.mpr (.inl place))
    · exact all texts.length text (pushed_at_iff.mpr (.inr ⟨rfl, rfl⟩))
  · rintro ⟨older, newest⟩ number found place
    rcases pushed_at_iff.mp place with before | ⟨rfl, rfl⟩
    · exact older number found before
    · exact newest

/-- Nothing but the deliveries of its own texts matters to a stack. What lies below the newest source is therefore not
disturbed by what that source delivers. -/
theorem Holds.congr {others : List Delivery} (holds : Holds deliveries texts input)
    (same : ∀ number < texts.length, delivered others number = delivered deliveries number) :
    Holds others texts input := by
  induction holds with
  | empty => exact .empty
  | @source texts older text lines _ parts ih =>
    have shorter : texts.length < (texts ++ [text]).length := by simp
    apply Holds.source
    · exact ih fun number before => same number (Nat.lt_trans before shorter)
    · rw [same _ shorter, parts]
  | @dropped texts older text _ all ih =>
    have shorter : texts.length < (texts ++ [text]).length := by simp
    apply Holds.dropped
    · exact ih fun number before => same number (Nat.lt_trans before shorter)
    · rw [same _ shorter, all]

/-- A line of an older text is taken where the newest one is exhausted. It makes no difference whether the newest one
still has a source. -/
theorem Taken.older {line : Option Text} {rest : Input} (taken : Taken deliveries texts line rest)
    (newest : delivered deliveries texts.length = text.lines) : Taken deliveries (texts ++ [text]) line rest := by
  cases taken with
  | @line number found line later _ place parts newer holds =>
    have before : number < texts.length := (List.getElem?_eq_some_iff.mp place).1
    apply Taken.line (pushed_at_iff.mpr (.inl place)) parts
    · intro other above found place
      rcases pushed_at_iff.mp place with older | ⟨rfl, rfl⟩
      · exact newer other above found older
      · exact newest
    · apply Holds.dropped holds
      rw [delivered_other (Nat.ne_of_lt before), newest]
  | ended all holds => exact .ended (exhausted_snoc_iff.mpr ⟨all, newest⟩) (.dropped holds newest)

/-- A read takes the line that it should take. Sources without lines are dropped on the way to it; the induction goes
down the stack. -/
theorem Holds.read (holds : Holds deliveries texts input) :
    ∃ line rest, input.readLine = (.ok line, rest) ∧ Taken deliveries texts line rest := by
  induction holds with
  | empty => exact ⟨none, [], rfl, .ended (fun number text place => by cases place) .empty⟩
  | @source texts older text lines below parts ih =>
    cases lines with
    | nil =>
      obtain ⟨line, rest, result, taken⟩ := ih
      rw [List.append_nil] at parts
      exact ⟨line, rest, result, taken.older parts.symm⟩
    | cons line later =>
      refine ⟨some line, { lines := later } :: older, rfl, ?_⟩
      apply Taken.line (pushed_at_iff.mpr (.inr ⟨rfl, rfl⟩)) parts
      · intro newer above found place
        rcases pushed_at_iff.mp place with before | ⟨same, _⟩
        · have bound := (List.getElem?_eq_some_iff.mp before).1
          omega
        · omega
      · apply Holds.source
        · exact below.congr fun number before => delivered_other (Nat.ne_of_gt before) line
        · rw [delivered_snoc, List.append_assoc, parts]
          rfl
  | dropped below all ih =>
    obtain ⟨line, rest, result, taken⟩ := ih
    exact ⟨line, rest, result, taken.older all⟩

/-- What a text has delivered is the beginning of its lines, so that no line is skipped or taken twice. -/
theorem Holds.in_order (holds : Holds deliveries texts input) {number : Nat} {text : Text}
    (place : texts[number]? = some text) : delivered deliveries number <+: text.lines := by
  induction holds with
  | empty => cases place
  | source below parts ih =>
    rcases pushed_at_iff.mp place with before | ⟨rfl, rfl⟩
    · exact ih before
    · exact ⟨_, parts.symm⟩
  | dropped below all ih =>
    rcases pushed_at_iff.mp place with before | ⟨rfl, rfl⟩
    · exact ih before
    · exact all ▸ List.prefix_refl _

end Deliveries

/-- The lines that are left, in the order in which they are read. -/
def Input.remaining (input : Input) : List Text := input.flatMap LineSource.lines

/-- No lines are left exactly when all texts are exhausted. Sources without lines may still be there. -/
theorem Holds.remaining_nil_iff {deliveries : List Delivery} {texts : List Text} {input : Input}
    (holds : Holds deliveries texts input) : input.remaining = [] ↔ ∀ number, Exhausted texts deliveries number := by
  induction holds with
  | empty =>
    constructor
    · intro _ number text place
      cases place
    · intro _
      rfl
  | @source texts older text lines below parts ih =>
    rw [exhausted_snoc_iff, ← ih, Input.remaining, List.flatMap_cons, List.append_eq_nil_iff, ← Input.remaining, parts,
      List.self_eq_append_right, and_comm]
  | dropped below all ih =>
    rw [exhausted_snoc_iff, ih]
    exact (and_iff_left all).symm

namespace Machine

/-- An instruction that reads completes where the input gives a line or its end. At the end it reads a zero, like from
an empty line. -/
theorem execute_in_reads {machine : Machine} {instruction : Instruction} {line : Option Text} {rest : Input}
    (reads : instruction.opcode = .input) (result : machine.input.readLine = (.ok line, rest)) (frame : Frame)
    (callers : List Frame) : machine.executeIn frame callers instruction = { state := { machine with
      input := rest
      frames := frame.push (Int32.ofInt (Input.firstCharacter (line.getD []))) :: callers } } := by
  have value : machine.input.readValue = (.ok (Input.firstCharacter (line.getD [])), rest) := by
    rw [Input.readValue, result]
  rw [executeIn, reads]
  dsimp only
  rw [value]
  rfl

section Fed

variable {history : List Exchange} {machine : Machine}

/-- The history of a machine settles which lines were delivered, and its sources hold the others. This is the
invariant, and the induction is on the history. -/
theorem Fed.holds (fed : Fed history machine) :
    ∃ deliveries, Accounts history deliveries ∧ Holds deliveries (pushedTexts history) machine.input := by
  induction fed with
  | start none => exact ⟨[], .start, none ▸ .empty⟩
  | @push history machine text _ ih =>
    obtain ⟨deliveries, accounts, holds⟩ := ih
    refine ⟨deliveries, .pushed text accounts, ?_⟩
    rw [pushed_texts_push]
    apply Holds.source holds
    rw [accounts.delivered_nil (Nat.le_refl _)]
    rfl
  | @read history machine frame callers instruction value _ reads pushes ih =>
    obtain ⟨deliveries, accounts, holds⟩ := ih
    obtain ⟨line, rest, result, taken⟩ := holds.read
    rw [execute_in_reads reads result] at pushes ⊢
    have read : Int32.ofInt (Input.firstCharacter (line.getD [])) = value :=
      (List.cons.inj (congrArg Frame.stack (List.cons.inj pushes).1)).1
    rw [pushed_texts_read]
    cases taken with
    | line place parts newer holds =>
      exact ⟨_, .line accounts place parts newer (read ▸ Text.reads_first_character _), holds⟩
    | ended all holds => exact ⟨deliveries, read ▸ .ended accounts all, holds⟩
  | keep _ same ih => exact same ▸ ih

/-- An instruction that reads always completes, and its frame has received a value then. Sources made from texts end
without a failure. -/
theorem Fed.reads (fed : Fed history machine) {instruction : Instruction} (reads : instruction.opcode = .input)
    (frame : Frame) (callers : List Frame) :
    ∃ value, (machine.executeIn frame callers instruction).trap = none ∧
      (machine.executeIn frame callers instruction).state.frames = frame.push value :: callers ∧
      Fed (history ++ [.read value]) (machine.executeIn frame callers instruction).state := by
  obtain ⟨deliveries, _, holds⟩ := fed.holds
  obtain ⟨line, rest, result, _⟩ := holds.read
  have outcome := execute_in_reads reads result frame callers
  have pushes := congrArg (fun outcome : Outcome Machine => outcome.state.frames) outcome
  exact ⟨_, congrArg Outcome.trap outcome, pushes, .read fed reads pushes⟩

/-- Reading in the innermost frame. The record and the count of instructions do not concern the input. -/
theorem Fed.execute_reads (fed : Fed history machine) {frame : Frame} {callers : List Frame}
    (frames : machine.frames = frame :: callers) {instruction : Instruction} (reads : instruction.opcode = .input) :
    ∃ value, (machine.execute instruction).trap = none ∧
      (machine.execute instruction).state.frames = frame.push value :: callers ∧
      Fed (history ++ [.read value]) (machine.execute instruction).state := by
  obtain ⟨journal, traced⟩ := machine.trace_eq frame instruction
  have again : Fed history { machine with journal } := .keep fed rfl
  obtain ⟨value, completes, pushes, later⟩ := again.reads reads frame callers
  refine ⟨value, ?_⟩
  rw [execute, frames]
  dsimp only
  rw [traced, count, completes]
  exact ⟨rfl, pushes, .keep later rfl⟩

/-- Reading in a frame that is none of the machine's, as somebody who looks at a machine may do. -/
theorem Fed.execute_apart_reads (fed : Fed history machine) (frame : Frame) {instruction : Instruction}
    (reads : instruction.opcode = .input) : ∃ value, (machine.executeApart frame instruction).trap = none ∧
      Fed (history ++ [.read value]) (machine.executeApart frame instruction).state := by
  obtain ⟨journal, traced⟩ := machine.trace_eq frame instruction
  have again : Fed history { machine with journal } := .keep fed rfl
  obtain ⟨value, completes, _, later⟩ := again.reads reads frame machine.frames
  refine ⟨value, ?_⟩
  rw [executeApart, traced]
  dsimp only
  rw [count]
  dsimp only
  rw [completes]
  exact ⟨rfl, .keep later rfl⟩

/-- A machine that nothing happens to goes on with its history. -/
theorem Fed.unchanged (fed : Fed history machine) : ∃ later, Fed (history ++ later) machine :=
  ⟨[], (List.append_nil history).symm ▸ fed⟩

/-- Every instruction goes on with the history of its machine: one of them reads, and all others leave the input
alone. -/
theorem Fed.execute (fed : Fed history machine) (instruction : Instruction) :
    ∃ later, Fed (history ++ later) (machine.execute instruction).state := by
  cases frames : machine.frames with
  | nil =>
    rw [Machine.execute, frames]
    exact fed.unchanged
  | cons frame callers =>
    by_cases reads : instruction.opcode = .input
    · obtain ⟨value, _, _, later⟩ := fed.execute_reads frames reads
      exact ⟨_, later⟩
    · have unread : (machine.execute instruction).state.input = machine.input :=
        (execute_devices frames instruction).1.trans (if_neg reads)
      exact (fed.keep unread).unchanged

/-- A hook that goes on with the history of every machine: it may push texts, and execute instructions. -/
def Feeds {State : Type} (hook : Hook State) : Prop :=
  ∀ {history machine} state, Fed history machine → ∃ later, Fed (history ++ later) (hook state machine).machine

/-- No hook at all goes on with the history, as it leaves the machine as it is. -/
theorem no_hook_feeds : Feeds noHook := by
  intro history machine _ fed
  exact fed.unchanged

/-- A run goes on with the history of its machine. The induction is on the fuel, and the hook may add to the history
before each instruction. -/
theorem Fed.loop {State : Type} {hook : Hook State} (feeds : Feeds hook) (fuel : Nat) (state : State)
    (fed : Fed history machine) : ∃ later, Fed (history ++ later) (loop hook fuel state machine).machine := by
  induction fuel generalizing history state machine with
  | zero => exact fed.unchanged
  | succ fuel ih =>
    rw [Machine.loop]
    cases phase : machine.next with
    | «over» => exact fed.unchanged
    | left after => exact ih state (.keep fed (left_devices phase).1)
    | ready reached instruction =>
      have fed : Fed history reached := .keep fed (ready_devices phase).1
      obtain ⟨asked, fed⟩ := feeds state fed
      dsimp only
      cases (hook state reached).verdict with
      | stop reason => exact ⟨asked, fed⟩
      | trap trap => exact ⟨asked, fed⟩
      | skip =>
        obtain ⟨later, fed⟩ := ih (hook state reached).state fed
        exact ⟨asked ++ later, List.append_assoc .. ▸ fed⟩
      | proceed =>
        obtain ⟨own, fed⟩ := fed.execute instruction
        dsimp only
        cases ((hook state reached).machine.execute instruction).trap with
        | some trap => exact ⟨asked ++ own, List.append_assoc .. ▸ fed⟩
        | none =>
          obtain ⟨later, fed⟩ := ih (hook state reached).state fed
          exact ⟨asked ++ (own ++ later), by simpa only [List.append_assoc] using fed⟩

/-- A whole run goes on with the history of its machine. It starts with new frames but with the input that there
is. -/
theorem Fed.run {State : Type} {hook : Hook State} (feeds : Feeds hook) (fuel : Nat) (state : State)
    (fed : Fed history machine) : ∃ later, Fed (history ++ later) (machine.run hook fuel state).machine := by
  rw [Machine.run]
  by_cases starts : machine.program.main?.isSome = true
  · rw [if_pos starts]
    have restarted : Fed history machine.restart := .keep fed rfl
    obtain ⟨later, fed⟩ := restarted.loop feeds fuel state
    exact ⟨later, .keep fed rfl⟩
  · rw [if_neg starts]
    obtain ⟨later, fed⟩ := fed.unchanged
    exact ⟨later, .keep fed rfl⟩

end Fed

end Machine

/-- Texts are pushed and lines read in any order, and nothing is lost or repeated. The deliveries of a history say
which line each read took; each text has delivered the beginning of its lines, and all of them once no source has a
line left. An instruction that reads always completes and puts its value on the stack, and every run goes on with the
history. -/
theorem pushed_lines_delivered_once {history : List Exchange} {machine : Machine} (fed : machine.Fed history) :
    (∀ (text : Text) (lines : List Text), text.HasLines lines ↔ text.lines = lines) ∧
      (∃ deliveries, Accounts history deliveries ∧
        (∀ (number : Nat) (text : Text), (pushedTexts history)[number]? = some text →
          delivered deliveries number <+: text.lines) ∧
        (machine.input.remaining = [] ↔ ∀ number, Exhausted (pushedTexts history) deliveries number)) ∧
      (∀ frame callers instruction, machine.frames = frame :: callers → instruction.opcode = .input →
        ∃ value, (machine.execute instruction).trap = none ∧
          (machine.execute instruction).state.frames = frame.push value :: callers ∧
          (machine.execute instruction).state.Fed (history ++ [.read value])) ∧
      (∀ frame instruction, instruction.opcode = .input →
        ∃ value, (machine.executeApart frame instruction).trap = none ∧
          (machine.executeApart frame instruction).state.Fed (history ++ [.read value])) ∧
      ∀ (State : Type) (hook : Hook State), Machine.Feeds hook → ∀ fuel state,
        ∃ later, (machine.run hook fuel state).machine.Fed (history ++ later) := by
  obtain ⟨deliveries, accounts, holds⟩ := fed.holds
  refine ⟨fun _ _ => Text.has_lines_iff, ⟨deliveries, accounts, ?_, holds.remaining_nil_iff⟩, ?_, ?_, ?_⟩
  · intro number text place
    exact holds.in_order place
  · intro frame callers instruction frames reads
    exact fed.execute_reads frames reads
  · intro frame instruction reads
    exact fed.execute_apart_reads frame reads
  · intro State hook feeds fuel state
    exact fed.run feeds fuel state

/-- A text is pushed onto a half-read one and another onto a used-up one. The lines end in different ways, and one of them is
no character. -/
def interleaved : List Exchange :=
  [.pushed "ab\r\n\ncd", .read 0x61, .pushed "é\n", .read 0xE9, .pushed [0xFF, 0x0D, 0x0D, 0x0A], .read 0xFFFD,
    .read 0, .read 0x63, .read 0]

/-- A frame with an empty stack. -/
def emptyFrame : Frame := .enter default (-1) []

/-- A machine after a read in a frame with an empty stack. -/
def Machine.afterRead (machine : Machine) : Machine :=
  (machine.executeIn emptyFrame [] { opcode := .input }).state

/-- All lines of the three texts are delivered, each text in its own order, and a run goes on from there. The last
read finds no line. -/
theorem interleaved_delivered : ∃ machine deliveries later, Machine.Fed interleaved machine ∧
    Accounts interleaved deliveries ∧ delivered deliveries 0 = [("ab" : Text), "", "cd"] ∧
    delivered deliveries 1 = [("é" : Text)] ∧ delivered deliveries 2 = [[0xFF]] ∧
    (machine.run Machine.noHook 9 ()).machine.Fed (interleaved ++ later) := by
  have read {history : List Exchange} {machine : Machine} (value : Cell) (fed : machine.Fed history)
      (pushes : machine.afterRead.frames = [emptyFrame.push value]) : machine.afterRead.Fed (history ++ [.read value]) :=
    .read fed rfl pushes
  have start : Machine.Fed [] { program := default } := .start rfl
  have half := read 0x61 (start.push "ab\r\n\ncd") (by decide +kernel)
  have used := read 0xE9 (half.push "é\n") (by decide +kernel)
  have stray := read 0xFFFD (used.push [0xFF, 0x0D, 0x0D, 0x0A]) (by decide +kernel)
  have empty := read 0 stray (by decide +kernel)
  have last := read 0x63 empty (by decide +kernel)
  have fed : Machine.Fed interleaved _ := read 0 last (by decide +kernel)
  obtain ⟨-, ⟨deliveries, accounts, -, ended⟩, -, -, runs⟩ := pushed_lines_delivered_once fed
  have exhausted := ended.mp (by decide +kernel)
  obtain ⟨later, goesOn⟩ := runs Unit Machine.noHook Machine.no_hook_feeds 9 ()
  exact ⟨_, deliveries, later, fed, accounts, exhausted 0 _ rfl, exhausted 1 _ rfl, exhausted 2 _ rfl, goesOn⟩

end IntegerMachine
