import IntegerMachine.Proofs.Decoding
import IntegerMachine.Proofs.Scanning

/-!
# Marks at their places

A text without NULs and stray bytes is a list of characters, and its marks are these characters at places that are
counted from the start. When the marks behind some offset are pushed, they are the marks of the same characters, counted
from the pushed start.

A line feed is encoded by a byte that is part of no other encoding. So a text that is cut at such a byte is cut between
characters.
-/
namespace IntegerMachine

/-- The place with the offset grown by an amount, if it is not before the given one. -/
def Position.pushed (start amount : Nat) (position : Position) : Position :=
  { position with offset := if start ≤ position.offset then position.offset + amount else position.offset }

/-! ## Texts -/

namespace Text

/-- A line feed is encoded by its own byte, and that byte is in no other encoding. Bytes in longer encodings are above
ASCII. -/
theorem of_char_line_feed {character : Char} {before after : Text}
    (encoded : ofChar character = before ++ byte '\n' :: after) : before = [] ∧ character = '\n' ∧ after = [] := by
  -- The byte starts an encoding, so that nothing of the encoding stands before it.
  have inside : before.length < (ofChar character).length := by
    rw [encoded, List.length_append, List.length_cons]
    omega
  have starts : (ofChar character)[before.length].IsUTF8FirstByte := by
    rw [List.getElem_of_eq encoded inside, List.getElem_append_right (Nat.le_refl _)]
    simp only [Nat.sub_self, List.getElem_cons_zero]
    decide
  have none : before = [] := List.length_eq_zero_iff.mp (UInt8.isUTF8FirstByte_getElem_utf8EncodeChar.mp starts)
  rw [none, List.nil_append] at encoded
  have read := glyphs_of_char_append character []
  rw [encoded] at read
  have same : character = '\n' := (Glyph.char.inj (List.cons.inj read).1).symm
  rw [same] at encoded
  exact ⟨none, same, (List.cons.inj encoded).2.symm⟩

/-- Characters around a line feed byte are encoded on its two sides. The induction is on the characters in front of
it. -/
theorem split_line_feed {characters : List Char} {before after : Text}
    (encoded : ofCharacters characters = before ++ byte '\n' :: after) :
    ∃ earlier later, characters = earlier ++ '\n' :: later ∧ before = ofCharacters earlier ∧ after = ofCharacters later := by
  induction characters generalizing before with
  | nil => exact absurd encoded.symm (List.append_ne_nil_of_right_ne_nil _ (List.cons_ne_nil _ _))
  | cons character rest ih =>
    rw [ofCharacters, List.flatMap_cons] at encoded
    rcases List.append_eq_append_iff.mp encoded with ⟨middle, isBefore, isRest⟩ | ⟨middle, isFirst, isAfter⟩
    · obtain ⟨earlier, later, rfl, rfl, rfl⟩ := ih isRest
      exact ⟨character :: earlier, later, rfl, isBefore, rfl⟩
    · cases middle with
      | nil =>
        have atStart : ofCharacters rest = [] ++ byte '\n' :: after := isAfter.symm
        obtain ⟨earlier, later, rfl, none, rfl⟩ := ih atStart
        refine ⟨character :: earlier, later, rfl, ?_, rfl⟩
        rw [ofCharacters, List.flatMap_cons, ← ofCharacters, ← none, isFirst, List.append_nil, List.append_nil]
      | cons first middle =>
        obtain ⟨rfl, behind⟩ := List.cons.inj isAfter
        obtain ⟨rfl, rfl, rfl⟩ := of_char_line_feed isFirst
        exact ⟨[], rest, rfl, rfl, behind⟩

end Text

namespace Source

/-! ## Marks of characters -/

/-- A mark at another place. -/
def Mark.moved (move : Position → Position) (mark : Mark) : Mark := { mark with position := move mark.position }

/-- Marks stand one behind the other. -/
def Ordered (marks : List Mark) : Prop :=
  marks.Pairwise fun one other => one.position.offset < other.position.offset

/-- The marks of characters from a position on, where there is nothing to complain about. -/
def placed (position : Position) : List Char → List Mark
  | [] => []
  | character :: rest =>
    { glyph := .char character, position, complaints := [] } :: placed (position.after (.char character)) rest

/-- The place behind characters. -/
def behind (position : Position) (characters : List Char) : Position := endFrom position (characters.map Glyph.char)

/-- The place behind characters is the place behind the others, counted from behind the first. -/
theorem behind_cons (position : Position) (character : Char) (rest : List Char) :
    behind position (character :: rest) = behind (position.after (.char character)) rest := rfl

/-- Characters other than NUL are placed one after the other, with nothing to complain about. The place before them
matters to complaints only. -/
theorem marks_from_placed (previous position : Position) {characters : List Char}
    (legible : ∀ character ∈ characters, character.toNat ≠ 0) :
    marksFrom none previous position (characters.map Glyph.char) = placed position characters := by
  induction characters generalizing previous position with
  | nil => rfl
  | cons character rest ih =>
    rw [List.forall_mem_cons] at legible
    have quiet : complaintsOf none previous position (.char character) = [] := if_neg legible.1
    rw [List.map_cons, marksFrom, quiet, ih _ _ legible.2]
    rfl

/-- Characters behind others are placed from behind the others on. -/
theorem placed_append (position : Position) (before after : List Char) :
    placed position (before ++ after) = placed position before ++ placed (behind position before) after := by
  induction before generalizing position with
  | nil => rfl
  | cons character rest ih =>
    rw [List.cons_append, placed, ih]
    rfl

/-- Placed marks are silent, since they are made without complaints. -/
theorem placed_silent (position : Position) (characters : List Char) : Silent (placed position characters) := by
  induction characters generalizing position with
  | nil => simp [Silent, placed]
  | cons character rest ih => exact List.forall_mem_cons.mpr ⟨rfl, ih _⟩

/-- A placed mark is one of the characters. -/
theorem placed_character {position : Position} {characters : List Char} {mark : Mark}
    (member : mark ∈ placed position characters) : mark.character ∈ characters := by
  induction characters generalizing position with
  | nil => cases member
  | cons character rest ih =>
    rcases List.mem_cons.mp member with rfl | later
    · exact List.mem_cons_self
    · exact List.mem_cons_of_mem character (ih later)

/-- The offset behind a character grows by the number of bytes of its encoding. It counts bytes, whereas columns count
characters. -/
theorem offset_after (position : Position) (character : Char) :
    (position.after (.char character)).offset = position.offset + (Text.ofChar character).length := by
  rw [Position.after]
  split
  · rfl
  · rfl

/-- The offset behind characters grows by the length of their encoding. -/
theorem offset_behind (position : Position) (characters : List Char) :
    (behind position characters).offset = position.offset + (Text.ofCharacters characters).length := by
  induction characters generalizing position with
  | nil => rfl
  | cons character rest ih =>
    have encoded : Text.ofCharacters (character :: rest) = Text.ofChar character ++ Text.ofCharacters rest := rfl
    rw [behind_cons, ih, offset_after, encoded, List.length_append, Nat.add_assoc]

/-- Placed marks stand one behind the other, between the place of the first and the place behind the last one. Every
character has at least one byte, so that offsets grow. -/
theorem placed_ordered (position : Position) (characters : List Char) :
    Ordered (placed position characters) ∧ ∀ mark ∈ placed position characters,
      position.offset ≤ mark.position.offset ∧ mark.position.offset < (behind position characters).offset := by
  induction characters generalizing position with
  | nil => exact ⟨.nil, by simp [placed]⟩
  | cons character rest ih =>
    obtain ⟨ordered, bounded⟩ := ih (position.after (.char character))
    have filled : 0 < (Text.ofChar character).length := List.length_pos_iff.mpr (Text.bytes_ne_nil (.char character))
    have onward : position.offset < (position.after (.char character)).offset := by
      rw [offset_after]
      omega
    have last : (position.after (.char character)).offset ≤ (behind position (character :: rest)).offset := by
      rw [behind_cons, offset_behind]
      omega
    constructor
    · refine .cons ?_ ordered
      intro mark member
      exact Nat.lt_of_lt_of_le onward (bounded mark member).1
    · refine List.forall_mem_cons.mpr ⟨⟨Nat.le_refl _, Nat.lt_of_lt_of_le onward last⟩, ?_⟩
      intro mark member
      obtain ⟨lower, upper⟩ := bounded mark member
      exact ⟨Nat.le_trans (Nat.le_of_lt onward) lower, upper⟩

/-- Behind characters other than line feeds the line is the same, by induction on the characters. -/
theorem line_behind (position : Position) {characters : List Char} (within : ∀ character ∈ characters, character ≠ '\n') :
    (behind position characters).line = position.line := by
  induction characters generalizing position with
  | nil => rfl
  | cons character rest ih =>
    rw [List.forall_mem_cons] at within
    have sameLine : position.after (.char character) = _ := if_neg within.1
    rw [behind_cons, ih _ within.2, sameLine]

/-- A position that is pushed behind the given offset is pushed wherever it goes on. Pushing changes offsets only, and
lines and columns do not depend on them. -/
theorem pushed_after {start : Nat} (amount : Nat) {position : Position} (later : start ≤ position.offset) (glyph : Glyph) :
    (position.after glyph).pushed start amount = (position.pushed start amount).after glyph := by
  have further : start ≤ position.offset + glyph.bytes.length := Nat.le_add_right_of_le later
  by_cases isNewline : glyph.value = '\n'
  · simp only [Position.after, Position.pushed, if_pos isNewline, if_pos later, if_pos further, Nat.add_right_comm]
  · simp only [Position.after, Position.pushed, if_neg isNewline, if_pos later, if_pos further, Nat.add_right_comm]

/-- Marks that are pushed as a whole are placed from the pushed position on. They start at or behind the given offset,
so that all of them are pushed. -/
theorem placed_pushed {start : Nat} (amount : Nat) {position : Position} (later : start ≤ position.offset)
    (characters : List Char) :
    (placed position characters).map (Mark.moved (Position.pushed start amount)) =
      placed (position.pushed start amount) characters := by
  induction characters generalizing position with
  | nil => rfl
  | cons character rest ih =>
    have further : start ≤ (position.after (.char character)).offset := by
      rw [offset_after]
      omega
    rw [placed, List.map_cons, ih further, pushed_after amount later]
    rfl

/-- Marks in front of the given offset stay where they are: pushing asks for an offset that is not before it. -/
theorem pushed_before {start : Nat} (amount : Nat) {marks : List Mark}
    (earlier : ∀ mark ∈ marks, mark.position.offset < start) :
    marks.map (Mark.moved (Position.pushed start amount)) = marks := by
  have stays : ∀ mark ∈ marks, mark.moved (Position.pushed start amount) = id mark := by
    intro mark member
    have place : mark.position.pushed start amount = mark.position := by
      rw [Position.pushed, if_neg (Nat.not_le.mpr (earlier mark member))]
    rw [Mark.moved, place]
    rfl
  rw [List.map_congr_left stays, List.map_id]

/-- Pushed marks stand one behind the other if the marks do. Of two marks the later one is pushed if the earlier one
is. -/
theorem Ordered.pushed {marks : List Mark} (ordered : Ordered marks) (start amount : Nat) :
    Ordered (marks.map (Mark.moved (Position.pushed start amount))) := by
  apply List.pairwise_map.mpr
  apply ordered.imp
  intro one other before
  simp only [Mark.moved, Position.pushed]
  split
  · rw [if_pos (by omega)]
    omega
  · split
    · omega
    · exact before

/-- A text that is read without complaints is an encoding of characters other than NUL. Stray bytes and NULs are the
things that are complained about in texts. -/
theorem legible_of_silent {text : Text} (silent : Silent (ofText text).marks) :
    text.isUtf8 = true ∧ ∀ character ∈ text.characters, character.toNat ≠ 0 := by
  have glyphs : (ofText text).marks.map Mark.glyph = text.glyphs := marks_from_glyphs _ _ _ _
  have legible : ∀ mark ∈ (ofText text).marks, mark.Legible := by
    intro mark member
    exact marks_from_telling none .start .start text.glyphs mark member (silent mark member)
  constructor
  · rw [Text.isUtf8, ← glyphs, List.all_map, List.all_eq_true]
    intro mark member
    exact (legible mark member).1
  · rw [Text.characters, ← glyphs, List.map_map]
    exact List.forall_mem_map.mpr fun mark member => (legible mark member).2

/-- The marks of an encoding of characters other than NUL are the characters, placed from the start. -/
theorem marks_of_encoded {characters : List Char} (legible : ∀ character ∈ characters, character.toNat ≠ 0) :
    (ofText (.ofCharacters characters)).marks = placed .start characters := by
  change marksFrom none .start .start (Text.ofCharacters characters).glyphs = _
  rw [Text.glyphs_of_characters, marks_from_placed _ _ legible]

end Source

end IntegerMachine
