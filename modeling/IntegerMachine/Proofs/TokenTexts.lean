import IntegerMachine.Proofs.Folding
import IntegerMachine.Proofs.ParseTree

/-!
# Texts of tokens

A source that is read without complaints has no tokens but those whose marks are legible: characters other than NUL. A
stray byte or a NUL is complained about when it is read, and every mark of a token is read: the first one before the
token starts, and the others on the way to its end. Such tokens are UTF-8, and none but words are names. Names are UTF-8
in any case, since no stray byte counts as a letter.

The reader is one mark ahead. The induction over the marks therefore carries that the marks of the current item and
the one behind them were read without complaints.
-/
namespace IntegerMachine

namespace Source

/-! ## Marks -/

/-- Marks that were read without complaints. -/
def Silent (marks : List Mark) : Prop := ∀ mark ∈ marks, mark.complaints = []

/-- A mark is a character other than NUL. -/
def Mark.Legible (mark : Mark) : Prop := mark.glyph.isChar = true ∧ mark.character.toNat ≠ 0

/-- Marks of which only legible ones are read without complaints. -/
def Telling (marks : List Mark) : Prop := ∀ mark ∈ marks, mark.complaints = [] → mark.Legible

/-- A stray byte and a NUL are always complained about. A failure of the device may be complained about too, which
does no harm here. -/
theorem marks_from_telling (failure : Option Text) (previous position : Position) (glyphs : List Glyph) :
    Telling (marksFrom failure previous position glyphs) := by
  induction glyphs generalizing previous position with
  | nil => simp [Telling, marksFrom]
  | cons glyph rest ih =>
    refine List.forall_mem_cons.mpr ⟨?_, ih position (position.after glyph)⟩
    cases glyph with
    | char character =>
      intro quiet
      refine ⟨rfl, fun (isNul : character.toNat = 0) => ?_⟩
      simp [complaintsOf, isNul] at quiet
    | stray byte cut => simp [complaintsOf]

/-- The text of marks that are characters is the encoding of the characters. A stray byte would be kept as it is, and
not be encoded. -/
theorem text_of_marks (marks : List Mark) (characters : ∀ mark ∈ marks, mark.glyph.isChar = true) :
    textOf marks = Text.ofCharacters (marks.map Mark.character) := by
  induction marks with
  | nil => rfl
  | cons mark rest ih =>
    rw [List.forall_mem_cons] at characters
    have bytes : mark.glyph.bytes = Text.ofChar mark.character := by
      cases glyph : mark.glyph with
      | char character => rw [Mark.character, glyph]; rfl
      | stray byte cut => simp [glyph, Glyph.isChar] at characters
    simp only [textOf, List.flatMap_cons, Text.ofCharacters, List.map_cons] at ih ⊢
    rw [bytes, ih characters.2]

/-- Marks up to a place are silent if the first one is and those behind it are. The first one has been read when its
complaints are known to be none. -/
theorem silent_take_succ (source : Source) (anchor : Option Position) (count : Nat) (marks : List Mark)
    (first : source.reading anchor marks = []) (others : Silent (marks.tail.take count)) :
    Silent (marks.take (count + 1)) := by
  cases marks with
  | nil => simp [Silent]
  | cons mark rest =>
    refine List.forall_mem_cons.mpr ⟨?_, others⟩
    simpa [reading, anchored] using first

/-- Going forward without complaints, the marks that are passed are silent. The one that the reader comes from is not
among them. -/
theorem advancing_silent (source : Source) (anchor : Option Position) (count : Nat) (marks : List Mark)
    (quiet : source.advancing anchor count marks = []) : Silent (marks.tail.take count) := by
  induction count generalizing marks with
  | zero => simp [Silent]
  | succ count ih =>
    obtain ⟨first, others⟩ := List.append_eq_nil_iff.mp quiet
    exact source.silent_take_succ anchor count marks.tail first (ih marks.tail others)

/-- The marks of a character literal that was read without complaints are silent. The induction follows the phases of
the literal, in each of which one mark is read. -/
theorem literal_rest_silent (source : Source) (anchor : Position) (phase : LiteralPhase) (count : Nat)
    (marks : List Mark) (quiet : (source.literalRest anchor phase count marks).complaints = []) :
    Silent (marks.tail.take (source.literalRest anchor phase count marks).length) := by
  fun_induction literalRest source anchor phase count marks with
  | case1 phase count => simp [Silent]
  | case2 phase count mark rest next continued ih =>
    obtain ⟨first, others⟩ := List.append_eq_nil_iff.mp quiet
    exact source.silent_take_succ anchor _ rest first (ih others)
  | case3 phase count mark rest =>
    obtain ⟨_, last⟩ := List.append_eq_nil_iff.mp quiet
    exact source.silent_take_succ anchor 0 rest last (by simp [Silent])
  | case4 phase count mark rest =>
    obtain ⟨_, last⟩ := List.append_eq_nil_iff.mp quiet
    exact source.silent_take_succ anchor 0 rest last (by simp [Silent])
  | case5 phase count mark rest _ _ _ _ _ _ ih =>
    obtain ⟨own, others⟩ := List.append_eq_nil_iff.mp quiet
    exact source.silent_take_succ anchor _ rest (List.append_eq_nil_iff.mp own).2 (ih others)
  | case6 phase count mark rest _ _ _ _ _ _ ih =>
    obtain ⟨own, others⟩ := List.append_eq_nil_iff.mp quiet
    exact source.silent_take_succ anchor _ rest (List.append_eq_nil_iff.mp own).2 (ih others)

/-- The marks of a lexeme that was read without complaints are silent, and so is the one behind it. The first mark is
left out: it was read before the lexeme started. -/
theorem lexeme_silent {source : Source} {first : Mark} {rest : List Mark} {kind : Lexeme} {stretch : Stretch}
    (taken : source.lexeme first rest = (kind, stretch)) (quiet : stretch.complaints = []) :
    Silent (rest.take (stretch.length + 1)) := by
  have advanced (length : Nat) (more : List SyntaxError)
      (quiet : source.advancing first.position (length + 1) (first :: rest) ++ more = []) :
      Silent (rest.take (length + 1)) :=
    source.advancing_silent first.position (length + 1) (first :: rest) (List.append_eq_nil_iff.mp quiet).1
  obtain rfl : (source.lexeme first rest).2 = stretch := congrArg Prod.snd taken
  clear taken
  revert quiet
  -- Character literals and comments that start with a semicolon are read in their own way; all others advance.
  fun_cases lexeme source first rest with
  | case2 =>
    intro quiet
    obtain ⟨own, others⟩ := List.append_eq_nil_iff.mp quiet
    exact source.silent_take_succ first.position _ rest own (source.literal_rest_silent first.position .plain 0 rest others)
  | case6 =>
    intro quiet
    obtain ⟨own, others⟩ := List.append_eq_nil_iff.mp quiet
    exact source.silent_take_succ first.position _ rest own (source.advancing_silent none _ rest others)
  | case1 | case3 | case4 | case5 | case7 => exact advanced _ _

/-! ## Items and lines -/

/-- All tokens of items have a property. -/
def Each (holds : Token → Prop) (items : List Item) : Prop := ∀ item ∈ items, ∀ token ∈ item.token, holds token

/-- All tokens with legible marks that are read without complaints have a property. -/
def Grants (source : Source) (holds : Token → Prop) : Prop :=
  ∀ first rest kind stretch, source.lexeme first rest = (.token kind, stretch) → stretch.complaints = [] →
    (∀ mark ∈ first :: rest.take stretch.length, mark.Legible) →
    holds { kind, text := textOf (first :: rest.take stretch.length), position := first.position }

/-- Items without complaints, behind marks that were read without complaints, have tokens with legible marks. It is
stated for any property that such tokens have, so that the induction is made once. -/
theorem items_after_each {source : Source} {holds : Token → Prop} (grants : source.Grants holds) (skipped : Nat)
    (anchor : Option Position) (marks : List Mark) (telling : Telling marks) (read : Silent (marks.take (skipped + 1)))
    (quiet : ∀ item ∈ source.itemsAfter skipped anchor marks, item.complaints = []) :
    Each holds (source.itemsAfter skipped anchor marks) := by
  fun_induction itemsAfter source skipped anchor marks with
  | case1 => simp [Each]
  | case2 anchor first rest remaining ih =>
    exact ih (List.forall_mem_cons.mp telling).2 (List.forall_mem_cons.mp read).2 quiet
  | case3 anchor first rest blank ih =>
    rw [List.forall_mem_cons] at quiet
    have next := source.silent_take_succ anchor 0 rest quiet.1 (by simp [Silent])
    refine List.forall_mem_cons.mpr ⟨by simp, ?_⟩
    exact ih (List.forall_mem_cons.mp telling).2 next quiet.2
  | case4 anchor first rest notBlank stretch kind text taken ih =>
    rw [List.forall_mem_cons] at quiet
    have behind := lexeme_silent taken quiet.1
    have silent : Silent (first :: rest.take stretch.length) := by
      refine List.forall_mem_cons.mpr ⟨(List.forall_mem_cons.mp read).1, fun mark member => ?_⟩
      exact behind mark (List.take_subset_take_left rest (Nat.le_succ _) member)
    have legible : ∀ mark ∈ first :: rest.take stretch.length, mark.Legible := by
      intro mark member
      have listed : mark ∈ first :: rest := List.take_subset (stretch.length + 1) (first :: rest) member
      exact telling mark listed (silent mark member)
    refine List.forall_mem_cons.mpr ⟨?_, ih (List.forall_mem_cons.mp telling).2 behind quiet.2⟩
    intro token isToken
    cases isToken
    exact grants first rest kind stretch taken quiet.1 legible
  | case5 anchor first rest notBlank stretch taken ih | case6 anchor first rest notBlank stretch taken ih =>
    rw [List.forall_mem_cons] at quiet
    have behind := lexeme_silent taken quiet.1
    exact List.forall_mem_cons.mpr ⟨by simp, ih (List.forall_mem_cons.mp telling).2 behind quiet.2⟩

/-- Items without complaints have tokens with legible marks. Nothing is skipped at the start of a source but a byte
order mark. -/
theorem items_each {source : Source} {holds : Token → Prop} (grants : source.Grants holds)
    (telling : Telling source.marks) (quiet : ∀ item ∈ source.items, item.complaints = []) :
    Each holds source.items := by
  have start (marks : List Mark) (first : source.reading none marks = []) : Silent (marks.take 1) :=
    source.silent_take_succ none 0 marks first (by simp [Silent])
  unfold items at quiet ⊢
  rw [List.forall_mem_cons] at quiet
  refine List.forall_mem_cons.mpr ⟨by simp, ?_⟩
  obtain ⟨first, quiet⟩ := quiet
  cases marks : source.marks with
  | nil => simp
  | cons mark rest =>
    rw [marks] at telling first quiet
    by_cases isOrderMark : mark.character = byteOrderMark
    · simp only [if_pos isOrderMark, List.forall_mem_cons] at quiet ⊢
      refine ⟨by simp, ?_⟩
      exact items_after_each grants 0 none rest (List.forall_mem_cons.mp telling).2 (start rest quiet.1) quiet.2
    · simp only [if_neg isOrderMark] at quiet ⊢
      exact items_after_each grants 0 none _ telling (start _ first) quiet

/-- Lines without complaints come from items without complaints. Gathering moves complaints to the line in which they
come up, and drops none. -/
theorem gather_quiet (complaints : List SyntaxError) (tokens : List Token) (items : List Item)
    (last : (gather complaints tokens items).complaints = [])
    (lines : ∀ line ∈ (gather complaints tokens items).lines, line.complaints = []) :
    complaints = [] ∧ ∀ item ∈ items, item.complaints = [] := by
  fun_induction gather complaints tokens items with
  | case1 complaints => exact ⟨last, by simp⟩
  | case2 complaints first rest => exact ⟨lines _ List.mem_cons_self, by simp⟩
  | case3 | case4 | case6 =>
    rename_i ih
    obtain ⟨own, others⟩ := ih last lines
    obtain ⟨before, item⟩ := List.append_eq_nil_iff.mp own
    exact ⟨before, List.forall_mem_cons.mpr ⟨item, others⟩⟩
  | case5 =>
    rename_i ih
    rw [List.forall_mem_cons] at lines
    obtain ⟨before, item⟩ := List.append_eq_nil_iff.mp lines.1
    exact ⟨before, List.forall_mem_cons.mpr ⟨item, (ih last lines.2).2⟩⟩

/-- Tokens of lines have a property if those of the items have. The tokens of the line that is begun already are among
the hypotheses. -/
theorem gather_each {holds : Token → Prop} (complaints : List SyntaxError) (tokens : List Token) (items : List Item)
    (before : ∀ token ∈ tokens, holds token) (each : Each holds items) :
    ∀ line ∈ (gather complaints tokens items).lines, ∀ token ∈ line.tokens, holds token := by
  fun_induction gather complaints tokens items with
  | case1 complaints => simp
  | case2 complaints first rest => exact List.forall_mem_singleton.mpr before
  | case3 complaints tokens item items _ _ ih => exact ih before (List.forall_mem_cons.mp each).2
  | case4 complaints item items _ token _ isNewline ih => exact ih before (List.forall_mem_cons.mp each).2
  | case5 complaints item items _ token _ isNewline first rest _ ih =>
    exact List.forall_mem_cons.mpr ⟨before, ih (by simp) (List.forall_mem_cons.mp each).2⟩
  | case6 complaints tokens item items _ token isToken _ ih =>
    rw [Each, List.forall_mem_cons] at each
    refine ih (List.forall_mem_append.mpr ⟨before, ?_⟩) each.2
    exact List.forall_mem_singleton.mpr (each.1 token isToken)

/-- Lines were read without complaints. -/
def Lines.Quiet (lines : Lines) : Prop := lines.complaints = [] ∧ ∀ line ∈ lines.lines, line.complaints = []

instance (lines : Lines) : Decidable lines.Quiet := inferInstanceAs (Decidable (_ ∧ _))

/-- The tokens of a text that was read without complaints have the properties of tokens with legible marks. This is
what the facts about texts and names below are derived from. -/
theorem supplied_each {text : Text} {failure : Option Text} {holds : Token → Prop}
    (grants : (ofText text failure).Grants holds) (quiet : (ofText text failure).lines.Quiet) (token : Token)
    (supplied : (ofText text failure).Supplies token) : holds token := by
  obtain ⟨line, listed, member⟩ := supplied
  have items := (gather_quiet [] [] _ quiet.1 quiet.2).2
  have each := items_each grants (marks_from_telling failure .start .start text.glyphs) items
  exact gather_each [] [] _ (by simp) each line listed token member

/-- Without syntax errors, all tokens of a text are UTF-8. A stray byte in a token would have been a syntax error; one
in a comment would have been too, but is not asked about. -/
theorem supplied_well_encoded (text : Text) (failure : Option Text) (file : Text)
    (faultless : ((ofText text failure).parse file).2 = []) (token : Token)
    (supplied : (ofText text failure).Supplies token) : token.text.isUtf8 = true := by
  have quiet := complaints_of_lines _ _ _ ((parse_faultless_iff file _).mp faultless).1
  have grants : (ofText text failure).Grants fun token => token.text.isUtf8 = true := by
    intro first rest kind stretch _ _ legible
    rw [text_of_marks _ fun mark member => (legible mark member).1]
    exact Text.of_characters_is_utf8 _
  exact supplied_each grants quiet token supplied

end Source

/-! ## Names -/

/-- A name is UTF-8: a stray byte stands for a character that is no letter, no digit and no underscore. -/
theorem name_well_encoded (text : Text) (named : isName text = true) : text.isUtf8 = true := by
  have characters : ∀ character ∈ text.characters,
      (character == '_' || isLetter character || isDecimalDigit character) = true := by
    unfold isName at named
    cases all : text.characters with
    | nil => simp
    | cons first rest =>
      simp only [all, Bool.and_eq_true, List.all_eq_true] at named
      exact List.forall_mem_cons.mpr ⟨by rw [named.1]; rfl, named.2⟩
  refine List.all_eq_true.mpr fun glyph member => ?_
  cases glyph with
  | char character => rfl
  | stray byte cut =>
    have replaced := characters replacement (List.mem_map.mpr ⟨_, member, rfl⟩)
    exact absurd replaced (by decide +kernel)

/-- The first character of a name is part of words. A token that starts like this is a word, and cannot be of another
kind. -/
theorem name_starts_word {first : Char} {rest : List Char} {text : Text} (characters : text.characters = first :: rest)
    (named : isName text = true) : Source.isWordCharacter first = true := by
  unfold isName at named
  rw [characters] at named
  simp only [Bool.and_eq_true, Bool.or_eq_true] at named
  unfold Source.isWordCharacter
  rcases named.1 with underscore | letter
  · simp [underscore]
  · simp [letter]

/-- In a text that was read without complaints, none but words are names. Tokens of other kinds start with a quote or
with a character that is no part of words. -/
theorem Source.supplied_name_word {text : Text} {failure : Option Text} (quiet : (ofText text failure).lines.Quiet)
    (token : Token) (supplied : (ofText text failure).Supplies token) (named : isName token.text = true) :
    token.kind = .word := by
  have grants : (ofText text failure).Grants fun token => isName token.text = true → token.kind = .word := by
    intro first rest kind stretch taken _ legible isNamed
    have begins : (textOf (first :: rest.take stretch.length)).characters =
        first.character :: (rest.take stretch.length).map Mark.character := by
      rw [text_of_marks _ fun mark member => (legible mark member).1, Text.characters_of_characters, List.map_cons]
    rw [lexeme, if_pos (name_starts_word begins isNamed)] at taken
    cases taken
    rfl
  exact supplied_each grants quiet token supplied named

end IntegerMachine
