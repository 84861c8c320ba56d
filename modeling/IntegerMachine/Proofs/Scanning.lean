import IntegerMachine.Proofs.ParseGrammar

/-!
# Reading what was written

Words, character literals and punctuation that are written one after the other, with blanks where two words would
otherwise touch, are read as these tokens and without complaints. A text of lines that are written so is read line by
line.

Conversely, every word and every character literal of a source without complaints can be written again: a character
literal is read by its own marks alone, whatever stands behind it. Tokens stand in the order of their lines.
-/
namespace IntegerMachine

/-- The kind and the text of a token. -/
abbrev Shape := TokenKind × Text

/-- A token without its place. -/
def Token.shape (token : Token) : Shape := (token.kind, token.text)

/-- Encoded characters in front of a text are its first glyphs, whatever bytes the text has. -/
theorem Text.glyphs_of_characters_append (characters : List Char) (rest : Text) :
    (ofCharacters characters ++ rest).glyphs = characters.map Glyph.char ++ rest.glyphs := by
  induction characters with
  | nil => rfl
  | cons character others ih =>
    rw [ofCharacters, List.flatMap_cons, List.append_assoc, glyphs_of_char_append, ← ofCharacters, ih]
    rfl

namespace Source

/-! ## Character literals -/

/-- The rest of a character literal, from a phase on, up to and with the quote that closes it behind one character. -/
inductive Closes : LiteralPhase → Nat → List Char → Prop where
  | continued {phase next : LiteralPhase} {count : Nat} {character : Char} {rest : List Char}
      (goesOn : continueEscape phase character = some next) (closes : Closes next count rest) :
      Closes phase count (character :: rest)
  | quote {phase : LiteralPhase} {count : Nat} (ends : continueEscape phase '\'' = none)
      (complete : escapeComplete phase = true) (single : countEscape phase count = 1) : Closes phase count ['\'']
  | backslash {phase : LiteralPhase} {count : Nat} {rest : List Char} (ends : continueEscape phase '\\' = none)
      (complete : escapeComplete phase = true) (closes : Closes .escape (countEscape phase count) rest) :
      Closes phase count ('\\' :: rest)
  | plain {phase : LiteralPhase} {count : Nat} {character : Char} {rest : List Char}
      (ends : continueEscape phase character = none) (complete : escapeComplete phase = true)
      (notQuote : character ≠ '\'') (notNewline : character ≠ '\n') (notBackslash : character ≠ '\\')
      (closes : Closes .plain (countEscape phase count + 1) rest) : Closes phase count (character :: rest)

/-- A complaint that is not made says that its reason is not there. All complaints about literals are of this form. -/
theorem no_complaint {condition : Prop} [Decidable condition] {error : SyntaxError}
    (quiet : (if condition then [] else [error]) = []) : condition := by
  by_contra missing
  rw [if_neg missing] at quiet
  cases quiet

/-- A literal that was read without complaints closes. The induction follows the scanner, and each complaint that it
might have made excludes a case. -/
theorem literal_closes (source : Source) (anchor : Position) (phase : LiteralPhase) (count : Nat) (marks : List Mark)
    (quiet : (source.literalRest anchor phase count marks).complaints = []) :
    Closes phase count
      ((marks.take (source.literalRest anchor phase count marks).length).map Mark.character) := by
  fun_induction literalRest source anchor phase count marks with
  | case1 phase count =>
    obtain ⟨ended, _⟩ := List.append_eq_nil_iff.mp quiet
    simp [literalEnd] at ended
  | case2 phase count mark rest next goesOn ih =>
    obtain ⟨_, others⟩ := List.append_eq_nil_iff.mp quiet
    exact .continued goesOn (ih others)
  | case3 phase count mark rest ends broken total isQuote =>
    obtain ⟨own, _⟩ := List.append_eq_nil_iff.mp quiet
    obtain ⟨complete, ended⟩ := List.append_eq_nil_iff.mp own
    have single := no_complaint (List.append_eq_nil_iff.mp ended).2
    rw [List.take_succ_cons, List.take_zero, List.map_singleton, isQuote]
    rw [isQuote] at ends
    exact .quote ends (no_complaint complete) single
  | case4 phase count mark rest ends broken total notQuote isNewline =>
    obtain ⟨own, _⟩ := List.append_eq_nil_iff.mp quiet
    obtain ⟨_, ended⟩ := List.append_eq_nil_iff.mp own
    simp [literalEnd] at ended
  | case5 phase count mark rest ends broken total notQuote notNewline isBackslash ih =>
    obtain ⟨own, others⟩ := List.append_eq_nil_iff.mp quiet
    obtain ⟨complete, _⟩ := List.append_eq_nil_iff.mp own
    rw [Stretch.longer, List.take_succ_cons, List.map_cons, isBackslash]
    rw [isBackslash] at ends
    exact .backslash ends (no_complaint complete) (ih others)
  | case6 phase count mark rest ends broken total notQuote notNewline notBackslash ih =>
    obtain ⟨own, others⟩ := List.append_eq_nil_iff.mp quiet
    obtain ⟨complete, _⟩ := List.append_eq_nil_iff.mp own
    exact .plain ends (no_complaint complete) notQuote notNewline notBackslash (ih others)

/-- The digits of an escape are hexadecimal at most. -/
def LiteralPhase.Bounded : LiteralPhase → Prop
  | .digits base _ => base ≤ 16
  | _ => True

/-- A newline continues no escape, and what continues one keeps the bound on its digits. Without the bound a newline
might count as a digit. -/
theorem continue_bounded {phase next : LiteralPhase} {character : Char} (bounded : phase.Bounded)
    (goesOn : continueEscape phase character = some next) : character ≠ '\n' ∧ next.Bounded := by
  cases phase with
  | plain => cases goesOn
  | escape =>
    constructor
    · rintro rfl
      exact absurd goesOn (by simp [continueEscape, escapePhase, digitValue])
    · simp only [continueEscape, escapePhase] at goesOn
      split_ifs at goesOn <;> cases goesOn <;> simp [LiteralPhase.Bounded]
  | digits base remaining =>
    cases remaining with
    | zero => cases goesOn
    | succ left =>
      simp only [continueEscape, Option.ite_none_right_eq_some] at goesOn
      obtain ⟨isDigit, same⟩ := goesOn
      cases same
      constructor
      · rintro rfl
        have value : digitValue '\n' = 16 := by decide
        rw [value] at isDigit
        exact absurd bounded (Nat.not_le.mpr isDigit)
      · exact bounded

/-- There is no newline in a literal that closes: it would end the literal, and it continues no escape. -/
theorem Closes.no_newline {phase : LiteralPhase} {count : Nat} {characters : List Char}
    (closes : Closes phase count characters) (bounded : phase.Bounded) : '\n' ∉ characters := by
  induction closes with
  | continued goesOn _ ih =>
    obtain ⟨other, next⟩ := continue_bounded bounded goesOn
    exact List.not_mem_cons_of_ne_of_not_mem other.symm (ih next)
  | quote => decide
  | backslash _ _ _ ih => exact List.not_mem_cons_of_ne_of_not_mem (by decide) (ih trivial)
  | plain _ _ _ notNewline _ _ ih => exact List.not_mem_cons_of_ne_of_not_mem notNewline.symm (ih trivial)

section Reading

variable {source : Source} (ending : source.stopComplaints = [])

include ending

/-- There is nothing to complain about when a silent mark, or the end, is read. -/
theorem reading_silent (anchor : Option Position) {marks : List Mark} (silent : Silent marks) :
    source.reading anchor marks = [] := by
  cases marks with
  | nil => rw [reading, ending]; rfl
  | cons mark rest => rw [reading, silent mark List.mem_cons_self]; rfl

/-- There is nothing to complain about when silent marks are passed. The first mark was looked at before. -/
theorem advancing_nil (anchor : Option Position) (count : Nat) {marks : List Mark} (silent : Silent marks.tail) :
    source.advancing anchor count marks = [] := by
  induction count generalizing marks with
  | zero => rfl
  | succ count ih =>
    have later : Silent marks.tail.tail := fun mark member => silent mark (List.mem_of_mem_tail member)
    rw [advancing, reading_silent ending anchor silent, ih later, List.append_nil]

/-- A literal that closes is read up to its closing quote, whatever stands behind it. The induction is on how it
closes, one character at a time. -/
theorem Closes.read {phase : LiteralPhase} {count : Nat} {characters : List Char}
    (closes : Closes phase count characters) (anchor : Position) {marks rest : List Mark}
    (same : marks.map Mark.character = characters) (silent : Silent (marks ++ rest)) :
    source.literalRest anchor phase count (marks ++ rest) = { length := marks.length, complaints := [] } := by
  induction closes generalizing marks with
  | continued goesOn _ ih =>
    obtain ⟨mark, others, rfl, rfl, more⟩ := List.map_eq_cons_iff.mp same
    have later : Silent (others ++ rest) := (List.forall_mem_cons.mp silent).2
    have quiet := reading_silent ending (some anchor) later
    rw [List.cons_append, literalRest]
    simp only [goesOn, ih more later, quiet]
    rfl
  | quote ends complete single =>
    obtain ⟨mark, others, rfl, isQuote, more⟩ := List.map_eq_cons_iff.mp same
    obtain rfl := List.map_eq_nil_iff.mp more
    have later : Silent rest := (List.forall_mem_cons.mp silent).2
    have quiet := reading_silent ending (some anchor) later
    rw [List.cons_append, literalRest, List.nil_append]
    simp only [isQuote, ends, complete, single, literalEnd, quiet, if_true]
    rfl
  | backslash ends complete _ ih =>
    obtain ⟨mark, others, rfl, isBackslash, more⟩ := List.map_eq_cons_iff.mp same
    have later : Silent (others ++ rest) := (List.forall_mem_cons.mp silent).2
    have quiet := reading_silent ending (some anchor) later
    rw [List.cons_append, literalRest]
    have notQuote : '\\' ≠ '\'' := by decide
    have notNewline : '\\' ≠ '\n' := by decide
    simp only [isBackslash, ends, complete, ih more later, quiet, notQuote, notNewline, if_true, if_false]
    rfl
  | plain ends complete notQuote notNewline notBackslash _ ih =>
    obtain ⟨mark, others, rfl, rfl, more⟩ := List.map_eq_cons_iff.mp same
    have later : Silent (others ++ rest) := (List.forall_mem_cons.mp silent).2
    have quiet := reading_silent ending (some anchor) later
    rw [List.cons_append, literalRest]
    simp only [ends, complete, ih more later, quiet, notQuote, notNewline, notBackslash, if_true, if_false]
    rfl

end Reading

/-! ## Tokens -/

/-- The punctuation of lines. -/
def punctuation : List Char := [',', ':', '(', ')']

/-- A text that is read as a token of the given kind: characters of words, a character literal, or punctuation. -/
inductive Written : TokenKind → Text → Prop where
  | word {first : Char} {rest : List Char} (wordly : ∀ character ∈ first :: rest, isWordCharacter character = true) :
      Written .word (.ofCharacters (first :: rest))
  | quoted {rest : List Char} (legible : ∀ character ∈ rest, character.toNat ≠ 0) (closes : Closes .plain 0 rest) :
      Written .quoted (.ofCharacters ('\'' :: rest))
  | mark {character : Char} (listed : character ∈ punctuation) : Written (.mark character) (.ofChar character)

/-- A text does not start with a character of words. -/
def Apart (text : Text) : Prop := ∀ character ∈ text.characters.head?, isWordCharacter character = false

/-- A line is read as the given tokens: they stand one after the other with blanks around them, and no character of
words directly behind a word. -/
inductive Spells : Text → List Shape → Prop where
  | nil : Spells [] []
  | blank {character : Char} {text : Text} {shapes : List Shape} (isBlank : isBlank character = true)
      (later : Spells text shapes) : Spells (.ofChar character ++ text) shapes
  | token {kind : TokenKind} {text rest : Text} {shapes : List Shape} (written : Written kind text)
      (apart : kind = .word → Apart rest) (later : Spells rest shapes) : Spells (text ++ rest) ((kind, text) :: shapes)

/-- What characters of words are not: a NUL, a newline, a blank or a byte order mark. Each of these few is looked up
in the tables of letters and digits. -/
theorem word_character_apart {character : Char} (wordly : isWordCharacter character = true) :
    character.toNat ≠ 0 ∧ character ≠ '\n' ∧ isBlank character = false ∧ character ≠ byteOrderMark := by
  have others : ['\x00', '\n', '\t', '\r', ' ', byteOrderMark].all (fun other => !isWordCharacter other) = true := by
    decide +kernel
  have differs (other : Char) (listed : other ∈ ['\x00', '\n', '\t', '\r', ' ', byteOrderMark]) :
      character ≠ other := by
    rintro rfl
    have outside := List.all_eq_true.mp others character listed
    rw [wordly] at outside
    cases outside
  refine ⟨fun isNul => ?_, differs _ (by simp), ?_, differs _ (by simp)⟩
  · exact differs '\x00' (by simp) (Char.toNat_inj.mp isNul)
  · simp [isBlank, differs]

/-- What punctuation is not: a blank, a character of words, or the start of a literal or of a comment. -/
theorem punctuation_apart {character : Char} (listed : character ∈ punctuation) :
    (isBlank character = false ∧ character ≠ byteOrderMark ∧ character.toNat ≠ 0 ∧ character ≠ '\n') ∧
      isWordCharacter character = false ∧ character ≠ '\'' ∧ character ≠ '/' ∧ character ≠ ';' := by
  simp only [punctuation, List.mem_cons, List.not_mem_nil, or_false] at listed
  rcases listed with rfl | rfl | rfl | rfl
  all_goals decide +kernel

/-- The characters of a written token: no NUL and no newline, and the first one is no blank and no byte order mark. A
token thus starts where its text does. -/
theorem Written.characters {kind : TokenKind} {text : Text} (written : Written kind text) :
    ∃ first rest, text = .ofCharacters (first :: rest) ∧ isBlank first = false ∧ first ≠ byteOrderMark ∧
      ∀ character ∈ first :: rest, character.toNat ≠ 0 ∧ character ≠ '\n' := by
  cases written with
  | word wordly =>
    rename_i first rest
    have start := word_character_apart (wordly first List.mem_cons_self)
    refine ⟨first, rest, rfl, start.2.2.1, start.2.2.2, fun character member => ?_⟩
    have apart := word_character_apart (wordly character member)
    exact ⟨apart.1, apart.2.1⟩
  | quoted legible closes =>
    rename_i rest
    refine ⟨'\'', rest, rfl, by decide, by decide, ?_⟩
    rw [List.forall_mem_cons]
    refine ⟨by decide, fun character member => ⟨legible character member, ?_⟩⟩
    rintro rfl
    exact closes.no_newline trivial member
  | mark listed =>
    rename_i character
    obtain ⟨notBlank, notOrderMark, legible⟩ := (punctuation_apart listed).1
    refine ⟨character, [], (List.append_nil _).symm, notBlank, notOrderMark, ?_⟩
    exact List.forall_mem_singleton.mpr legible

/-- The characters of a line: no NUL and no newline, neither in its tokens nor between them. -/
theorem Spells.characters {text : Text} {shapes : List Shape} (spells : Spells text shapes) :
    ∃ characters, text = .ofCharacters characters ∧
      ∀ character ∈ characters, character.toNat ≠ 0 ∧ character ≠ '\n' := by
  induction spells with
  | nil => exact ⟨[], rfl, by simp⟩
  | blank isBlank later ih =>
    rename_i character text shapes
    obtain ⟨characters, rfl, legible⟩ := ih
    refine ⟨character :: characters, rfl, List.forall_mem_cons.mpr ⟨?_, legible⟩⟩
    simp only [Source.isBlank, Bool.or_eq_true, beq_iff_eq] at isBlank
    rcases isBlank with (rfl | rfl) | rfl
    · decide
    · decide
    · decide
  | token written apart later ih =>
    obtain ⟨characters, rfl, legible⟩ := ih
    obtain ⟨first, rest, rfl, _, _, own⟩ := written.characters
    refine ⟨first :: rest ++ characters, ?_, List.forall_mem_append.mpr ⟨own, legible⟩⟩
    rw [Text.ofCharacters, Text.ofCharacters, Text.ofCharacters, List.flatMap_append]

/-- Marks that belong to the token before are passed over. -/
theorem items_after_skipped (source : Source) (anchor : Option Position) (skipped rest : List Mark) :
    source.itemsAfter skipped.length anchor (skipped ++ rest) = source.itemsAfter 0 anchor rest := by
  induction skipped with
  | nil => rfl
  | cons mark skipped ih => exact ih

/-- Marks that satisfy a test are taken up to the first that does not, or to the end. -/
theorem span_append {test : Char → Bool} {marks rest : List Mark} (inside : ∀ mark ∈ marks, test mark.character = true)
    (apart : ∀ mark ∈ rest.head?, test mark.character = false) : span test (marks ++ rest) = marks.length := by
  have stop : rest.takeWhile (fun mark => test mark.character) = [] := by
    cases rest with
    | nil => rfl
    | cons mark others => exact List.takeWhile_cons_of_neg (by rw [apart mark rfl]; decide)
  rw [span, List.takeWhile_append_of_pos inside, stop, List.append_nil]

/-- An item without a token leaves the current line as it is. -/
theorem gather_nothing (tokens : List Token) (items : List Item) :
    gather [] tokens ({ token := none, complaints := [] } :: items) = gather [] tokens items := by
  rw [gather.eq_def]
  rfl

/-- A token is added to the current line, unless it is a newline. -/
theorem gather_token (tokens : List Token) {token : Token} (notNewline : token.kind ≠ .mark '\n') (items : List Item) :
    gather [] tokens ({ token := some token, complaints := [] } :: items) = gather [] (tokens ++ [token]) items := by
  rw [gather.eq_def]
  exact if_neg notNewline

/-- A newline ends a line of tokens, and another one starts without any. -/
theorem gather_newline (first : Token) (rest : List Token) {token : Token} (isNewline : token.kind = .mark '\n')
    (items : List Item) :
    gather [] (first :: rest) ({ token := some token, complaints := [] } :: items) =
      { gather [] [] items with lines := { complaints := [], first, rest } :: (gather [] [] items).lines } := by
  rw [gather.eq_def]
  exact if_pos isNewline

/-- Marks with the glyphs of encoded characters have these characters and their encoding as text. Places and
complaints of the marks do not matter to this. -/
theorem marks_of_characters {marks : List Mark} (characters : List Char)
    (same : marks.map Mark.glyph = (Text.ofCharacters characters).glyphs) :
    marks.map Mark.character = characters ∧ textOf marks = .ofCharacters characters := by
  rw [Text.glyphs_of_characters] at same
  have values : marks.map Mark.character = characters := by
    have mapped := congrArg (List.map Glyph.value) same
    rw [List.map_map, List.map_map] at mapped
    exact mapped.trans (List.map_id characters)
  refine ⟨values, ?_⟩
  rw [text_of_marks, values]
  intro mark member
  obtain ⟨character, _, isChar⟩ := List.mem_map.mp (same ▸ List.mem_map_of_mem member)
  rw [← isChar]
  rfl

section Reading

variable {source : Source} (ending : source.stopComplaints = [])

include ending

/-- A word takes the characters of words behind its first one. It ends where something else stands, or at the end. -/
theorem word_lexeme {first : Mark} {others rest : List Mark}
    (wordly : ∀ mark ∈ first :: others, isWordCharacter mark.character = true)
    (apart : ∀ mark ∈ rest.head?, isWordCharacter mark.character = false) (silent : Silent (others ++ rest)) :
    source.lexeme first (others ++ rest) = (.token .word, { length := others.length, complaints := [] }) := by
  have advanced (length : Nat) : source.advancing first.position (length + 1) (first :: (others ++ rest)) = [] :=
    advancing_nil ending _ _ silent
  rw [List.forall_mem_cons] at wordly
  rw [Source.lexeme, if_pos wordly.1, span_append wordly.2 apart]
  simp only [advanced, List.append_nil]

/-- A character literal takes the marks up to its closing quote. What stands behind the quote is not looked at. -/
theorem quoted_lexeme {first : Mark} {others rest : List Mark} (isQuote : first.character = '\'')
    (closes : Closes .plain 0 (others.map Mark.character)) (silent : Silent (others ++ rest)) :
    source.lexeme first (others ++ rest) = (.token .quoted, { length := others.length, complaints := [] }) := by
  have quiet := reading_silent ending (some first.position) silent
  have notWord : isWordCharacter '\'' = false := by decide +kernel
  rw [Source.lexeme, isQuote, notWord, if_neg Bool.false_ne_true, if_pos rfl, closes.read ending _ rfl silent, quiet]
  rfl

/-- A written token is the lexeme at its first mark, and takes its other marks without complaints. Only a word asks
for something about what stands behind it. -/
theorem Written.lexeme {kind : TokenKind} {text : Text} (written : Written kind text) {first : Mark}
    {others rest : List Mark} (same : (first :: others).map Mark.glyph = text.glyphs)
    (apart : kind = .word → ∀ mark ∈ rest.head?, isWordCharacter mark.character = false)
    (silent : Silent (others ++ rest)) :
    source.lexeme first (others ++ rest) = (.token kind, { length := others.length, complaints := [] }) := by
  have advanced (length : Nat) : source.advancing first.position (length + 1) (first :: (others ++ rest)) = [] :=
    advancing_nil ending _ _ silent
  cases written with
  | word wordly =>
    obtain ⟨characters, _⟩ := marks_of_characters _ same
    rw [← characters, List.forall_mem_map] at wordly
    exact word_lexeme ending wordly (apart rfl) silent
  | quoted legible closes =>
    obtain ⟨characters, _⟩ := marks_of_characters _ same
    obtain ⟨isQuote, body⟩ := List.cons.inj characters
    rw [← body] at closes
    exact quoted_lexeme ending isQuote closes silent
  | mark listed =>
    rename_i character
    obtain ⟨characters, _⟩ := marks_of_characters [character] (by rw [same]; simp [Text.ofCharacters])
    obtain ⟨rfl, none⟩ := List.cons.inj characters
    obtain rfl := List.map_eq_nil_iff.mp none
    obtain ⟨notWord, notQuote, notSlash, notSemicolon⟩ := (punctuation_apart listed).2
    simp only [Source.lexeme, notWord, notQuote, notSlash, notSemicolon, advanced]
    simp

/-- A written token is read as such, and reading goes on behind it. Where it stands is left open. -/
theorem Written.read {kind : TokenKind} {text : Text} (written : Written kind text) {marks rest : List Mark}
    (same : marks.map Mark.glyph = text.glyphs)
    (apart : kind = .word → ∀ mark ∈ rest.head?, isWordCharacter mark.character = false)
    (silent : Silent (marks ++ rest)) :
    ∃ position, source.itemsAfter 0 none (marks ++ rest) =
      { token := some { kind, text, position }, complaints := [] } :: source.itemsAfter 0 none rest := by
  obtain ⟨character, characters, isText, notBlank, _⟩ := written.characters
  obtain ⟨values, bytes⟩ := marks_of_characters _ (isText ▸ same)
  obtain ⟨first, others, rfl, rfl, _⟩ := List.map_eq_cons_iff.mp values
  have later : Silent (others ++ rest) := (List.forall_mem_cons.mp silent).2
  have taken := written.lexeme ending same apart later
  refine ⟨first.position, ?_⟩
  rw [List.cons_append, itemsAfter]
  simp only [notBlank, taken, List.take_left, items_after_skipped, bytes, ← isText]
  rfl

/-- A line is read as its tokens, and reading goes on behind it. The tokens are added to those of the current line.
The induction is on the tokens and blanks of the line. -/
theorem Spells.read {text : Text} {shapes : List Shape} (spells : Spells text shapes) {marks rest : List Mark}
    (same : marks.map Mark.glyph = text.glyphs)
    (boundary : ∀ mark ∈ rest.head?, isWordCharacter mark.character = false) (silent : Silent (marks ++ rest))
    (before : List Token) :
    ∃ tokens, tokens.map Token.shape = shapes ∧
      gather [] before (source.itemsAfter 0 none (marks ++ rest)) =
        gather [] (before ++ tokens) (source.itemsAfter 0 none rest) := by
  induction spells generalizing marks before with
  | nil =>
    obtain rfl := List.map_eq_nil_iff.mp same
    exact ⟨[], rfl, by rw [List.append_nil, List.nil_append]⟩
  | blank isBlank _ ih =>
    rw [Text.glyphs_of_char_append] at same
    obtain ⟨mark, others, rfl, isCharacter, more⟩ := List.map_eq_cons_iff.mp same
    have later : Silent (others ++ rest) := (List.forall_mem_cons.mp silent).2
    have blank : Source.isBlank mark.character = true := by
      rw [Mark.character, isCharacter]
      exact isBlank
    obtain ⟨tokens, shaped, gathered⟩ := ih more later before
    refine ⟨tokens, shaped, ?_⟩
    rw [← gathered, List.cons_append, itemsAfter]
    simp only [blank, if_true, reading_silent ending none later, gather_nothing]
  | token written apart later ih =>
    rename_i kind text others shapes
    obtain ⟨first, rest', isText, _⟩ := written.characters
    have split : (text ++ others).glyphs = text.glyphs ++ others.glyphs := by
      rw [isText, Text.glyphs_of_characters_append, Text.glyphs_of_characters]
    rw [split] at same
    obtain ⟨own, more, rfl, ownSame, moreSame⟩ := List.map_eq_append_iff.mp same
    rw [List.append_assoc] at silent ⊢
    have behind : kind = .word → ∀ mark ∈ (more ++ rest).head?, isWordCharacter mark.character = false := by
      intro isWord
      cases more with
      | nil => exact boundary
      | cons mark marks =>
        rintro _ ⟨⟩
        apply apart isWord
        rw [Text.characters, ← moreSame]
        rfl
    obtain ⟨position, items⟩ := written.read ending ownSame behind silent
    have laterSilent : Silent (more ++ rest) := fun mark member => silent mark (List.mem_append_right _ member)
    obtain ⟨tokens, shaped, gathered⟩ := ih moreSame laterSilent (before ++ [⟨kind, text, position⟩])
    refine ⟨⟨kind, text, position⟩ :: tokens, by rw [List.map_cons, shaped]; rfl, ?_⟩
    have notNewline : kind ≠ .mark '\n' := by
      rintro rfl
      cases written with
      | mark listed => exact absurd listed (by decide)
    rw [items, gather_token before notNewline, gathered, List.append_assoc]
    rfl

/-- A newline is a token of its own, behind which reading goes on. -/
theorem newline_read {newline : Mark} (isNewline : newline.character = '\n') {rest : List Mark} (silent : Silent rest) :
    ∃ token, token.kind = .mark '\n' ∧ source.itemsAfter 0 none (newline :: rest) =
      { token := some token, complaints := [] } :: source.itemsAfter 0 none rest := by
  have advanced : source.advancing newline.position 1 (newline :: rest) = [] := advancing_nil ending _ _ silent
  have taken : source.lexeme newline rest = (.token (.mark '\n'), { length := 0, complaints := [] }) := by
    have notWord : isWordCharacter '\n' = false := by decide +kernel
    simp only [lexeme, isNewline, notWord, advanced]
    simp
  have notBlank : isBlank '\n' = false := by decide
  refine ⟨{ kind := .mark '\n', text := textOf [newline], position := newline.position }, rfl, ?_⟩
  rw [itemsAfter]
  simp only [isNewline, notBlank, taken]
  rfl

end Reading

/-! ## Texts -/

/-- A line of a text with the tokens that it is read as. -/
structure Row where
  text : Text
  shapes : List Shape

/-- A row has tokens, and its text is read as these tokens. -/
structure Row.Spelled (row : Row) : Prop where
  spells : Spells row.text row.shapes
  filled : row.shapes ≠ []

/-- The text of rows: each one ends with a line feed. -/
def textOfRows (rows : List Row) : Text := rows.flatMap fun row => row.text ++ "\n"

/-- A row does not start with a byte order mark, which would be passed over at the start of a source. -/
theorem Row.Spelled.starts {row : Row} (spelled : row.Spelled) :
    ∃ first rest, row.text.glyphs = .char first :: rest ∧ first ≠ byteOrderMark := by
  obtain ⟨text, shapes⟩ := row
  obtain ⟨spells, filled⟩ := spelled
  cases spells with
  | nil => exact absurd rfl filled
  | blank isBlank later =>
    refine ⟨_, _, Text.glyphs_of_char_append _ _, ?_⟩
    rintro rfl
    exact absurd isBlank (by decide)
  | token written apart later =>
    obtain ⟨first, rest, rfl, _, notOrderMark, _⟩ := written.characters
    exact ⟨first, _, Text.glyphs_of_characters_append (first :: rest) _, notOrderMark⟩

/-- The glyphs of a row, its line feed and what follows. A row is whole characters, so that none reaches over its
end. -/
theorem glyphs_of_row {row : Row} (spelled : row.Spelled) (rest : Text) :
    (row.text ++ "\n" ++ rest).glyphs = row.text.glyphs ++ .char '\n' :: rest.glyphs := by
  obtain ⟨characters, isText, _⟩ := spelled.spells.characters
  rw [List.append_assoc, isText, Text.glyphs_of_characters_append, Text.glyphs_of_characters]
  exact congrArg _ (Text.glyphs_of_char_append '\n' rest)

/-- The glyphs of rows are characters, and none is a NUL. There is nothing in them to complain about. -/
theorem glyphs_of_rows {rows : List Row} (spelled : ∀ row ∈ rows, row.Spelled) :
    ∀ glyph ∈ (textOfRows rows).glyphs, ∃ character, glyph = .char character ∧ character.toNat ≠ 0 := by
  induction rows with
  | nil => simp [textOfRows, Text.glyphs, Text.glyphsAfter]
  | cons row rest ih =>
    rw [List.forall_mem_cons] at spelled
    obtain ⟨characters, isText, legible⟩ := spelled.1.spells.characters
    rw [textOfRows, List.flatMap_cons, glyphs_of_row spelled.1, isText, Text.glyphs_of_characters]
    intro glyph member
    rcases List.mem_append.mp member with own | other
    · obtain ⟨character, listed, rfl⟩ := List.mem_map.mp own
      exact ⟨character, rfl, (legible character listed).1⟩
    · rcases List.mem_cons.mp other with rfl | later
      · exact ⟨'\n', rfl, by decide⟩
      · exact ih spelled.2 glyph later

/-- Lines without complaints, with tokens of the given shapes. -/
structure Lines.Reads (lines : Lines) (shapes : List (List Shape)) : Prop where
  quiet : lines.Quiet
  shaped : lines.lines.map (fun line => line.tokens.map Token.shape) = shapes

/-- Rows are read one after the other. The induction is on the rows; each has tokens, so that its line is kept. -/
theorem rows_read (source : Source) (ending : source.stopComplaints = []) {rows : List Row}
    (spelled : ∀ row ∈ rows, row.Spelled) {marks : List Mark}
    (same : marks.map Mark.glyph = (textOfRows rows).glyphs) (silent : Silent marks) :
    (gather [] [] (source.itemsAfter 0 none marks)).Reads (rows.map Row.shapes) := by
  induction rows generalizing marks with
  | nil =>
    obtain rfl := List.map_eq_nil_iff.mp same
    exact ⟨⟨rfl, by simp [itemsAfter, gather]⟩, rfl⟩
  | cons row rest ih =>
    rw [List.forall_mem_cons] at spelled
    rw [textOfRows, List.flatMap_cons, glyphs_of_row spelled.1] at same
    obtain ⟨own, others, rfl, ownSame, othersSame⟩ := List.map_eq_append_iff.mp same
    obtain ⟨newline, later, rfl, isNewline, laterSame⟩ := List.map_eq_cons_iff.mp othersSame
    have character : newline.character = '\n' := by rw [Mark.character, isNewline]; rfl
    have laterSilent : Silent later :=
      fun mark member => silent mark (List.mem_append_right _ (List.mem_cons_of_mem _ member))
    have boundary : ∀ mark ∈ (newline :: later).head?, isWordCharacter mark.character = false := by
      rintro _ ⟨⟩
      rw [character]
      decide +kernel
    obtain ⟨tokens, shaped, gathered⟩ := spelled.1.spells.read ending ownSame boundary silent []
    obtain ⟨token, isToken, items⟩ := newline_read ending character laterSilent
    obtain ⟨quiet, read⟩ := ih spelled.2 laterSame laterSilent
    rw [gathered, items, List.nil_append]
    cases tokens with
    | nil => exact absurd shaped.symm spelled.1.filled
    | cons first more =>
      rw [gather_newline first more isToken]
      refine ⟨⟨quiet.1, List.forall_mem_cons.mpr ⟨rfl, quiet.2⟩⟩, ?_⟩
      rw [List.map_cons, List.map_cons, read, ← shaped]
      rfl

/-- The marks of glyphs have these glyphs. -/
theorem marks_from_glyphs (failure : Option Text) (previous position : Position) (glyphs : List Glyph) :
    (marksFrom failure previous position glyphs).map Mark.glyph = glyphs := by
  induction glyphs generalizing previous position with
  | nil => rfl
  | cons glyph rest ih => rw [marksFrom, List.map_cons, ih]

/-- There is nothing to complain about when characters other than NUL are read. A failure of the device is complained
about at a stray byte or at the end. -/
theorem marks_from_silent (failure : Option Text) (previous position : Position) {glyphs : List Glyph}
    (legible : ∀ glyph ∈ glyphs, ∃ character, glyph = .char character ∧ character.toNat ≠ 0) :
    Silent (marksFrom failure previous position glyphs) := by
  induction glyphs generalizing previous position with
  | nil => simp [Silent, marksFrom]
  | cons glyph rest ih =>
    rw [List.forall_mem_cons] at legible
    obtain ⟨⟨character, rfl, notNul⟩, others⟩ := legible
    exact List.forall_mem_cons.mpr ⟨if_neg notNul, ih _ _ others⟩

/-- A text of rows is read row by row. It is in UTF-8 and without NULs, and it does not start with a byte order
mark. -/
theorem text_read {rows : List Row} (spelled : ∀ row ∈ rows, row.Spelled) :
    (ofText (textOfRows rows)).lines.Reads (rows.map Row.shapes) := by
  have same : (ofText (textOfRows rows)).marks.map Mark.glyph = (textOfRows rows).glyphs := marks_from_glyphs _ _ _ _
  have silent : Silent (ofText (textOfRows rows)).marks := marks_from_silent _ _ _ (glyphs_of_rows spelled)
  have read := rows_read (ofText (textOfRows rows)) rfl spelled same silent
  have notOrderMark : ∀ mark ∈ (ofText (textOfRows rows)).marks.head?, mark.character ≠ byteOrderMark := by
    cases rows with
    | nil => simp [ofText, textOfRows, Text.glyphs, Text.glyphsAfter, marksFrom]
    | cons row rest =>
      rw [List.forall_mem_cons] at spelled
      obtain ⟨first, others, start, notOrderMark⟩ := spelled.1.starts
      intro mark isFirst
      obtain ⟨marks, split⟩ := List.head?_eq_some_iff.mp isFirst
      rw [split, textOfRows, List.flatMap_cons, glyphs_of_row spelled.1, start] at same
      rw [Mark.character, (List.cons.inj same).1]
      exact notOrderMark
  rw [lines, items, reading_silent rfl none silent, gather_nothing]
  cases marks : (ofText (textOfRows rows)).marks with
  | nil =>
    rw [marks] at read
    exact read
  | cons first rest =>
    rw [marks] at read notOrderMark
    simp only [notOrderMark first rfl, if_false]
    exact read

/-! ## What can be written again -/

/-- The words and the character literals of a text that was read without complaints can be written again. The property
is shown of every token that the scanner gives, and so of those in its lines. -/
theorem supplied_written {text : Text} {failure : Option Text} (quiet : (ofText text failure).lines.Quiet)
    (token : Token) (supplied : (ofText text failure).Supplies token)
    (kind : token.kind = .word ∨ token.kind = .quoted) : Written token.kind token.text := by
  have grants : (ofText text failure).Grants fun token =>
      token.kind = .word ∨ token.kind = .quoted → Written token.kind token.text := by
    intro first rest kind stretch taken noComplaints legible either
    dsimp only
    rw [text_of_marks _ fun mark member => (legible mark member).1, List.map_cons]
    by_cases isWord : isWordCharacter first.character = true
    · rw [lexeme, if_pos isWord] at taken
      cases taken
      refine .word (List.forall_mem_cons.mpr ⟨isWord, List.forall_mem_map.mpr fun mark member => ?_⟩)
      have begins := List.prefix_iff_eq_take.mp (rest.takeWhile_prefix fun mark => isWordCharacter mark.character)
      exact List.all_eq_true.mp List.all_takeWhile mark (begins ▸ member)
    · rw [lexeme, if_neg isWord] at taken
      by_cases isQuote : first.character = '\''
      · rw [if_pos isQuote] at taken
        cases taken
        have closes := literal_closes _ _ _ _ _ (List.append_eq_nil_iff.mp noComplaints).2
        rw [isQuote]
        refine .quoted (List.forall_mem_map.mpr fun mark member => ?_) closes
        exact (legible mark (List.mem_cons_of_mem _ member)).2
      · -- What is left are comments and punctuation.
        rw [if_neg isQuote] at taken
        dsimp only at taken
        split at taken
        · cases taken
        · split at taken
          · split at taken <;> cases taken
          · split at taken <;> cases taken
            rcases either with word | quoted
            · cases word
            · cases quoted
  exact supplied_each grants quiet token supplied kind

/-- Marks stand in the order of their lines. A glyph is followed by one on the same line or on the next. -/
theorem marks_from_in_order (failure : Option Text) (previous position : Position) (glyphs : List Glyph) :
    (∀ mark ∈ marksFrom failure previous position glyphs, position.line ≤ mark.position.line) ∧
      ((marksFrom failure previous position glyphs).map Mark.position).Pairwise
        fun one other => one.line ≤ other.line := by
  induction glyphs generalizing previous position with
  | nil => exact ⟨by simp [marksFrom], .nil⟩
  | cons glyph rest ih =>
    obtain ⟨later, inOrder⟩ := ih position (position.after glyph)
    have onward : position.line ≤ (position.after glyph).line := by
      rw [Position.after]
      split
      · exact Nat.le_succ _
      · exact Nat.le_refl _
    have behind : ∀ mark ∈ marksFrom failure position (position.after glyph) rest, position.line ≤ mark.position.line :=
      fun mark member => Nat.le_trans onward (later mark member)
    constructor
    · exact List.forall_mem_cons.mpr ⟨Nat.le_refl _, behind⟩
    · exact .cons (List.forall_mem_map.mpr behind) inOrder

/-- Tokens start at marks, one after the other. Marks within a token and between tokens are left out of the list. -/
theorem items_after_positions (source : Source) (skipped : Nat) (anchor : Option Position) (marks : List Mark) :
    (((source.itemsAfter skipped anchor marks).filterMap Item.token).map Token.position).Sublist
      (marks.map Mark.position) := by
  fun_induction itemsAfter source skipped anchor marks with
  | case1 => exact .slnil
  | case2 anchor first rest remaining ih => exact ih.cons _
  | case3 anchor first rest blank ih => exact ih.cons _
  | case4 anchor first rest notBlank stretch kind text taken ih => exact ih.cons_cons _
  | case5 anchor first rest notBlank stretch taken ih => exact ih.cons _
  | case6 anchor first rest notBlank stretch taken ih => exact ih.cons _

/-- Gathering tokens into lines keeps their order. Newlines are left out, as they end lines and belong to none. -/
theorem gather_in_order (complaints : List SyntaxError) (tokens : List Token) (items : List Item) :
    ((gather complaints tokens items).lines.flatMap TokenLine.tokens).Sublist
      (tokens ++ items.filterMap Item.token) := by
  fun_induction gather complaints tokens items with
  | case1 complaints => exact .slnil
  | case2 complaints first rest => simp [TokenLine.tokens]
  | case3 complaints tokens item items _ none ih => simpa [none] using ih
  | case4 complaints item items _ token isToken isNewline ih =>
    rw [List.filterMap_cons_some isToken]
    exact ih.cons _
  | case5 complaints item items _ token isToken isNewline first rest _ ih =>
    rw [List.filterMap_cons_some isToken, List.flatMap_cons]
    exact (List.Sublist.refl _).append (ih.cons _)
  | case6 complaints tokens item items _ token isToken _ ih =>
    rw [List.filterMap_cons_some isToken]
    rwa [List.append_assoc] at ih

/-- The tokens of a source start at its marks, one after the other. A byte order mark at the start is passed over. -/
theorem items_positions (source : Source) :
    ((source.items.filterMap Item.token).map Token.position).Sublist (source.marks.map Mark.position) := by
  unfold items
  cases source.marks with
  | nil => exact .slnil
  | cons first rest =>
    by_cases isOrderMark : first.character = byteOrderMark
    · simp only [if_pos isOrderMark]
      exact (source.items_after_positions 0 none rest).cons _
    · simp only [if_neg isOrderMark]
      exact source.items_after_positions 0 none (first :: rest)

/-- The tokens of a text stand in the order of their lines. By this the place of declarations can be compared with
that of statements. -/
theorem tokens_in_order (text : Text) (failure : Option Text) :
    (ofText text failure).tokenLines.flatten.Pairwise fun one other => one.position.line ≤ other.position.line := by
  have gathered : (ofText text failure).tokenLines.flatten.Sublist
      ((ofText text failure).items.filterMap Item.token) := gather_in_order [] [] (ofText text failure).items
  have placed := (gathered.map Token.position).trans (ofText text failure).items_positions
  have inOrder := (marks_from_in_order failure .start .start text.glyphs).2.sublist placed
  rw [List.pairwise_map] at inOrder
  exact inOrder

end Source

end IntegerMachine
