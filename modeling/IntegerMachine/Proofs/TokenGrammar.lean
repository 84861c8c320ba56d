import IntegerMachine.Proofs.Scanning

/-!
# The grammar of tokens

What marks look like that are read without complaints, and the tokens that they are read as. Marks are blanks, words,
character literals, comments and single characters, one after the other. A comment to the end of a line stops in front of
the line feed; a comment between `/*` and `*/` stops at the first `*/`.

The reader gives the tokens of the grammar, and has nothing to complain about, exactly where the marks are those of the
grammar. So whether a text is read without complaints, and as which tokens, can be told piece by piece.
-/
namespace IntegerMachine

namespace Source

/-! ## Pieces -/

/-- The token of a kind that is made up of marks. -/
def tokenOf (kind : TokenKind) (first : Mark) (body : List Mark) : Token :=
  { kind, text := textOf (first :: body), position := first.position }

/-- Whether a comment to the end of the line starts at a mark, given those behind it. -/
def opensLineComment (first : Mark) (behind : List Mark) : Bool :=
  first.character = ';' || (first.character = '/' && (behind.head?.map Mark.character) == some '/')

/-- Marks start with a line feed, unless there are none. -/
def AtLineEnd (marks : List Mark) : Prop := ∀ mark ∈ marks.head?, mark.character = '\n'

/-- A mark that is a token of its own, given those behind it. -/
structure StandsAlone (first : Mark) (behind : List Mark) : Prop where
  notBlank : isBlank first.character = false
  notWord : isWordCharacter first.character = false
  notQuote : first.character ≠ '\''
  notSemicolon : first.character ≠ ';'
  noComment : first.character = '/' → ∀ mark ∈ behind.head?, mark.character ≠ '/' ∧ mark.character ≠ '*'

/-- Marks that are read as tokens. -/
inductive Scans : List Mark → List Token → Prop where
  | nil : Scans [] []
  | blank {mark : Mark} {rest : List Mark} {tokens : List Token} (blank : isBlank mark.character = true)
      (later : Scans rest tokens) : Scans (mark :: rest) tokens
  | word {first : Mark} {body rest : List Mark} {tokens : List Token}
      (wordly : ∀ mark ∈ first :: body, isWordCharacter mark.character = true)
      (apart : ∀ mark ∈ rest.head?, isWordCharacter mark.character = false) (later : Scans rest tokens) :
      Scans (first :: (body ++ rest)) (tokenOf .word first body :: tokens)
  | quoted {first : Mark} {body rest : List Mark} {tokens : List Token} (opens : first.character = '\'')
      (closes : Closes .plain 0 (body.map Mark.character)) (later : Scans rest tokens) :
      Scans (first :: (body ++ rest)) (tokenOf .quoted first body :: tokens)
  | lineComment {first : Mark} {body rest : List Mark} {tokens : List Token}
      (opens : opensLineComment first body = true) (within : ∀ mark ∈ body, mark.character ≠ '\n')
      (ends : AtLineEnd rest) (later : Scans rest tokens) : Scans (first :: (body ++ rest)) tokens
  | comment {first second : Mark} {body rest : List Mark} {tokens : List Token} (slash : first.character = '/')
      (star : second.character = '*') (closes : commentLength body = some body.length) (later : Scans rest tokens) :
      Scans (first :: (second :: body ++ rest)) tokens
  | mark {first : Mark} {rest : List Mark} {tokens : List Token} (alone : StandsAlone first rest)
      (later : Scans rest tokens) : Scans (first :: rest) (tokenOf (.mark first.character) first [] :: tokens)

/-- The end of a comment is found by its own marks. Nothing behind the end is looked at. -/
theorem comment_length_take {marks : List Mark} {length : Nat} (found : commentLength marks = some length) :
    length ≤ marks.length ∧ commentLength (marks.take length) = some length := by
  induction marks generalizing length with
  | nil => cases found
  | cons first rest ih =>
    rw [commentLength] at found
    by_cases ends : (first.character = '*' && (rest.head?.map Mark.character) == some '/') = true
    · rw [if_pos ends] at found
      obtain rfl := Option.some.inj found
      cases rest with
      | nil => simp at ends
      | cons second others =>
        refine ⟨by simp, ?_⟩
        rw [List.take_succ_cons, List.take_succ_cons, List.take_zero, commentLength]
        exact if_pos ends
    · rw [if_neg ends] at found
      obtain ⟨length, later, rfl⟩ := Option.map_eq_some_iff.mp found
      obtain ⟨inside, own⟩ := ih later
      refine ⟨Nat.succ_le_succ inside, ?_⟩
      have head : ((rest.take length).head?.map Mark.character == some '/') =
          (rest.head?.map Mark.character == some '/') := by
        cases length with
        | zero =>
          rw [List.take_zero] at own
          cases own
        | succ length => cases rest <;> rfl
      rw [List.take_succ_cons, commentLength, head, if_neg ends, own]
      rfl

/-- The end of a comment is found whatever stands behind it, since it is the first one. -/
theorem comment_length_append {body : List Mark} {length : Nat} (closes : commentLength body = some length)
    (rest : List Mark) : commentLength (body ++ rest) = some length := by
  induction body generalizing length with
  | nil => cases closes
  | cons first body ih =>
    cases body with
    | nil => simp [commentLength] at closes
    | cons second others =>
      rw [commentLength] at closes
      rw [List.cons_append, commentLength]
      by_cases ends : (first.character = '*' && ((second :: others).head?.map Mark.character) == some '/') = true
      · rw [if_pos ends] at closes
        rw [← closes]
        exact if_pos ends
      · rw [if_neg ends] at closes
        obtain ⟨length, later, rfl⟩ := Option.map_eq_some_iff.mp closes
        rw [ih later]
        exact if_neg ends

/-! ## What the reader takes is a piece -/

/-- The tokens that a lexeme gives: one, unless it is a comment. -/
def Lexeme.tokens (lexeme : Lexeme) (first : Mark) (body : List Mark) : List Token :=
  match lexeme with
  | .token kind => [tokenOf kind first body]
  | .comment => []
  | .lineComment => []

/-- Marks are taken up to the first that fails a test: all that are taken pass it, and the next one, if there is any,
fails. -/
theorem span_split (test : Char → Bool) (marks : List Mark) :
    (∀ mark ∈ marks.take (span test marks), test mark.character = true) ∧
      ∀ mark ∈ (marks.drop (span test marks)).head?, test mark.character = false := by
  induction marks with
  | nil => simp
  | cons mark rest ih =>
    by_cases passes : test mark.character = true
    · have longer : span test (mark :: rest) = span test rest + 1 := by simp [span, passes]
      rw [longer, List.take_succ_cons, List.drop_succ_cons]
      exact ⟨List.forall_mem_cons.mpr ⟨passes, ih.1⟩, ih.2⟩
    · have none : span test (mark :: rest) = 0 := by simp [span, passes]
      rw [none, List.take_zero, List.drop_zero]
      constructor
      · intro other member
        cases member
      · rintro _ ⟨⟩
        exact Bool.eq_false_iff.mpr passes

/-- Whether a comment opens is told by the rest of the line. A line feed behind a slash does not make it a comment. -/
theorem opens_line_comment_append (first : Mark) (body : List Mark) {rest : List Mark} (ends : AtLineEnd rest) :
    opensLineComment first (body ++ rest) = opensLineComment first body := by
  cases body with
  | cons second others => rfl
  | nil =>
    cases rest with
    | nil => rfl
    | cons newline others => simp [opensLineComment, ends newline rfl]

/-- A comment to the end of the line is a piece of the grammar. It goes up to the first line feed, which is left to be
a token of its own. -/
theorem line_comment_scans {first : Mark} {rest : List Mark} {tokens : List Token}
    (opens : opensLineComment first rest = true) (later : Scans (rest.drop (span (· ≠ '\n') rest)) tokens) :
    Scans (first :: (rest.take (span (· ≠ '\n') rest) ++ rest.drop (span (· ≠ '\n') rest))) tokens := by
  obtain ⟨within, stops⟩ := span_split (· ≠ '\n') rest
  have ends : AtLineEnd (rest.drop (span (· ≠ '\n') rest)) := by
    intro mark isHead
    simpa using stops mark isHead
  rw [← List.take_append_drop (span (· ≠ '\n') rest) rest, opens_line_comment_append first _ ends] at opens
  exact .lineComment opens (by simpa using within) ends later

/-- A lexeme without complaints is a piece of the grammar in front of what is read behind it. There is one case for
each kind of lexeme; those that are not closed are complained about. -/
theorem lexeme_scans (source : Source) {first : Mark} {rest : List Mark} {tokens : List Token}
    (notBlank : isBlank first.character = false) (quiet : (source.lexeme first rest).2.complaints = [])
    (later : Scans (rest.drop (source.lexeme first rest).2.length) tokens) :
    Scans (first :: rest)
      ((source.lexeme first rest).1.tokens first (rest.take (source.lexeme first rest).2.length) ++ tokens) := by
  have whole : first :: rest = first :: (rest.take (source.lexeme first rest).2.length ++
      rest.drop (source.lexeme first rest).2.length) := by rw [List.take_append_drop]
  rw [whole]
  clear whole
  revert quiet later
  fun_cases lexeme source first rest with
  | case1 anchor taking isWord =>
    intro quiet later
    obtain ⟨wordly, apart⟩ := span_split isWordCharacter rest
    exact .word (List.forall_mem_cons.mpr ⟨isWord, wordly⟩) apart later
  | case2 anchor notWord isQuote stretch =>
    intro quiet later
    have closes := literal_closes _ _ _ _ _ (List.append_eq_nil_iff.mp quiet).2
    exact .quoted isQuote closes later
  | case3 anchor taking notWord notQuote opens =>
    intro quiet later
    exact line_comment_scans (by rw [opensLineComment, opens, Bool.or_true]) later
  | case4 anchor taking notWord notQuote noLine opens length found =>
    intro quiet later
    obtain ⟨slash, star⟩ := Bool.and_eq_true_iff.mp opens
    cases rest with
    | nil => cases star
    | cons second others =>
      obtain ⟨inside, closes⟩ := comment_length_take found
      have taken : (others.take length).length = length := List.length_take_of_le inside
      exact .comment (of_decide_eq_true slash) (by simpa using star) (by rw [taken]; exact closes) later
  | case5 anchor taking notWord notQuote noLine opens found =>
    intro quiet
    exact absurd (List.append_eq_nil_iff.mp quiet).2 (List.cons_ne_nil _ _)
  | case6 anchor notWord notQuote noLine noComment isSemicolon length =>
    intro quiet later
    exact line_comment_scans (by simp [opensLineComment, isSemicolon]) later
  | case7 anchor taking notWord notQuote noLine noComment notSemicolon =>
    intro quiet later
    refine .mark ⟨notBlank, Bool.eq_false_iff.mpr notWord, notQuote, notSemicolon, ?_⟩ later
    intro slash mark isHead
    simp only [slash, decide_true, Bool.true_and, beq_iff_eq, Option.map_eq_some_iff, not_exists, not_and]
      at noLine noComment
    exact ⟨noLine mark isHead, noComment mark isHead⟩

/-- Items without complaints, and the tokens that they have. -/
def Give (items : List Item) (tokens : List Token) : Prop :=
  (∀ item ∈ items, item.complaints = []) ∧ items.filterMap Item.token = tokens

/-- The marks of items without complaints are those of the grammar. The induction follows the reader, which passes
over the marks of a lexeme that it has taken. -/
theorem scans_of_quiet (source : Source) (skipped : Nat) (anchor : Option Position) (marks : List Mark)
    (quiet : ∀ item ∈ source.itemsAfter skipped anchor marks, item.complaints = []) :
    Scans (marks.drop skipped) ((source.itemsAfter skipped anchor marks).filterMap Item.token) := by
  fun_induction itemsAfter source skipped anchor marks with
  | case1 skipped =>
    rw [List.drop_nil]
    exact .nil
  | case2 anchor first rest remaining ih => exact ih quiet
  | case3 anchor first rest blank ih =>
    rw [List.forall_mem_cons] at quiet
    exact .blank blank (ih quiet.2)
  | case4 anchor first rest notBlank stretch kind text taken ih =>
    rw [List.forall_mem_cons] at quiet
    have read := source.lexeme_scans (Bool.eq_false_iff.mpr notBlank) (by rw [taken]; exact quiet.1)
      (by rw [taken]; exact ih quiet.2)
    rw [taken] at read
    exact read
  | case5 anchor first rest notBlank stretch taken ih | case6 anchor first rest notBlank stretch taken ih =>
    rw [List.forall_mem_cons] at quiet
    have read := source.lexeme_scans (Bool.eq_false_iff.mpr notBlank) (by rw [taken]; exact quiet.1)
      (by rw [taken]; exact ih quiet.2)
    rw [taken] at read
    exact read

/-- Every mark is read: the first one is, and each item reads up to the mark behind it. Where no item has complaints,
no mark has any. -/
theorem silent_of_quiet (source : Source) (skipped : Nat) (anchor : Option Position) (marks : List Mark)
    (read : Silent (marks.take (skipped + 1)))
    (quiet : ∀ item ∈ source.itemsAfter skipped anchor marks, item.complaints = []) : Silent marks := by
  fun_induction itemsAfter source skipped anchor marks with
  | case1 skipped => simp [Silent]
  | case2 anchor first rest remaining ih =>
    rw [List.take_succ_cons, Silent, List.forall_mem_cons] at read
    exact List.forall_mem_cons.mpr ⟨read.1, ih read.2 quiet⟩
  | case3 anchor first rest blank ih =>
    rw [List.forall_mem_cons] at quiet
    have next := source.silent_take_succ anchor 0 rest quiet.1 (by simp [Silent])
    exact List.forall_mem_cons.mpr ⟨read first List.mem_cons_self, ih next quiet.2⟩
  | case4 anchor first rest notBlank stretch kind text taken ih =>
    rw [List.forall_mem_cons] at quiet
    have next := lexeme_silent taken quiet.1
    exact List.forall_mem_cons.mpr ⟨read first List.mem_cons_self, ih next quiet.2⟩
  | case5 anchor first rest notBlank stretch taken ih | case6 anchor first rest notBlank stretch taken ih =>
    rw [List.forall_mem_cons] at quiet
    have next := lexeme_silent taken quiet.1
    exact List.forall_mem_cons.mpr ⟨read first List.mem_cons_self, ih next quiet.2⟩

/-! ## A piece is what the reader takes -/

/-- A lexeme without complaints is read, and reading goes on behind it. The anchor, where complaints about blanks
would go, makes no difference where there are none. -/
theorem give_lexeme {source : Source} {first : Mark} {body rest : List Mark} {kind : Lexeme} {tokens : List Token}
    (notBlank : isBlank first.character = false)
    (taken : source.lexeme first (body ++ rest) = (kind, { length := body.length, complaints := [] }))
    (later : ∀ anchor, Give (source.itemsAfter 0 anchor rest) tokens) (anchor : Option Position) :
    Give (source.itemsAfter 0 anchor (first :: (body ++ rest))) (kind.tokens first body ++ tokens) := by
  rw [itemsAfter]
  simp only [notBlank, Bool.false_eq_true, if_false, taken, items_after_skipped, List.take_left]
  cases kind with
  | token kind =>
    obtain ⟨quiet, same⟩ := later none
    exact ⟨List.forall_mem_cons.mpr ⟨rfl, quiet⟩, congrArg (tokenOf kind first body :: ·) same⟩
  | comment =>
    obtain ⟨quiet, same⟩ := later (some first.position)
    exact ⟨List.forall_mem_cons.mpr ⟨rfl, quiet⟩, same⟩
  | lineComment =>
    obtain ⟨quiet, same⟩ := later none
    exact ⟨List.forall_mem_cons.mpr ⟨rfl, quiet⟩, same⟩

section Reading

variable {source : Source} (ending : source.stopComplaints = [])

include ending

/-- A comment to the end of the line is taken up to the line feed, be it opened by a semicolon or by two slashes. It
gives no token. -/
theorem line_comment_lexeme {first : Mark} {body rest : List Mark} (opens : opensLineComment first body = true)
    (within : ∀ mark ∈ body, mark.character ≠ '\n') (ends : AtLineEnd rest) (silent : Silent (body ++ rest)) :
    isBlank first.character = false ∧ ∃ kind, kind.tokens first body = [] ∧
      source.lexeme first (body ++ rest) = (kind, { length := body.length, complaints := [] }) := by
  have length : span (fun character => decide (character ≠ '\n')) (body ++ rest) = body.length := by
    apply span_append
    · intro mark member
      exact decide_eq_true (within mark member)
    · intro mark isHead
      simp [ends mark isHead]
  rw [opensLineComment, Bool.or_eq_true] at opens
  rcases opens with semicolon | slashes
  · have isSemicolon : first.character = ';' := of_decide_eq_true semicolon
    have notWord : isWordCharacter ';' = false := by decide +kernel
    have quiet := reading_silent ending (some first.position) silent
    have passed : source.advancing none body.length (body ++ rest) = [] :=
      advancing_nil ending none body.length fun mark member => silent mark (List.mem_of_mem_tail member)
    refine ⟨by rw [isSemicolon]; decide, .lineComment, rfl, ?_⟩
    simp only [lexeme, isSemicolon, notWord, length, quiet, passed]
    rfl
  · obtain ⟨slash, second⟩ := Bool.and_eq_true_iff.mp slashes
    have isSlash : first.character = '/' := of_decide_eq_true slash
    have notWord : isWordCharacter '/' = false := by decide +kernel
    have passed : source.advancing first.position (body.length + 1) (first :: (body ++ rest)) = [] :=
      advancing_nil ending _ _ silent
    have both : ((body ++ rest).head?.map Mark.character == some '/') = true := by
      cases body with
      | nil => cases second
      | cons => exact second
    refine ⟨by rw [isSlash]; decide, .comment, rfl, ?_⟩
    simp only [lexeme, isSlash, notWord, both, length, passed]
    rfl

/-- A comment between `/*` and `*/` is taken up to its end, which is the first one behind the opening. Line feeds in
it do not matter. -/
theorem comment_lexeme {first second : Mark} {body rest : List Mark} (slash : first.character = '/')
    (star : second.character = '*') (closes : commentLength body = some body.length)
    (silent : Silent (second :: body ++ rest)) :
    source.lexeme first (second :: body ++ rest) =
      (.comment, { length := (second :: body).length, complaints := [] }) := by
  have notWord : isWordCharacter '/' = false := by decide +kernel
  have found : commentLength (body ++ rest) = some body.length := comment_length_append closes rest
  have passed : source.advancing first.position (body.length + 1 + 1) (first :: (second :: body ++ rest)) = [] :=
    advancing_nil ending _ _ silent
  simp only [List.cons_append] at passed
  simp only [lexeme, slash, notWord, List.cons_append, List.head?_cons, Option.map_some, star, List.tail_cons, found,
    passed]
  rfl

/-- A mark that stands alone is a token of its own. It starts neither a word nor a literal nor a comment. -/
theorem mark_lexeme {first : Mark} {rest : List Mark} (alone : StandsAlone first rest) (silent : Silent rest) :
    source.lexeme first rest = (.token (.mark first.character), { length := 0, complaints := [] }) := by
  obtain ⟨_, notWord, notQuote, notSemicolon, noComment⟩ := alone
  have passed : source.advancing first.position 1 (first :: rest) = [] := advancing_nil ending _ _ silent
  have apart (character : Char) (either : character = '/' ∨ character = '*') :
      (decide (first.character = '/') && (rest.head?.map Mark.character == some character)) = false := by
    rw [Bool.and_eq_false_imp]
    intro slash
    cases rest with
    | nil => rfl
    | cons second others =>
      obtain ⟨notSlash, notStar⟩ := noComment (of_decide_eq_true slash) second rfl
      rcases either with rfl | rfl
      · simp [notSlash]
      · simp [notStar]
  simp only [lexeme, notWord, notQuote, notSemicolon, apart '/' (.inl rfl), apart '*' (.inr rfl), passed]
  rfl

/-- Marks of the grammar are read as their tokens, without complaints. The induction is on the pieces, each of which
is what the reader takes there. -/
theorem Scans.give {marks : List Mark} {tokens : List Token} (scans : Scans marks tokens) (silent : Silent marks)
    (anchor : Option Position) : Give (source.itemsAfter 0 anchor marks) tokens := by
  induction scans generalizing anchor with
  | nil => exact ⟨by simp [itemsAfter], rfl⟩
  | blank blank later ih =>
    obtain ⟨_, behind⟩ := List.forall_mem_cons.mp silent
    obtain ⟨quiet, same⟩ := ih behind anchor
    rw [itemsAfter]
    simp only [blank, if_true, reading_silent ending anchor behind]
    exact ⟨List.forall_mem_cons.mpr ⟨rfl, quiet⟩, same⟩
  | word wordly apart later ih =>
    obtain ⟨_, behind⟩ := List.forall_mem_cons.mp silent
    have notBlank := (word_character_apart (wordly _ List.mem_cons_self)).2.2.1
    exact give_lexeme notBlank (word_lexeme ending wordly apart behind) (ih (List.forall_mem_append.mp behind).2) anchor
  | quoted opens closes later ih =>
    obtain ⟨_, behind⟩ := List.forall_mem_cons.mp silent
    have notBlank : isBlank '\'' = false := by decide
    rw [← opens] at notBlank
    exact give_lexeme notBlank (quoted_lexeme ending opens closes behind) (ih (List.forall_mem_append.mp behind).2) anchor
  | lineComment opens within ends later ih =>
    obtain ⟨_, behind⟩ := List.forall_mem_cons.mp silent
    obtain ⟨notBlank, kind, none, taken⟩ := line_comment_lexeme ending opens within ends behind
    have read := give_lexeme notBlank taken (ih (List.forall_mem_append.mp behind).2) anchor
    rwa [none] at read
  | comment slash star closes later ih =>
    obtain ⟨_, behind⟩ := List.forall_mem_cons.mp silent
    have notBlank : isBlank '/' = false := by decide
    rw [← slash] at notBlank
    exact give_lexeme notBlank (comment_lexeme ending slash star closes behind) (ih (List.forall_mem_append.mp behind).2)
      anchor
  | @mark first rest tokens alone later ih =>
    obtain ⟨_, behind⟩ := List.forall_mem_cons.mp silent
    have taken : source.lexeme first ([] ++ rest) = _ := mark_lexeme ending alone behind
    exact give_lexeme alone.notBlank taken (ih behind) anchor

end Reading

/-! ## Sources -/

/-- The marks behind a byte order mark at the start. -/
def afterOrderMark : List Mark → List Mark
  | [] => []
  | first :: rest => if first.character = byteOrderMark then rest else first :: rest

/-- A byte order mark at the start is in front of all that follows another character. So the marks behind such a
character can be changed without looking at it. -/
theorem after_order_mark_append (before : List Mark) {mark : Mark} (other : mark.character ≠ byteOrderMark)
    (rest : List Mark) : afterOrderMark (before ++ mark :: rest) = afterOrderMark before ++ mark :: rest := by
  cases before with
  | nil => exact if_neg other
  | cons first others =>
    rw [List.cons_append, afterOrderMark, afterOrderMark]
    split
    · rfl
    · rfl

/-- Marks behind a byte order mark are among all marks, in the same order. -/
theorem after_order_mark_sublist (marks : List Mark) : (afterOrderMark marks).Sublist marks := by
  cases marks with
  | nil => exact .slnil
  | cons first rest =>
    rw [afterOrderMark]
    split
    · exact List.sublist_cons_self first rest
    · exact .refl _

/-- The items of a source are without complaints exactly if its marks are silent and those of the grammar. The tokens
are then those of the grammar, which therefore reads marks in one way only. -/
theorem items_give_iff {source : Source} (ending : source.stopComplaints = []) (tokens : List Token) :
    Give source.items tokens ↔ Silent source.marks ∧ Scans (afterOrderMark source.marks) tokens := by
  have start (marks : List Mark) (first : source.reading none marks = []) : Silent (marks.take 1) :=
    source.silent_take_succ none 0 marks first (by simp [Silent])
  constructor
  · rintro ⟨quiet, rfl⟩
    unfold items at quiet ⊢
    rw [List.forall_mem_cons] at quiet
    obtain ⟨first, quiet⟩ := quiet
    cases marks : source.marks with
    | nil => exact ⟨by simp [Silent], .nil⟩
    | cons mark rest =>
      rw [marks] at first quiet
      rw [afterOrderMark]
      by_cases isOrderMark : mark.character = byteOrderMark
      · simp only [if_pos isOrderMark, List.forall_mem_cons] at quiet ⊢
        have silent := source.silent_of_quiet 0 none rest (start rest quiet.1) quiet.2
        exact ⟨List.forall_mem_cons.mpr ⟨start (mark :: rest) first mark List.mem_cons_self, silent⟩,
          source.scans_of_quiet 0 none rest quiet.2⟩
      · simp only [if_neg isOrderMark] at quiet ⊢
        exact ⟨source.silent_of_quiet 0 none _ (start _ first) quiet, source.scans_of_quiet 0 none _ quiet⟩
  · rintro ⟨silent, scans⟩
    unfold items
    rw [reading_silent ending none silent]
    cases marks : source.marks with
    | nil =>
      rw [marks] at scans
      cases scans
      exact ⟨by simp, rfl⟩
    | cons mark rest =>
      rw [marks] at silent scans
      rw [afterOrderMark] at scans
      by_cases isOrderMark : mark.character = byteOrderMark
      · obtain ⟨_, behind⟩ := List.forall_mem_cons.mp silent
        rw [if_pos isOrderMark] at scans
        obtain ⟨quiet, same⟩ := scans.give ending behind none
        simp only [if_pos isOrderMark, reading_silent ending none behind]
        exact ⟨List.forall_mem_cons.mpr ⟨rfl, List.forall_mem_cons.mpr ⟨rfl, quiet⟩⟩, same⟩
      · rw [if_neg isOrderMark] at scans
        obtain ⟨quiet, same⟩ := scans.give ending silent none
        simp only [if_neg isOrderMark]
        exact ⟨List.forall_mem_cons.mpr ⟨rfl, quiet⟩, same⟩

/-- The line of the given tokens, unless it is empty. -/
def lineOf (tokens : List Token) : List Grammar.Line := if tokens = [] then [] else [tokens]

/-- Tokens in lines, with the given ones in front of the first line. -/
def linesOf (current : List Token) : List Token → List Grammar.Line
  | [] => lineOf current
  | token :: rest =>
    if token.kind = .mark '\n' then lineOf current ++ linesOf [] rest else linesOf (current ++ [token]) rest

/-- Items without complaints are gathered into the lines of their tokens. A line ends at a newline, and empty lines
are left out. -/
theorem gather_give {items : List Item} {tokens : List Token} (give : Give items tokens) (current : List Token) :
    (gather [] current items).Quiet ∧ (gather [] current items).lines.map TokenLine.tokens = linesOf current tokens := by
  induction items generalizing current tokens with
  | nil =>
    obtain rfl : [] = tokens := give.2
    cases current with
    | nil => exact ⟨⟨rfl, by simp [gather]⟩, rfl⟩
    | cons first rest => exact ⟨⟨rfl, by simp [gather]⟩, rfl⟩
  | cons item items ih =>
    obtain ⟨token, complaints⟩ := item
    obtain ⟨quiet, same⟩ := give
    obtain ⟨rfl, others⟩ := List.forall_mem_cons.mp quiet
    cases token with
    | none =>
      rw [gather_nothing]
      exact ih ⟨others, same⟩ current
    | some token =>
      obtain rfl : token :: items.filterMap Item.token = tokens := same
      by_cases isNewline : token.kind = .mark '\n'
      · obtain ⟨behind, lines⟩ := ih ⟨others, rfl⟩ []
        rw [linesOf, if_pos isNewline]
        cases current with
        | nil =>
          have passed : gather [] [] ({ token := some token, complaints := [] } :: items) = gather [] [] items := by
            rw [gather.eq_def]
            exact if_pos isNewline
          rw [passed]
          exact ⟨behind, lines⟩
        | cons first rest =>
          rw [gather_newline first rest isNewline]
          exact ⟨⟨behind.1, List.forall_mem_cons.mpr ⟨rfl, behind.2⟩⟩, congrArg ((first :: rest) :: ·) lines⟩
      · rw [linesOf, if_neg isNewline, gather_token current isNewline]
        exact ih ⟨others, rfl⟩ (current ++ [token])

end Source

end IntegerMachine
