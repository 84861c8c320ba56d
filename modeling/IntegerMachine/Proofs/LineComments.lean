import IntegerMachine.Proofs.MovedPositions
import IntegerMachine.Proofs.PlacedMarks
import IntegerMachine.Proofs.TokenGrammar

/-!
# Line comments are not seen

A semicolon and any characters behind it can be put in front of a line feed, wherever the line feed is read as such: the
source gives the same tree, with the same lines and columns. Only the offsets behind the comment grow by its length.

What stands in front of the line feed is read as before. It is in no word and in no character literal, and a comment that
reaches up to it only gets longer. The one thing that a line feed can be inside of is a comment between `/*` and `*/`;
there it is no token.
-/
namespace IntegerMachine

namespace Source

/-- Whether the line feed at an offset is read as a token of its own. -/
def readsNewlineAt (source : Source) (offset : Nat) : Bool :=
  source.items.any fun item =>
    item.token.any fun token => decide (token.kind = .mark '\n') && token.position.offset == offset

/-! ## Tokens come from marks -/

/-- A token that is a single mark is one of the marks. In particular, a line feed among the tokens stands in the
source, at the place that the token has. -/
theorem Scans.mark_of_token {marks : List Mark} {tokens : List Token} (scans : Scans marks tokens) {token : Token}
    (listed : token ∈ tokens) {character : Char} (kind : token.kind = .mark character) :
    ∃ mark ∈ marks, mark.character = character ∧ token = tokenOf (.mark character) mark [] := by
  induction scans with
  | nil => cases listed
  | blank blank later ih =>
    obtain ⟨mark, member, found⟩ := ih listed
    exact ⟨mark, List.mem_cons_of_mem _ member, found⟩
  | word _ _ _ ih | quoted _ _ _ ih =>
    rcases List.mem_cons.mp listed with rfl | behind
    · cases kind
    · obtain ⟨mark, member, found⟩ := ih behind
      exact ⟨mark, List.mem_cons_of_mem _ (List.mem_append_right _ member), found⟩
  | lineComment _ _ _ _ ih | comment _ _ _ _ ih =>
    obtain ⟨mark, member, found⟩ := ih listed
    exact ⟨mark, List.mem_cons_of_mem _ (List.mem_append_right _ member), found⟩
  | @mark first rest tokens alone later ih =>
    rcases List.mem_cons.mp listed with rfl | behind
    · cases kind
      exact ⟨first, List.mem_cons_self, rfl, rfl⟩
    · obtain ⟨mark, member, found⟩ := ih behind
      exact ⟨mark, List.mem_cons_of_mem _ member, found⟩

section Moved

variable (move : Position → Position)

/-- A token of moved marks is the moved token. Its text comes from the glyphs, and its place from the first mark. -/
theorem token_of_moved (kind : TokenKind) (first : Mark) (body : List Mark) :
    (tokenOf kind first body).moved move = tokenOf kind (first.moved move) (body.map (Mark.moved move)) := by
  have text : textOf ((first :: body).map (Mark.moved move)) = textOf (first :: body) := List.flatMap_map ..
  rw [List.map_cons] at text
  rw [tokenOf, tokenOf, text]
  rfl

/-- Moved marks start with the same character. The conditions on what may stand behind a token are of this kind. -/
theorem head_moved (holds : Char → Prop) {marks : List Mark} (head : ∀ mark ∈ marks.head?, holds mark.character) :
    ∀ mark ∈ (marks.map (Mark.moved move)).head?, holds mark.character := by
  cases marks with
  | nil => exact head
  | cons first rest =>
    rintro _ ⟨⟩
    exact head first rfl

/-- The end of a comment is where it was, counted in marks. -/
theorem comment_length_moved (marks : List Mark) : commentLength (marks.map (Mark.moved move)) = commentLength marks := by
  induction marks with
  | nil => rfl
  | cons first rest ih =>
    rw [List.map_cons, commentLength, ih, List.head?_map, Option.map_map, commentLength]
    rfl

/-- The place of marks does not matter to how they are read. There is one case for each kind of piece, and all
conditions of the scanner are about characters. -/
theorem Scans.moved {marks : List Mark} {tokens : List Token} (scans : Scans marks tokens) :
    Scans (marks.map (Mark.moved move)) (tokens.map (Token.moved move)) := by
  induction scans with
  | nil => exact .nil
  | blank blank later ih => exact .blank blank ih
  | word wordly apart later ih =>
    rw [List.map_cons, List.map_append, List.map_cons, token_of_moved]
    refine .word ?_ (head_moved move (isWordCharacter · = false) apart) ih
    rw [← List.map_cons]
    exact List.forall_mem_map.mpr wordly
  | quoted opens closes later ih =>
    rw [List.map_cons, List.map_append, List.map_cons, token_of_moved]
    refine .quoted opens ?_ ih
    rw [List.map_map]
    exact closes
  | lineComment opens within ends later ih =>
    rw [List.map_cons, List.map_append]
    refine .lineComment ?_ (List.forall_mem_map.mpr within) (head_moved move (· = '\n') ends) ih
    rw [opensLineComment, List.head?_map, Option.map_map]
    exact opens
  | comment slash star closes later ih =>
    rw [List.map_cons, List.map_append]
    refine .comment slash star ?_ ih
    rw [comment_length_moved, List.length_map]
    exact closes
  | mark alone later ih =>
    obtain ⟨notBlank, notWord, notQuote, notSemicolon, noComment⟩ := alone
    rw [List.map_cons, List.map_cons, token_of_moved]
    refine .mark ⟨notBlank, notWord, notQuote, notSemicolon, ?_⟩ ih
    intro slash
    exact head_moved move (fun character => character ≠ '/' ∧ character ≠ '*') (noComment slash)

end Moved

/-! ## Putting in a comment -/

/-- An element that is not in the first part of a list is in the second one. It is used for the line feed, which is in
no piece in front of it. -/
theorem split_behind {Element : Type} {piece rest before after : List Element} {element : Element}
    (outside : element ∉ piece) (split : piece ++ rest = before ++ element :: after) :
    ∃ middle, before = piece ++ middle ∧ rest = middle ++ element :: after := by
  rcases List.append_eq_append_iff.mp split with ⟨middle, isBefore, isRest⟩ | ⟨middle, isPiece, isRest⟩
  · exact ⟨middle, isBefore, isRest⟩
  · cases middle with
    | nil =>
      rw [List.append_nil] at isPiece
      exact ⟨[], by rw [isPiece, List.append_nil], isRest.symm⟩
    | cons first middle =>
      obtain ⟨rfl, _⟩ := List.cons.inj isRest
      exact absurd (isPiece ▸ List.mem_append_right before List.mem_cons_self) outside

/-- The first of the elements in front of a place is the same whatever follows, if there is one. If there is none,
what follows must itself be allowed there. -/
theorem head_replaced {Element : Type} (holds : Element → Prop) {before after others : List Element}
    {element other : Element} (head : ∀ first ∈ (before ++ element :: after).head?, holds first) (instead : holds other) :
    ∀ first ∈ (before ++ other :: others).head?, holds first := by
  cases before with
  | nil =>
    rintro _ ⟨⟩
    exact instead
  | cons first before => exact head

/-- A line feed is a token of its own, whatever follows. It is no blank, and it starts neither a word nor a
comment. -/
theorem newline_alone {newline : Mark} (isNewline : newline.character = '\n') (rest : List Mark) :
    StandsAlone newline rest := by
  have notWord : isWordCharacter '\n' = false := by decide +kernel
  constructor
  · rw [isNewline]
    decide
  · rw [isNewline]
    exact notWord
  · rw [isNewline]
    decide
  · rw [isNewline]
    decide
  · intro slash
    rw [isNewline] at slash
    exact absurd slash (by decide)

/-- A line feed in front of marks is read first. -/
theorem Scans.newline {newline : Mark} (isNewline : newline.character = '\n') {rest : List Mark} {tokens : List Token}
    (later : Scans rest tokens) : Scans (newline :: rest) (tokenOf (.mark '\n') newline [] :: tokens) := by
  have read := Scans.mark (newline_alone isNewline rest) later
  rwa [isNewline] at read

/-- Marks that start with a line feed are read as such and as what follows. No other kind of piece starts with one. -/
theorem Scans.newline_first {newline : Mark} {rest : List Mark} {tokens : List Token}
    (scans : Scans (newline :: rest) tokens) (isNewline : newline.character = '\n') :
    ∃ later, tokens = tokenOf (.mark '\n') newline [] :: later ∧ Scans rest later := by
  have alone := newline_alone isNewline rest
  cases scans with
  | blank blank later => exact absurd blank (Bool.eq_false_iff.mp alone.notBlank)
  | word wordly apart later => exact absurd (wordly newline List.mem_cons_self) (Bool.eq_false_iff.mp alone.notWord)
  | quoted opens closes later => exact absurd opens alone.notQuote
  | lineComment opens within ends later => simp [opensLineComment, isNewline] at opens
  | comment slash star closes later => simp [isNewline] at slash
  | @mark _ _ tokens _ later => exact ⟨tokens, by rw [isNewline], later⟩

/-- A comment that is put in front of a line feed: a semicolon, marks without line feeds, and the line feed. -/
structure Inserted where
  semicolon : Mark
  body : List Mark
  newline : Mark
  opens : semicolon.character = ';'
  within : ∀ mark ∈ body, mark.character ≠ '\n'
  ends : newline.character = '\n'

/-- The marks of the comment and its line feed, in front of others. -/
def Inserted.marks (inserted : Inserted) (rest : List Mark) : List Mark :=
  inserted.semicolon :: (inserted.body ++ inserted.newline :: rest)

/-- The comment ends at a line feed, which is what a comment behind a semicolon needs. -/
theorem Inserted.at_line_end (inserted : Inserted) (rest : List Mark) : AtLineEnd (inserted.newline :: rest) := by
  rintro _ ⟨⟩
  exact inserted.ends

/-- The token of a line feed. -/
def newlineToken (newline : Mark) : Token := tokenOf (.mark '\n') newline []

section Insert

variable (inserted : Inserted)

/-- A comment to the end of the line takes another one into it. It does not matter that the other one has a semicolon
of its own. -/
theorem Scans.prolonged {first : Mark} {body rest : List Mark} {tokens : List Token}
    (opens : opensLineComment first body = true) (within : ∀ mark ∈ body, mark.character ≠ '\n')
    (later : Scans rest tokens) :
    Scans (first :: (body ++ inserted.marks rest)) (newlineToken inserted.newline :: tokens) := by
  have notNewline : inserted.semicolon.character ≠ '\n' := by
    rw [inserted.opens]
    decide
  have longer : ∀ mark ∈ body ++ inserted.semicolon :: inserted.body, mark.character ≠ '\n' :=
    List.forall_mem_append.mpr ⟨within, List.forall_mem_cons.mpr ⟨notNewline, inserted.within⟩⟩
  have stillOpens : opensLineComment first (body ++ inserted.semicolon :: inserted.body) = true := by
    cases body with
    | cons second others => exact opens
    | nil => simpa [opensLineComment, inserted.opens] using opens
  have whole : body ++ inserted.marks rest = (body ++ inserted.semicolon :: inserted.body) ++ inserted.newline :: rest := by
    rw [List.append_assoc]
    rfl
  rw [whole]
  exact .lineComment stillOpens longer (inserted.at_line_end rest) (.newline inserted.ends later)

/-- A comment is passed over up to its line feed. -/
theorem Scans.commented {rest : List Mark} {tokens : List Token} (later : Scans rest tokens) :
    Scans (inserted.marks rest) (newlineToken inserted.newline :: tokens) := by
  have opens : opensLineComment inserted.semicolon inserted.body = true := by simp [opensLineComment, inserted.opens]
  exact .lineComment opens inserted.within (inserted.at_line_end rest) (.newline inserted.ends later)

omit inserted

/-- Marks behind others stand one behind the other as well, with growing offsets. -/
theorem Ordered.behind (piece : List Mark) {rest : List Mark} (ordered : Ordered (piece ++ rest)) : Ordered rest :=
  (List.pairwise_append.mp ordered).2.1

/-- A line feed among tokens is not one of another kind in front of them, so that it is found behind it. -/
theorem newline_behind {kind : TokenKind} (other : kind ≠ .mark '\n') {first newline : Mark} {body : List Mark}
    {tokens : List Token} (listed : newlineToken newline ∈ tokenOf kind first body :: tokens) :
    newlineToken newline ∈ tokens := by
  apply List.mem_of_ne_of_mem _ listed
  intro same
  exact other (congrArg Token.kind same).symm

/-- A line feed that is read as a token is no mark in front of those that the token is read from. Offsets grow, so no
mark occurs twice. -/
theorem Scans.newline_outside {piece rest : List Mark} {tokens : List Token} (scans : Scans rest tokens)
    (ordered : Ordered (piece ++ rest)) {newline : Mark} (listed : newlineToken newline ∈ tokens) : newline ∉ piece := by
  intro inside
  obtain ⟨mark, member, _, same⟩ := scans.mark_of_token listed rfl
  have apart := (List.pairwise_append.mp ordered).2.2 newline inside mark member
  have place : newline.position = mark.position := congrArg Token.position same
  rw [place] at apart
  exact Nat.lt_irrefl _ apart

include inserted

/-- A comment can be put in front of a line feed that is read as a token. The induction is on the pieces. In front of
the line feed they stay as they are; a comment that ends at the line feed takes the new one into it. -/
theorem Scans.insert {marks : List Mark} {tokens : List Token} (scans : Scans marks tokens) (ordered : Ordered marks)
    {before after : List Mark} {newline : Mark} (isNewline : newline.character = '\n')
    (split : marks = before ++ newline :: after) (listed : newlineToken newline ∈ tokens) :
    ∃ earlier later, tokens = earlier ++ newlineToken newline :: later ∧
      Scans (before ++ inserted.marks after) (earlier ++ newlineToken inserted.newline :: later) := by
  induction scans generalizing before with
  | nil => cases listed
  | @blank mark rest tokens blank later ih =>
    have outside : newline ∉ [mark] := later.newline_outside ordered listed
    obtain ⟨middle, rfl, rfl⟩ := split_behind outside split
    obtain ⟨earlier, others, rfl, read⟩ := ih (Ordered.behind [mark] ordered) rfl listed
    exact ⟨earlier, others, rfl, .blank blank read⟩
  | @word first body rest tokens wordly apart later ih =>
    have inTail := newline_behind (by decide : TokenKind.word ≠ .mark '\n') listed
    have outside : newline ∉ first :: body := later.newline_outside ordered inTail
    obtain ⟨middle, rfl, rfl⟩ := split_behind outside split
    obtain ⟨earlier, others, rfl, read⟩ := ih (Ordered.behind (first :: body) ordered) rfl inTail
    have notWord : isWordCharacter ';' = false := by decide +kernel
    rw [← inserted.opens] at notWord
    refine ⟨tokenOf .word first body :: earlier, others, rfl, ?_⟩
    rw [List.append_assoc]
    exact .word wordly (head_replaced (fun mark : Mark => isWordCharacter mark.character = false) apart notWord) read
  | @quoted first body rest tokens opens closes later ih =>
    have inTail := newline_behind (by decide : TokenKind.quoted ≠ .mark '\n') listed
    have outside : newline ∉ first :: body := later.newline_outside ordered inTail
    obtain ⟨middle, rfl, rfl⟩ := split_behind outside split
    obtain ⟨earlier, others, rfl, read⟩ := ih (Ordered.behind (first :: body) ordered) rfl inTail
    refine ⟨tokenOf .quoted first body :: earlier, others, rfl, ?_⟩
    rw [List.append_assoc]
    exact .quoted opens closes read
  | @lineComment first body rest tokens opens within ends later ih =>
    have outside : newline ∉ first :: body := later.newline_outside ordered listed
    obtain ⟨middle, rfl, rfl⟩ := split_behind outside split
    rw [List.append_assoc]
    cases middle with
    | nil =>
      obtain ⟨others, rfl, behind⟩ := later.newline_first isNewline
      exact ⟨[], others, rfl, behind.prolonged inserted opens within⟩
    | cons next middle =>
      obtain ⟨earlier, others, rfl, read⟩ := ih (Ordered.behind (first :: body) ordered) rfl listed
      exact ⟨earlier, others, rfl, .lineComment opens within ends read⟩
  | @comment first second body rest tokens slash star closes later ih =>
    have outside : newline ∉ first :: second :: body := later.newline_outside ordered listed
    obtain ⟨middle, rfl, rfl⟩ := split_behind outside split
    obtain ⟨earlier, others, rfl, read⟩ := ih (Ordered.behind (first :: second :: body) ordered) rfl listed
    refine ⟨earlier, others, rfl, ?_⟩
    rw [List.append_assoc]
    exact .comment slash star closes read
  | @mark first rest tokens alone later ih =>
    cases before with
    | nil =>
      obtain ⟨rfl, rfl⟩ := List.cons.inj split
      refine ⟨[], tokens, ?_, later.commented inserted⟩
      rw [isNewline]
      rfl
    | cons other before =>
      obtain ⟨rfl, rfl⟩ := List.cons.inj split
      have inTail : newlineToken newline ∈ tokens := by
        rcases List.mem_cons.mp listed with same | behind
        · have apart := (List.pairwise_cons.mp ordered).1 newline (List.mem_append_right _ List.mem_cons_self)
          have place : newline.position = first.position := congrArg Token.position same
          rw [place] at apart
          exact absurd apart (Nat.lt_irrefl _)
        · exact behind
      obtain ⟨earlier, others, rfl, read⟩ := ih (Ordered.behind [first] ordered) rfl inTail
      obtain ⟨notBlank, notWord, notQuote, notSemicolon, noComment⟩ := alone
      have apart : inserted.semicolon.character ≠ '/' ∧ inserted.semicolon.character ≠ '*' := by
        rw [inserted.opens]
        decide
      refine ⟨tokenOf (.mark first.character) first [] :: earlier, others, rfl, ?_⟩
      refine .mark ⟨notBlank, notWord, notQuote, notSemicolon, ?_⟩ read
      intro slash
      exact head_replaced (fun mark : Mark => mark.character ≠ '/' ∧ mark.character ≠ '*') (noComment slash) apart

end Insert

/-! ## Lines of tokens -/

/-- Lines of moved tokens are moved lines. Tokens are put into lines by their kinds. -/
theorem lines_of_moved (move : Position → Position) (current tokens : List Token) :
    linesOf (current.map (Token.moved move)) (tokens.map (Token.moved move)) =
      (linesOf current tokens).map (Grammar.Line.moved move) := by
  have single (line : List Token) : lineOf (line.map (Token.moved move)) = (lineOf line).map (Grammar.Line.moved move) := by
    cases line with
    | nil => rfl
    | cons first rest => rfl
  induction tokens generalizing current with
  | nil => exact single current
  | cons token rest ih =>
    have sameKind : (token.moved move).kind = token.kind := rfl
    rw [List.map_cons, linesOf, linesOf, sameKind]
    by_cases isNewline : token.kind = .mark '\n'
    · rw [if_pos isNewline, if_pos isNewline, List.map_append, single, ← ih]
      rfl
    · rw [if_neg isNewline, if_neg isNewline, ← ih, List.map_append]
      rfl

/-- It does not matter to the lines which line feed ends them, since the line feed itself belongs to no line. -/
theorem lines_of_newline {newline other : Mark} (earlier later current : List Token) :
    linesOf current (earlier ++ newlineToken newline :: later) = linesOf current (earlier ++ newlineToken other :: later) := by
  induction earlier generalizing current with
  | nil => rfl
  | cons token rest ih =>
    rw [List.cons_append, List.cons_append, linesOf, linesOf, ih, ih]

/-! ## Sources -/

/-- A line feed that is read at an offset is a token of the source with this offset. -/
theorem newline_token_of_reads {source : Source} {offset : Nat} (reads : source.readsNewlineAt offset = true) :
    ∃ token ∈ source.items.filterMap Item.token, token.kind = .mark '\n' ∧ token.position.offset = offset := by
  obtain ⟨item, listed, read⟩ := List.any_eq_true.mp reads
  obtain ⟨token, isToken, matching⟩ := (Option.any_eq_true _ _).mp read
  simp only [Bool.and_eq_true, decide_eq_true_eq, beq_iff_eq] at matching
  exact ⟨token, List.mem_filterMap.mpr ⟨item, listed, isToken⟩, matching⟩

section Comment

variable (earlier comment later : List Char)

/-- The mark of the line feed behind the characters in front of it. -/
def lineFeed : Mark := { glyph := .char '\n', position := behind .start earlier, complaints := [] }

/-- A comment of the given characters, behind those in front of it. -/
def commentBehind (within : ∀ character ∈ comment, character ≠ '\n') : Inserted :=
  let start := behind .start earlier
  let inside := start.after (.char ';')
  { semicolon := { glyph := .char ';', position := start, complaints := [] }
    body := placed inside comment
    newline := { glyph := .char '\n', position := behind inside comment, complaints := [] }
    opens := rfl
    within := fun _ member => within _ (placed_character member)
    ends := rfl }

/-- Where places go when a comment is put in behind characters. -/
def commentPush : Position → Position :=
  Position.pushed (behind .start earlier).offset ((Text.ofCharacters comment).length + 1)

/-- The marks around a line feed: those in front of it, its own, and those of the line that follows. -/
theorem placed_around : placed .start (earlier ++ '\n' :: later) =
    placed .start earlier ++ lineFeed earlier :: placed ((behind .start earlier).after (.char '\n')) later := by
  rw [placed_append]
  rfl

/-- The line behind a comment starts at the same place as without it, but for the offset. A comment has no line feed,
so that it is on one line, and the next line starts at its first column in any case. -/
theorem line_start_pushed (position : Position) {comment : List Char} (within : ∀ character ∈ comment, character ≠ '\n') :
    (behind (position.after (.char ';')) comment).after (.char '\n') =
      (position.after (.char '\n')).pushed position.offset ((Text.ofCharacters comment).length + 1) := by
  have newline (place : Position) :
      place.after (.char '\n') = { line := place.line + 1, column := 1, offset := place.offset + 1 } := rfl
  have sameLine : (behind (position.after (.char ';')) comment).line = position.line := line_behind _ within
  have offset : (behind (position.after (.char ';')) comment).offset =
      position.offset + 1 + (Text.ofCharacters comment).length := offset_behind _ comment
  rw [newline, newline, sameLine, offset, Position.pushed, if_pos (Nat.le_succ _)]
  rfl

/-- The marks around a comment, those behind it being pushed by its length, and those in front of it staying where
they are. -/
theorem placed_commented (within : ∀ character ∈ comment, character ≠ '\n') :
    placed .start (earlier ++ ';' :: (comment ++ '\n' :: later)) =
      placed .start earlier ++ (commentBehind earlier comment within).marks
        ((placed ((behind .start earlier).after (.char '\n')) later).map (Mark.moved (commentPush earlier comment))) := by
  have further : (behind .start earlier).offset ≤ ((behind .start earlier).after (.char '\n')).offset := by
    rw [offset_after]
    omega
  rw [placed_append, placed, placed_append, placed, line_start_pushed _ within, commentPush, placed_pushed _ further]
  rfl

section Tokens

variable {earlier comment later} (legible : ∀ character ∈ earlier ++ '\n' :: later, character.toNat ≠ 0)
  {tokens : List Token} (give : Give (ofText (.ofCharacters (earlier ++ '\n' :: later))).items tokens)

include legible give

/-- The marks around a line feed, behind a byte order mark, are those of the grammar. -/
theorem scans_around : Scans (afterOrderMark (placed .start earlier) ++ lineFeed earlier ::
    placed ((behind .start earlier).after (.char '\n')) later) tokens := by
  obtain ⟨_, scans⟩ := (items_give_iff rfl tokens).mp give
  have other : (lineFeed earlier).character ≠ byteOrderMark := (by decide : '\n' ≠ byteOrderMark)
  rwa [marks_of_encoded legible, placed_around, after_order_mark_append _ other] at scans

/-- A line feed that is read behind the characters in front of it is the one at that place, as there is only one mark
with this offset. -/
theorem newline_listed
    (reads : (ofText (.ofCharacters (earlier ++ '\n' :: later))).readsNewlineAt (Text.ofCharacters earlier).length = true) :
    newlineToken (lineFeed earlier) ∈ tokens := by
  obtain ⟨token, listed, kind, place⟩ := newline_token_of_reads reads
  rw [give.2] at listed
  obtain ⟨mark, member, _, rfl⟩ := (scans_around legible give).mark_of_token listed kind
  have offset : mark.position.offset = (behind .start earlier).offset := by
    rw [offset_behind]
    exact place.trans (Nat.zero_add _).symm
  rcases List.mem_append.mp member with before | here
  · have bounded := (placed_ordered .start earlier).2 mark ((after_order_mark_sublist _).subset before)
    omega
  · rcases List.mem_cons.mp here with rfl | after
    · exact listed
    · have bounded := (placed_ordered _ later).2 mark after
      rw [offset_after] at bounded
      have filled : 0 < (Text.ofChar '\n').length := by decide
      omega

/-- With a comment put in, the tokens are the same at pushed places, but for the line feed behind the comment. The
lines that they form are therefore the same. -/
theorem give_commented (within : ∀ character ∈ comment, character ≠ '\n')
    (legibleComment : ∀ character ∈ comment, character.toNat ≠ 0) (listed : newlineToken (lineFeed earlier) ∈ tokens) :
    ∃ others, Give (ofText (.ofCharacters (earlier ++ ';' :: (comment ++ '\n' :: later)))).items others ∧
      linesOf [] others = (linesOf [] tokens).map (Grammar.Line.moved (commentPush earlier comment)) := by
  have front : (afterOrderMark (placed .start earlier)).map (Mark.moved (commentPush earlier comment)) =
      afterOrderMark (placed .start earlier) := by
    apply pushed_before
    intro mark member
    exact ((placed_ordered .start earlier).2 mark ((after_order_mark_sublist _).subset member)).2
  have ordered : Ordered ((afterOrderMark (placed .start earlier) ++ lineFeed earlier ::
      placed ((behind .start earlier).after (.char '\n')) later).map (Mark.moved (commentPush earlier comment))) := by
    have whole := (placed_ordered .start (earlier ++ '\n' :: later)).1
    rw [placed_around] at whole
    exact Ordered.pushed (whole.sublist ((after_order_mark_sublist _).append (.refl _))) _ _
  have scans := (scans_around legible give).moved (commentPush earlier comment)
  have moved : newlineToken ((lineFeed earlier).moved (commentPush earlier comment)) ∈
      tokens.map (Token.moved (commentPush earlier comment)) := List.mem_map_of_mem listed
  rw [List.map_append, List.map_cons, front] at scans ordered
  obtain ⟨before, after, split, read⟩ := scans.insert (commentBehind earlier comment within) ordered rfl rfl moved
  have marks : (ofText (.ofCharacters (earlier ++ ';' :: (comment ++ '\n' :: later)))).marks =
      placed .start (earlier ++ ';' :: (comment ++ '\n' :: later)) := by
    apply marks_of_encoded
    obtain ⟨legibleEarlier, legibleLater⟩ := List.forall_mem_append.mp legible
    exact List.forall_mem_append.mpr ⟨legibleEarlier,
      List.forall_mem_cons.mpr ⟨by decide, List.forall_mem_append.mpr ⟨legibleComment, legibleLater⟩⟩⟩
  have other : (commentBehind earlier comment within).semicolon.character ≠ byteOrderMark :=
    (by decide : ';' ≠ byteOrderMark)
  refine ⟨before ++ newlineToken (commentBehind earlier comment within).newline :: after,
    (items_give_iff rfl _).mpr ⟨?_, ?_⟩, ?_⟩
  · rw [marks]
    exact placed_silent _ _
  · rw [marks, placed_commented earlier comment later within, Inserted.marks, after_order_mark_append _ other]
    exact read
  · rw [lines_of_newline before after [], ← split, ← lines_of_moved]
    rfl

end Tokens

end Comment

/-- A text without syntax errors is read without complaints, since complaints of the reader are syntax errors. -/
theorem quiet_of_accepted {file text : Text} (accepted : ((ofText text).parse file).2 = []) :
    (ofText text).lines.Quiet :=
  complaints_of_lines _ _ _ ((parse_faultless_iff file _).mp accepted).1

/-- The items of a text without syntax errors are without complaints, and give tokens. -/
theorem give_of_accepted {file text : Text} (accepted : ((ofText text).parse file).2 = []) :
    Give (ofText text).items ((ofText text).items.filterMap Item.token) := by
  have quiet := quiet_of_accepted accepted
  exact ⟨(gather_quiet [] [] _ quiet.1 quiet.2).2, rfl⟩

/-- A text without syntax errors is an encoding of characters other than NUL on either side of a line feed. Other
bytes would have been complained about. -/
theorem characters_of_accepted {file before after : Text}
    (accepted : ((ofText (before ++ "\n" ++ after)).parse file).2 = []) :
    ∃ earlier later, before = .ofCharacters earlier ∧ after = .ofCharacters later ∧
      before ++ "\n" ++ after = .ofCharacters (earlier ++ '\n' :: later) ∧
      ∀ character ∈ earlier ++ '\n' :: later, character.toNat ≠ 0 := by
  obtain ⟨silent, _⟩ := (items_give_iff rfl _).mp (give_of_accepted accepted)
  obtain ⟨encoded, legible⟩ := legible_of_silent silent
  have whole := Text.of_characters_of_utf8 encoded
  have around : Text.ofCharacters (before ++ "\n" ++ after).characters = before ++ Text.byte '\n' :: after := by
    rw [whole, List.append_assoc]
    rfl
  obtain ⟨earlier, later, split, isBefore, isAfter⟩ := Text.split_line_feed around
  rw [split] at whole legible
  exact ⟨earlier, later, isBefore, isAfter, whole.symm, legible⟩

/-- The characters of a comment: neither a line feed nor a NUL. Both are bytes that occur in no other character. -/
theorem comment_characters {comment : Text} (encoded : comment.isUtf8 = true) (within : Text.byte '\n' ∉ comment)
    (noNul : 0 ∉ comment) : ∃ characters, comment = .ofCharacters characters ∧
      (∀ character ∈ characters, character ≠ '\n') ∧ ∀ character ∈ characters, character.toNat ≠ 0 := by
  have whole := Text.of_characters_of_utf8 encoded
  have byteOf {character : Char} (member : character ∈ comment.characters) {byte : UInt8}
      (own : byte ∈ Text.ofChar character) : byte ∈ comment := by
    rw [← whole]
    exact List.mem_flatMap.mpr ⟨character, member, own⟩
  refine ⟨comment.characters, whole.symm, ?_, ?_⟩
  · rintro _ member rfl
    exact within (byteOf member (by decide))
  · intro character member isNul
    obtain rfl : character = '\x00' := Char.toNat_inj.mp isNul
    exact noNul (byteOf member (by decide))

/-- A comment behind a semicolon is not seen: put in front of a line feed that is read as such, it leaves a text
without syntax errors and with the same tree, in which only the offsets behind the comment have grown. Of the comment
it is asked only that it is in UTF-8, without a line feed and without a NUL. -/
theorem line_comment_invisible (file before comment after : Text)
    (accepted : ((ofText (before ++ "\n" ++ after)).parse file).2 = [])
    (newline : (ofText (before ++ "\n" ++ after)).readsNewlineAt before.length = true)
    (encoded : comment.isUtf8 = true) (within : Text.byte '\n' ∉ comment) (noNul : 0 ∉ comment) :
    (ofText (before ++ ";" ++ comment ++ "\n" ++ after)).parse file =
      (((ofText (before ++ "\n" ++ after)).parse file).1.moved (Position.pushed before.length (comment.length + 1)), []) := by
  have quiet := quiet_of_accepted accepted
  have give := give_of_accepted accepted
  have derives := (parse_eq_iff_derives quiet file _).mp (parse_eq file _ accepted)
  obtain ⟨earlier, later, rfl, rfl, original, legible⟩ := characters_of_accepted accepted
  obtain ⟨characters, rfl, noNewline, legibleComment⟩ := comment_characters encoded within noNul
  have commented : Text.ofCharacters earlier ++ ";" ++ Text.ofCharacters characters ++ "\n" ++ Text.ofCharacters later =
      Text.ofCharacters (earlier ++ ';' :: (characters ++ '\n' :: later)) := by
    simp only [Text.ofCharacters, List.flatMap_append, List.flatMap_cons, List.append_assoc]
    rfl
  have push : commentPush earlier characters =
      Position.pushed (Text.ofCharacters earlier).length ((Text.ofCharacters characters).length + 1) := by
    rw [commentPush, offset_behind]
    exact congrArg (fun start => Position.pushed start _) (Nat.zero_add _)
  rw [original] at give newline quiet derives
  obtain ⟨others, giveOthers, lines⟩ :=
    give_commented legible give noNewline legibleComment (newline_listed legible give newline)
  obtain ⟨quietOthers, linesOthers⟩ := gather_give giveOthers []
  obtain ⟨_, linesTokens⟩ := gather_give give []
  have moved : (ofText (.ofCharacters (earlier ++ ';' :: (characters ++ '\n' :: later)))).tokenLines =
      (ofText (.ofCharacters (earlier ++ '\n' :: later))).tokenLines.map
        (Grammar.Line.moved (commentPush earlier characters)) := by
    rw [tokenLines, tokenLines]
    exact linesOthers.trans (lines.trans (congrArg _ linesTokens.symm))
  rw [commented, ← push, original]
  apply (parse_eq_iff_derives quietOthers file _).mpr
  rw [moved]
  exact Grammar.derives_moved _ derives

/-- A text up to the end of a line that ends with a comment. -/
def openedLine : Text := ".main
BIPUSH 'a' // push"

/-- A comment with quotes, the start of another comment, a directive and a semicolon in it. -/
def remark : Text := " it's /* no; .end-main é"

/-- The lines behind it. -/
def closingLines : Text := ".end-main
"

/-- The comment can be put in front of the line feed between the others, although it looks like the start of several
other things. -/
theorem remark_unseen : ((ofText (openedLine ++ "\n" ++ closingLines)).parse "p").2 = [] ∧
    (ofText (openedLine ++ "\n" ++ closingLines)).readsNewlineAt openedLine.length = true ∧
    (ofText (openedLine ++ ";" ++ remark ++ "\n" ++ closingLines)).parse "p" =
      (((ofText (openedLine ++ "\n" ++ closingLines)).parse "p").1.moved
        (Position.pushed openedLine.length (remark.length + 1)), []) := by
  have read : ((ofText (openedLine ++ "\n" ++ closingLines)).parse "p").2 = [] ∧
      (ofText (openedLine ++ "\n" ++ closingLines)).readsNewlineAt openedLine.length = true := by decide +kernel
  refine ⟨read.1, read.2, ?_⟩
  apply line_comment_invisible "p" openedLine remark closingLines read.1 read.2
  · decide +kernel
  · decide +kernel
  · decide +kernel

/-- Of two line feeds only the one outside of the comment is read as a token. -/
example : (ofText "/*\n*/\n").readsNewlineAt 2 = false ∧ (ofText "/*\n*/\n").readsNewlineAt 5 = true := by
  decide +kernel

end Source

end IntegerMachine
