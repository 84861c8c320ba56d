import IntegerMachine.Source.Complaint
import IntegerMachine.Text.Digit
import IntegerMachine.Text.Letter

/-!
# Tokens

A source is cut into words, character literals and single characters. Blanks and comments stand between
tokens; a newline is a token of its own. A comment from `/*` to `*/` takes the newlines in it with it. A
semicolon starts a comment that ends in front of the newline.

The reader is always one character ahead. What is wrong with a character (its encoding, a NUL, a failure
of the device behind it) is noticed when it is read, and complained about at the start of the token or
comment that is then being read, or else at the character itself; a failure of the device at the
character before it. Blanks after a comment count as part of the comment in this respect.

A character literal that is not closed ends with its line and takes the newline with it.
-/
namespace IntegerMachine

/-- The kind of a token. -/
inductive TokenKind where
  /-- A name, a directive, an instruction or a number. -/
  | word
  /-- A character literal. -/
  | quoted
  /-- Any other character. -/
  | mark (character : Char)
  deriving DecidableEq, Repr

/-- A token with the bytes it consists of. -/
structure Token where
  kind : TokenKind
  text : Text
  position : Position
  deriving DecidableEq, Repr

namespace Source

/-- A glyph at its place, with what there is to complain about when it is read. -/
structure Mark where
  glyph : Glyph
  position : Position
  complaints : List SyntaxError
  deriving DecidableEq, Repr

/-- The character of a mark. -/
def Mark.character (mark : Mark) : Char := mark.glyph.value

/-- The failure of the device, complained about at the given place. -/
def failureAt (failure : Option Text) (position : Position) : List SyntaxError :=
  (failure.map fun text => { position, complaint := .readFailed text }).toList

/-- What there is to complain about when a glyph is read. To tell that a byte begins a sequence that the
end of the source cuts off, the device has to be asked for more. -/
def complaintsOf (failure : Option Text) (previous position : Position) : Glyph → List SyntaxError
  | .stray _ cut =>
    (if cut then failureAt failure previous else []) ++ [{ position, complaint := .invalidEncoding }]
  | .char character =>
    if character.toNat = 0 then [{ position, complaint := .nulCharacter }] else []

/-- The marks of glyphs that start at a position. -/
def marksFrom (failure : Option Text) (previous position : Position) : List Glyph → List Mark
  | [] => []
  | glyph :: rest =>
    { glyph, position, complaints := complaintsOf failure previous position glyph } ::
      marksFrom failure position (position.after glyph) rest

/-- The place behind the last glyph. -/
def endFrom (position : Position) : List Glyph → Position
  | [] => position
  | glyph :: rest => endFrom (position.after glyph) rest

/-- The place of the last glyph, which is the start if there is none. -/
def lastFrom (previous position : Position) : List Glyph → Position
  | [] => previous
  | glyph :: rest => lastFrom position (position.after glyph) rest

end Source

/-- A text to be read: its marks, and what there is at its end. -/
structure Source where
  marks : List Source.Mark
  /-- The place of the end. -/
  stop : Position
  /-- What there is to complain about when the end is met. -/
  stopComplaints : List SyntaxError
  deriving DecidableEq, Repr

namespace Source

/-- The source of a text; the device may fail behind its last byte. -/
def ofText (text : Text) (failure : Option Text := none) : Source :=
  { marks := marksFrom failure .start .start text.glyphs
    stop := endFrom .start text.glyphs
    stopComplaints := failureAt failure (lastFrom .start .start text.glyphs) }

/-- The complaints at the given place, if there is one, instead of their own. -/
def anchored (anchor : Option Position) (complaints : List SyntaxError) : List SyntaxError :=
  complaints.map fun error => { error with position := anchor.getD error.position }

/-- The complaints about reading the first of the given marks, or the end. -/
def reading (source : Source) (anchor : Option Position) : List Mark → List SyntaxError
  | [] => anchored anchor source.stopComplaints
  | mark :: _ => anchored anchor mark.complaints

/-- The complaints about going forward by a number of marks. -/
def advancing (source : Source) (anchor : Option Position) : Nat → List Mark → List SyntaxError
  | 0, _ => []
  | count + 1, marks =>
    source.reading anchor marks.tail ++ source.advancing anchor count marks.tail

/-- Whether a character is part of words. -/
def isWordCharacter (character : Char) : Bool :=
  character == '_' || character == '.' || character == '-' || character == '+' ||
    isLetter character || isDecimalDigit character

/-- Whether a character is a blank. -/
def isBlank (character : Char) : Bool :=
  character == '\t' || character == '\r' || character == ' '

/-- The number of marks that satisfy a test, up to the first that does not. -/
def span (test : Char → Bool) (marks : List Mark) : Nat :=
  (marks.takeWhile fun mark => test mark.character).length

/-- The number of marks up to and with the end of a comment `*/`, if it has one. -/
def commentLength : List Mark → Option Nat
  | [] => none
  | first :: rest =>
    if first.character = '*' && (rest.head?.map Mark.character) == some '/' then some 2
    else (commentLength rest).map (· + 1)

/-- Where a reader is within a character literal. -/
inductive LiteralPhase where
  | plain
  | escape
  | digits (base remaining : Nat)
  deriving DecidableEq, Repr

/-- The value of a hexadecimal digit; sixteen for any other character. -/
def digitValue (character : Char) : Nat :=
  if '0' ≤ character ∧ character ≤ '9' then character.toNat - 0x30
  else if 'a' ≤ character ∧ character ≤ 'f' then character.toNat - 0x61 + 10
  else if 'A' ≤ character ∧ character ≤ 'F' then character.toNat - 0x41 + 10
  else 16

/-- The phase after the character behind a backslash, if it is one that makes an escape. -/
def escapePhase (character : Char) : Option LiteralPhase :=
  if character ∈ ['a', 'b', 'f', 'n', 'r', 't', 'v', '\\', '\''] then some (.digits 8 0)
  else if digitValue character < 8 then some (.digits 8 2)
  else if character = 'x' then some (.digits 16 2)
  else if character = 'u' then some (.digits 16 4)
  else if character = 'U' then some (.digits 16 8)
  else none

/-- The phase after a character that continues an escape, or nothing if the escape is over in front of
it. -/
def continueEscape (phase : LiteralPhase) (character : Char) : Option LiteralPhase :=
  match phase with
  | .plain => none
  | .escape => escapePhase character
  | .digits base remaining =>
    match remaining with
    | 0 => none
    | left + 1 => if digitValue character < base then some (.digits base left) else none

/-- Whether an escape that is over was complete. -/
def escapeComplete : LiteralPhase → Bool
  | .plain => true
  | .escape => false
  | .digits _ remaining => remaining == 0

/-- The number of characters after an escape is over: an escape is one character. -/
def countEscape (phase : LiteralPhase) (count : Nat) : Nat :=
  match phase with
  | .plain => count
  | _ => count + 1

/-- A stretch of a source: how many marks it has, and the complaints about it. -/
structure Stretch where
  length : Nat
  complaints : List SyntaxError
  deriving DecidableEq, Repr

/-- The stretch with a mark and complaints in front of it. -/
def Stretch.longer (stretch : Stretch) (complaints : List SyntaxError) : Stretch :=
  { length := stretch.length + 1, complaints := complaints ++ stretch.complaints }

/-- The complaints about the end of a literal that holds a number of characters. -/
def literalEnd (anchor : Position) (closed : Bool) (count : Nat) : List SyntaxError :=
  (if closed then [] else [{ position := anchor, complaint := .openLiteral }]) ++
    (if count = 1 then [] else [{ position := anchor, complaint := .badLiteral }])

/-- The rest of a character literal, from a mark that was just read up to and with the closing quote or
the newline that ends it. -/
def literalRest (source : Source) (anchor : Position) (phase : LiteralPhase) (count : Nat) :
    List Mark → Stretch
  | [] =>
    { length := 0
      complaints :=
        (if escapeComplete phase then [] else [{ position := anchor, complaint := .badEscape }]) ++
        literalEnd anchor false (countEscape phase count) ++ source.reading anchor [] }
  | mark :: rest =>
    match continueEscape phase mark.character with
    | some phase =>
      (source.literalRest anchor phase count rest).longer (source.reading anchor rest)
    | none =>
      let broken :=
        if escapeComplete phase then [] else [{ position := anchor, complaint := .badEscape }]
      let count := countEscape phase count
      if mark.character = '\'' then
        { length := 1
          complaints := broken ++ literalEnd anchor true count ++ source.reading anchor rest }
      else if mark.character = '\n' then
        { length := 1
          complaints := broken ++ literalEnd anchor false count ++ source.reading anchor rest }
      else if mark.character = '\\' then
        (source.literalRest anchor .escape count rest).longer
          (broken ++ source.reading anchor rest)
      else
        (source.literalRest anchor .plain (count + 1) rest).longer
          (broken ++ source.reading anchor rest)

/-- The bytes of marks. -/
def textOf (marks : List Mark) : Text := marks.flatMap fun mark => mark.glyph.bytes

/-- A token or a comment that starts at a mark. -/
inductive Lexeme where
  | token (kind : TokenKind)
  | comment
  | lineComment
  deriving DecidableEq, Repr

/-- The lexeme that starts at a mark that is no blank, with the marks that it takes after the first. -/
def lexeme (source : Source) (first : Mark) (rest : List Mark) : Lexeme × Stretch :=
  let anchor := first.position
  let taking (length : Nat) (complaints : List SyntaxError) : Stretch :=
    { length, complaints := source.advancing anchor (length + 1) (first :: rest) ++ complaints }
  if isWordCharacter first.character then (.token .word, taking (span isWordCharacter rest) [])
  else if first.character = '\'' then
    let stretch := source.literalRest anchor .plain 0 rest
    (.token .quoted, { stretch with complaints := source.reading anchor rest ++ stretch.complaints })
  else if first.character = '/' && (rest.head?.map Mark.character) == some '/' then
    (.comment, taking (span (· ≠ '\n') rest) [])
  else if first.character = '/' && (rest.head?.map Mark.character) == some '*' then
    match commentLength rest.tail with
    | some length => (.comment, taking (length + 1) [])
    | none =>
      (.comment, taking rest.length [{ position := anchor, complaint := .openComment }])
  else if first.character = ';' then
    let length := span (· ≠ '\n') rest
    (.lineComment, {
      length
      complaints := source.reading anchor rest ++ source.advancing none length rest })
  else (.token (.mark first.character), taking 0 [])

/-- A step of reading: a token, if it gave one, and the complaints it gave. -/
structure Item where
  token : Option Token
  complaints : List SyntaxError
  deriving DecidableEq, Repr

/-- The items of the marks that follow `skipped` marks that are part of the item before. Complaints about
blanks go to the anchor, which is the start of the comment in front of them. -/
def itemsAfter (source : Source) (skipped : Nat) (anchor : Option Position) :
    List Mark → List Item
  | [] => []
  | first :: rest =>
    match skipped with
    | remaining + 1 => source.itemsAfter remaining anchor rest
    | 0 =>
      if isBlank first.character then
        { token := none, complaints := source.reading anchor rest } ::
          source.itemsAfter 0 anchor rest
      else
        let (lexeme, stretch) := source.lexeme first rest
        match lexeme with
        | .token kind =>
          let text := textOf (first :: rest.take stretch.length)
          { token := some { kind, text, position := first.position },
            complaints := stretch.complaints } :: source.itemsAfter stretch.length none rest
        | .comment =>
          { token := none, complaints := stretch.complaints } ::
            source.itemsAfter stretch.length (some first.position) rest
        | .lineComment =>
          { token := none, complaints := stretch.complaints } ::
            source.itemsAfter stretch.length none rest

/-- The character that may stand at the start of a source and is ignored there. -/
def byteOrderMark : Char := '\uFEFF'

/-- The items of a source. Its first character is read before there is any token. -/
def items (source : Source) : List Item :=
  { token := none, complaints := source.reading none source.marks } ::
    match source.marks with
    | first :: rest =>
      if first.character = byteOrderMark then
        { token := none, complaints := source.reading none rest } :: source.itemsAfter 0 none rest
      else source.itemsAfter 0 none source.marks
    | [] => []

end Source

end IntegerMachine
