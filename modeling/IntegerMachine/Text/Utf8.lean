import IntegerMachine.Text.Basic

/-!
# Characters of a text

A text is read from left to right as a list of glyphs: well-formed UTF-8 sequences, and, one at a time,
the bytes that begin none. Every byte belongs to exactly one glyph. A stray byte stands for the
replacement character U+FFFD wherever a character is wanted.

A stray byte is marked `cut` when the bytes from it to the end of the text are the beginning of a
well-formed sequence: a reader that meets it has to ask for more bytes before it can tell.
-/
namespace IntegerMachine

/-- A character of a text, or a byte that belongs to no well-formed sequence. -/
inductive Glyph where
  | char (character : Char)
  | stray (byte : UInt8) (cut : Bool)
  deriving DecidableEq, Repr, Inhabited

/-- The character that stands for everything that is not one. -/
def replacement : Char := '�'

namespace Glyph

/-- The character that a glyph stands for. -/
def value : Glyph → Char
  | char character => character
  | stray _ _ => replacement

/-- The bytes that a glyph was read from. -/
def bytes : Glyph → Text
  | char character => String.utf8EncodeChar character
  | stray byte _ => [byte]

/-- Whether a glyph is a well-formed character. -/
def isChar : Glyph → Bool
  | char _ => true
  | stray _ _ => false

end Glyph

namespace Text

/-- Whether a byte continues a sequence. -/
def continues (byte : UInt8) : Bool := 0x80 ≤ byte && byte ≤ 0xBF

/-- Whether a byte may follow the given first byte of a sequence of three or four. The limits keep out
encodings that are longer than needed, surrogates, and values above U+10FFFF. -/
def follows (lead byte : UInt8) : Bool :=
  (if lead = 0xE0 then 0xA0 else if lead = 0xF0 then 0x90 else 0x80) ≤ byte &&
    byte ≤ (if lead = 0xED then 0x9F else if lead = 0xF4 then 0x8F else 0xBF)

/-- The payload of a byte that continues a sequence. -/
def payload (byte : UInt8) : Nat := byte.toNat % 64

/-- The glyph at the head of a text that starts with the byte `lead`. -/
def glyphAt (lead : UInt8) (rest : Text) : Glyph :=
  if lead < 0x80 then .char (Char.ofNat lead.toNat)
  else if lead < 0xC2 then .stray lead false
  else if lead < 0xE0 then
    match rest with
    | [] => .stray lead true
    | second :: _ =>
      if continues second then .char (Char.ofNat (lead.toNat % 32 * 64 + payload second))
      else .stray lead false
  else if lead < 0xF0 then
    match rest with
    | [] => .stray lead true
    | [second] => .stray lead (follows lead second)
    | second :: third :: _ =>
      if follows lead second && continues third then
        .char (Char.ofNat (lead.toNat % 16 * 4096 + payload second * 64 + payload third))
      else .stray lead false
  else if lead < 0xF5 then
    match rest with
    | [] => .stray lead true
    | [second] => .stray lead (follows lead second)
    | [second, third] => .stray lead (follows lead second && continues third)
    | second :: third :: fourth :: _ =>
      if follows lead second && continues third && continues fourth then
        .char (Char.ofNat (lead.toNat % 8 * 262144 + payload second * 4096 + payload third * 64 +
          payload fourth))
      else .stray lead false
  else .stray lead false

/-- The glyphs of a text whose first `skipped` bytes belong to the glyph before. -/
def glyphsAfter (skipped : Nat) : Text → List Glyph
  | [] => []
  | lead :: rest =>
    match skipped with
    | remaining + 1 => glyphsAfter remaining rest
    | 0 =>
      let glyph := glyphAt lead rest
      glyph :: glyphsAfter (glyph.bytes.length - 1) rest

/-- The glyphs of a text. -/
def glyphs (text : Text) : List Glyph := glyphsAfter 0 text

/-- The UTF-8 encoding of a character. -/
def ofChar (character : Char) : Text := String.utf8EncodeChar character

/-- The characters of a text, stray bytes replaced. -/
def characters (text : Text) : List Char := text.glyphs.map Glyph.value

/-- The UTF-8 encoding of a list of characters. -/
def ofCharacters (characters : List Char) : Text := characters.flatMap ofChar

/-- Whether a text is UTF-8 throughout. -/
def isUtf8 (text : Text) : Bool := text.glyphs.all Glyph.isChar

/-- The encoding of a code point given as a number: whatever is no code point is replaced. -/
def ofCodePoint (number : Int) : Text :=
  if 0 ≤ number ∧ number < 0xD800 ∨ 0xDFFF < number ∧ number ≤ 0x10FFFF then
    ofChar (Char.ofNat number.toNat)
  else ofChar replacement

end Text

end IntegerMachine
