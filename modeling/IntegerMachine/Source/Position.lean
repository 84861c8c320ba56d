import IntegerMachine.Text.Utf8

/-!
# Places in a source

A position is the line and the column of a character, both counted from one, and the offset of its
first byte. Columns count characters; a stray byte is a character of its own.
-/
namespace IntegerMachine

/-- The place of a character in a source. -/
structure Position where
  line : Nat
  column : Nat
  offset : Nat
  deriving DecidableEq, Repr, Inhabited

namespace Position

/-- The place of the first character. -/
def start : Position := { line := 1, column := 1, offset := 0 }

/-- The place behind a glyph. -/
def after (position : Position) (glyph : Glyph) : Position :=
  let offset := position.offset + glyph.bytes.length
  if glyph.value = '\n' then { line := position.line + 1, column := 1, offset }
  else { line := position.line, column := position.column + 1, offset }

/-- A position in messages: the name of the file, the line and the column. -/
def within (position : Position) (file : Text) : Text :=
  .concat [if file.isEmpty then "<input>" else file, ":", .ofNat position.line, ":",
    .ofNat position.column]

end Position

end IntegerMachine
