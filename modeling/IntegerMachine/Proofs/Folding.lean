import IntegerMachine.Text.Case

/-!
# Characters and folded names

Encoding characters and reading them back gives the same characters, whatever follows them. The upper-case
mapping sends no code point to one that it would move again, so folding a folded name changes nothing.

The second fact is about the table itself. It is checked by comparing rows and not code points: the images of a
row lie between two numbers, and another row is avoided when it ends before them, starts behind them, or takes
every second number and misses them by parity. Nothing here depends on which characters are letters.
-/
namespace IntegerMachine

namespace Text

/-! ## Reading what was encoded -/

/-- The byte of a number below 256 is that number. -/
theorem byte_value (number : Nat) (small : number < 256) : (UInt8.ofNat number).toNat = number := by
  rw [UInt8.toNat_ofNat', Nat.mod_eq_of_lt small]

/-- Bytes from 0x80 to 0xBF continue a sequence. -/
theorem continues_of_value (byte : UInt8) (low : 0x80 ≤ byte.toNat) (high : byte.toNat ≤ 0xBF) :
    continues byte = true := by
  simp only [continues, UInt8.le_iff_toNat_le, Bool.and_eq_true, decide_eq_true_eq]
  exact ⟨low, high⟩

/-- The bounds on the second byte of a sequence, as bounds on its number. Each of the four exceptions belongs to one
lead byte. -/
theorem follows_of_value (lead byte : UInt8) (low : 0x80 ≤ byte.toNat) (high : byte.toNat ≤ 0xBF)
    (short : lead.toNat = 0xE0 → 0xA0 ≤ byte.toNat) (surrogate : lead.toNat = 0xED → byte.toNat ≤ 0x9F)
    (overlong : lead.toNat = 0xF0 → 0x90 ≤ byte.toNat) (above : lead.toNat = 0xF4 → byte.toNat ≤ 0x8F) :
    follows lead byte = true := by
  simp only [follows, ← UInt8.toNat_inj, UInt8.le_iff_toNat_le, Bool.and_eq_true, decide_eq_true_eq,
    apply_ite UInt8.toNat, UInt8.reduceToNat]
  constructor <;> repeat' split
  all_goals omega

/-- A lead byte of two is read with one byte behind it. The payloads of both bytes make up the number of the character
again. -/
theorem glyph_at_two (character : Char) (lead second : UInt8) (rest : Text)
    (above : 0x7F < character.toNat) (below : character.toNat ≤ 0x7FF)
    (leadValue : lead.toNat = character.toNat / 64 % 0x20 + 0xC0)
    (secondValue : second.toNat = character.toNat % 0x40 + 0x80) :
    glyphAt lead (second :: rest) = .char character := by
  have number : lead.toNat % 32 * 64 + payload second = character.toNat := by
    simp only [payload]
    omega
  have continued := continues_of_value second (by omega) (by omega)
  have notAscii : ¬ lead < 0x80 := by simp only [UInt8.lt_iff_toNat_lt, UInt8.reduceToNat]; omega
  have notStray : ¬ lead < 0xC2 := by simp only [UInt8.lt_iff_toNat_lt, UInt8.reduceToNat]; omega
  have ofTwo : lead < 0xE0 := by simp only [UInt8.lt_iff_toNat_lt, UInt8.reduceToNat]; omega
  simp only [glyphAt, notAscii, notStray, ofTwo, continued, number, Char.ofNat_toNat, if_true, if_false]

/-- A lead byte of three is read with two bytes behind it. That the character is no surrogate is what keeps the second
byte within its bounds. -/
theorem glyph_at_three (character : Char) (lead second third : UInt8) (rest : Text)
    (above : 0x7FF < character.toNat) (below : character.toNat ≤ 0xFFFF)
    (leadValue : lead.toNat = character.toNat / 4096 % 0x10 + 0xE0)
    (secondValue : second.toNat = character.toNat / 64 % 0x40 + 0x80)
    (thirdValue : third.toNat = character.toNat % 0x40 + 0x80) :
    glyphAt lead (second :: third :: rest) = .char character := by
  have valid : character.toNat < 0xD800 ∨ 0xDFFF < character.toNat ∧ character.toNat < 0x110000 :=
    character.valid
  have number : lead.toNat % 16 * 4096 + payload second * 64 + payload third = character.toNat := by
    simp only [payload]
    omega
  have followed : follows lead second = true :=
    follows_of_value lead second (by omega) (by omega) (by omega) (by omega) (by omega) (by omega)
  have continued := continues_of_value third (by omega) (by omega)
  have notAscii : ¬ lead < 0x80 := by simp only [UInt8.lt_iff_toNat_lt, UInt8.reduceToNat]; omega
  have notStray : ¬ lead < 0xC2 := by simp only [UInt8.lt_iff_toNat_lt, UInt8.reduceToNat]; omega
  have notTwo : ¬ lead < 0xE0 := by simp only [UInt8.lt_iff_toNat_lt, UInt8.reduceToNat]; omega
  have ofThree : lead < 0xF0 := by simp only [UInt8.lt_iff_toNat_lt, UInt8.reduceToNat]; omega
  simp only [glyphAt, notAscii, notStray, notTwo, ofThree, followed, continued, number,
    Char.ofNat_toNat, Bool.and_self, if_true, if_false]

/-- A lead byte of four is read with three bytes behind it. Here the greatest character keeps the second byte within
its bounds. -/
theorem glyph_at_four (character : Char) (lead second third fourth : UInt8) (rest : Text)
    (above : 0xFFFF < character.toNat)
    (leadValue : lead.toNat = character.toNat / 262144 % 0x08 + 0xF0)
    (secondValue : second.toNat = character.toNat / 4096 % 0x40 + 0x80)
    (thirdValue : third.toNat = character.toNat / 64 % 0x40 + 0x80)
    (fourthValue : fourth.toNat = character.toNat % 0x40 + 0x80) :
    glyphAt lead (second :: third :: fourth :: rest) = .char character := by
  have valid : character.toNat < 0xD800 ∨ 0xDFFF < character.toNat ∧ character.toNat < 0x110000 :=
    character.valid
  have number : lead.toNat % 8 * 262144 + payload second * 4096 + payload third * 64 +
      payload fourth = character.toNat := by
    simp only [payload]
    omega
  have followed : follows lead second = true :=
    follows_of_value lead second (by omega) (by omega) (by omega) (by omega) (by omega) (by omega)
  have continuedThird := continues_of_value third (by omega) (by omega)
  have continuedFourth := continues_of_value fourth (by omega) (by omega)
  have notAscii : ¬ lead < 0x80 := by simp only [UInt8.lt_iff_toNat_lt, UInt8.reduceToNat]; omega
  have notStray : ¬ lead < 0xC2 := by simp only [UInt8.lt_iff_toNat_lt, UInt8.reduceToNat]; omega
  have notTwo : ¬ lead < 0xE0 := by simp only [UInt8.lt_iff_toNat_lt, UInt8.reduceToNat]; omega
  have notThree : ¬ lead < 0xF0 := by simp only [UInt8.lt_iff_toNat_lt, UInt8.reduceToNat]; omega
  have ofFour : lead < 0xF5 := by simp only [UInt8.lt_iff_toNat_lt, UInt8.reduceToNat]; omega
  simp only [glyphAt, notAscii, notStray, notTwo, notThree, ofFour, followed, continuedThird,
    continuedFourth, number, Char.ofNat_toNat, Bool.and_self, if_true, if_false]

/-- The encoding of a character is read as that character, whatever bytes follow it. The four cases are those of the
encoder: they differ in the number of bytes behind the lead byte. -/
theorem glyph_at_encoded (character : Char) (rest : Text) :
    ∃ lead tail, ofChar character = lead :: tail ∧ glyphAt lead (tail ++ rest) = .char character := by
  have valid : character.toNat < 0xD800 ∨ 0xDFFF < character.toNat ∧ character.toNat < 0x110000 :=
    character.valid
  by_cases one : character.toNat ≤ 0x7F
  · have value := byte_value character.toNat (by omega)
    have ascii : UInt8.ofNat character.toNat < 0x80 := by
      rw [UInt8.lt_iff_toNat_lt, value]
      exact Nat.lt_succ_of_le one
    refine ⟨UInt8.ofNat character.toNat, [], ?_, ?_⟩
    · exact if_pos one
    · simp only [glyphAt, ascii, value, Char.ofNat_toNat, if_true]
  · by_cases two : character.toNat ≤ 0x7FF
    · refine ⟨_, _, (if_neg one).trans (if_pos two), ?_⟩
      exact glyph_at_two character _ _ rest (by omega) two (byte_value _ (by omega)) (byte_value _ (by omega))
    · by_cases three : character.toNat ≤ 0xFFFF
      · refine ⟨_, _, (if_neg one).trans ((if_neg two).trans (if_pos three)), ?_⟩
        exact glyph_at_three character _ _ _ rest (by omega) three (byte_value _ (by omega))
          (byte_value _ (by omega)) (byte_value _ (by omega))
      · refine ⟨_, _, (if_neg one).trans ((if_neg two).trans (if_neg three)), ?_⟩
        exact glyph_at_four character _ _ _ _ rest (by omega) (byte_value _ (by omega))
          (byte_value _ (by omega)) (byte_value _ (by omega)) (byte_value _ (by omega))

/-- Bytes that belong to the glyph before are passed over. -/
theorem glyphs_after_skipped (skipped rest : Text) :
    glyphsAfter skipped.length (skipped ++ rest) = glyphsAfter 0 rest := by
  induction skipped with
  | nil => rfl
  | cons byte skipped ih => simpa only [List.length_cons, List.cons_append, glyphsAfter] using ih

/-- A character in front of a text is its first glyph, and the other glyphs are those of the text. No byte of the text
is drawn into the character. -/
theorem glyphs_of_char_append (character : Char) (rest : Text) :
    glyphs (ofChar character ++ rest) = .char character :: glyphs rest := by
  obtain ⟨lead, tail, encoded, glyph⟩ := glyph_at_encoded character rest
  have width : (Glyph.char character).bytes.length - 1 = tail.length := by
    rw [Glyph.bytes, show String.utf8EncodeChar character = lead :: tail from encoded]
    rfl
  rw [encoded, glyphs, List.cons_append, glyphsAfter]
  simp only [glyph, width]
  rw [glyphs_after_skipped, glyphs]

/-- Encoded characters are read back one by one, by induction on the characters. -/
theorem glyphs_of_characters (characters : List Char) :
    glyphs (ofCharacters characters) = characters.map .char := by
  induction characters with
  | nil => rfl
  | cons character rest ih =>
    rw [ofCharacters, List.flatMap_cons, glyphs_of_char_append, ← ofCharacters, ih, List.map_cons]

/-- Reading the characters of encoded characters gives them back, so that texts can be treated as lists of characters
where they are made from them. -/
@[simp] theorem characters_of_characters (characters : List Char) :
    Text.characters (ofCharacters characters) = characters := by
  rw [Text.characters, glyphs_of_characters, List.map_map]
  exact List.map_id _

/-- Encoded characters are UTF-8, which is to say that no byte of them is read as a stray one. -/
@[simp] theorem of_characters_is_utf8 (characters : List Char) :
    (ofCharacters characters).isUtf8 = true := by
  rw [isUtf8, glyphs_of_characters, List.all_map, List.all_eq_true]
  exact fun _ _ => rfl

end Text

/-! ## The upper-case mapping -/

/-- A row of a table of case mappings: first, last, step and shift. -/
abbrev CaseRow := Nat × Nat × Nat × Int

/-- Whether a row moves a code point. -/
def CaseRow.moves (row : CaseRow) (point : Nat) : Bool :=
  row.1 ≤ point && point ≤ row.2.1 && (point - row.1) % row.2.2.1 == 0

/-- Whether code points from `low` to `high`, every second one if `step` is two, all avoid a row. -/
def CaseRow.avoided (low high step : Nat) (row : CaseRow) : Bool :=
  Nat.blt high row.1 || Nat.blt row.2.1 low ||
    ((Nat.beq step 2 || Nat.beq low high) && Nat.beq row.2.2.1 2 && Nat.beq ((low + row.1) % 2) 1)

/-- Whether the images of a row are characters, of which those in ASCII are capitals, and no row of the table moves
them. -/
def CaseRow.settled (row : CaseRow) : Bool :=
  let low := (row.1 + row.2.2.2).toNat
  let high := (row.2.1 + row.2.2.2).toNat
  (Nat.blt high 0xD800 || (Nat.blt 0xDFFF low && Nat.blt high 0x110000)) &&
    (Nat.ble 0x80 low || (Nat.ble 0x41 low && Nat.ble high 0x5A)) &&
      upperRows.all (CaseRow.avoided low high row.2.2.1)

/-- Every row of the upper-case table is settled. The comparison goes through pairs of rows in the kernel. -/
theorem upper_rows_settled : upperRows.all CaseRow.settled = true := by decide +kernel

/-- A code point between the ends of an avoided row's neighbourhood is not moved by that row: it lies before the row,
behind it, or between two numbers that the row takes. -/
theorem CaseRow.not_moved (row : CaseRow) (low high step offset : Nat)
    (avoided : row.avoided low high step = true) (within : low + offset ≤ high)
    (stepped : step = 2 → offset % 2 = 0) : row.moves (low + offset) = false := by
  simp only [CaseRow.avoided, Bool.or_eq_true, Bool.and_eq_true, Nat.blt_eq, Nat.beq_eq] at avoided
  simp only [CaseRow.moves, Bool.and_eq_false_iff, decide_eq_false_iff_not, beq_eq_false_iff_ne]
  rcases avoided with (before | behind) | ⟨⟨spaced, second⟩, parity⟩
  · omega
  · omega
  · rw [second]
    omega

/-- What a row of the table does to a code point that it moves: the image is a character, in ASCII a capital, and
stays where it is. -/
theorem upper_row_image (row : CaseRow) (listed : row ∈ upperRows) (point : Nat)
    (moved : row.moves point = true) :
    (point + row.2.2.2).toNat.isValidChar ∧
      (0x80 ≤ (point + row.2.2.2).toNat ∨ 0x41 ≤ (point + row.2.2.2).toNat ∧ (point + row.2.2.2).toNat ≤ 0x5A) ∧
      mapCodePoint upperRows (point + row.2.2.2).toNat = (point + row.2.2.2).toNat := by
  have settled := List.all_eq_true.mp upper_rows_settled row listed
  simp only [CaseRow.settled, Bool.and_eq_true, Bool.or_eq_true, Nat.blt_eq, Nat.ble_eq] at settled
  obtain ⟨⟨character, capital⟩, avoided⟩ := settled
  simp only [CaseRow.moves, Bool.and_eq_true, decide_eq_true_eq, beq_iff_eq] at moved
  obtain ⟨⟨first, last⟩, stepped⟩ := moved
  have image : (point + row.2.2.2).toNat = (row.1 + row.2.2.2).toNat + (point - row.1) := by omega
  have within : (row.1 + row.2.2.2).toNat + (point - row.1) ≤ (row.2.1 + row.2.2.2).toNat := by omega
  refine ⟨?_, by omega, ?_⟩
  · unfold Nat.isValidChar
    omega
  · have unmoved : upperRows.find? (CaseRow.moves · (point + row.2.2.2).toNat) = none := by
      rw [List.find?_eq_none]
      intro other member
      have apart := List.all_eq_true.mp avoided other member
      rw [image, CaseRow.not_moved other _ _ _ _ apart within (fun two => by rw [two] at stepped; exact stepped)]
      exact Bool.false_ne_true
    simp only [CaseRow.moves] at unmoved
    rw [mapCodePoint, unmoved]

/-- A code point above ASCII is not moved, or has an image as `upper_row_image` describes it. It is the first row that
counts, if several move a code point. -/
theorem map_upper_cases (point : Nat) :
    mapCodePoint upperRows point = point ∨ ∃ image, mapCodePoint upperRows point = image ∧ image.isValidChar ∧
      (0x80 ≤ image ∨ 0x41 ≤ image ∧ image ≤ 0x5A) ∧ mapCodePoint upperRows image = image := by
  cases found : upperRows.find? (CaseRow.moves · point) with
  | none =>
    left
    simp only [CaseRow.moves] at found
    rw [mapCodePoint, found]
  | some row =>
    have moved := List.find?_some found
    have image := upper_row_image row (List.mem_of_find?_eq_some found) point moved
    simp only [CaseRow.moves] at found
    refine .inr ⟨(point + row.2.2.2).toNat, ?_, image⟩
    rw [mapCodePoint, found]

/-- The number of a character made from a valid code point. -/
theorem to_nat_of_nat (point : Nat) (valid : point.isValidChar) : (Char.ofNat point).toNat = point := by
  rw [Char.ofNat, dif_pos valid]
  rfl

/-- The upper case of an ASCII character is in ASCII and stays as it is. -/
theorem upper_case_ascii (character : Char) (ascii : character.toNat < 0x80) :
    upperCase (upperCase character) = upperCase character := by
  have every : ∀ number < 0x80, upperCase (upperCase (Char.ofNat number)) = upperCase (Char.ofNat number) := by
    decide +kernel
  simpa only [Char.ofNat_toNat] using every character.toNat ascii

/-- The upper case of a capital in ASCII is that capital. Some characters above ASCII have one as their upper case. -/
theorem upper_case_capital (point : Nat) (low : 0x41 ≤ point) (high : point ≤ 0x5A) :
    upperCase (Char.ofNat point) = Char.ofNat point := by
  have every : ∀ number < 0x5B, 0x41 ≤ number → upperCase (Char.ofNat number) = Char.ofNat number := by
    decide +kernel
  exact every point (by omega) low

/-- Upper case of upper case is upper case. Above ASCII this is what the table was checked for, and in ASCII it is
checked directly. -/
theorem upper_case_idempotent (character : Char) :
    upperCase (upperCase character) = upperCase character := by
  by_cases ascii : character.toNat < 0x80
  · exact upper_case_ascii character ascii
  · have mapped : upperCase character = Char.ofNat (mapCodePoint upperRows character.toNat) := if_neg ascii
    rcases map_upper_cases character.toNat with unmoved | ⟨image, moved, valid, range, fixed⟩
    · rw [mapped, unmoved, Char.ofNat_toNat, mapped, unmoved, Char.ofNat_toNat]
    · rw [mapped, moved]
      rcases range with above | capital
      · have value := to_nat_of_nat image valid
        rw [upperCase, value, if_neg (Nat.not_lt.mpr above), fixed]
      · exact upper_case_capital image capital.1 capital.2

namespace Text

/-- The characters of a folded name are the upper case of those of the name, one for one. -/
@[simp] theorem characters_fold (text : Text) : text.fold.characters = text.characters.map upperCase := by
  rw [fold, characters_of_characters]

/-- Folded names are UTF-8, also where the name is not: a stray byte is folded as the character that stands for it. -/
@[simp] theorem fold_is_utf8 (text : Text) : text.fold.isUtf8 = true := by
  rw [fold, of_characters_is_utf8]

/-- Folding a folded name changes nothing. Names are compared in folded form, and this makes the folded form itself
one of the spellings. -/
@[simp] theorem fold_fold (text : Text) : text.fold.fold = text.fold := by
  have settled : ∀ character ∈ text.characters, (upperCase ∘ upperCase) character = upperCase character :=
    fun character _ => upper_case_idempotent character
  calc text.fold.fold = ofCharacters (text.fold.characters.map upperCase) := rfl
    _ = ofCharacters (text.characters.map upperCase) := by
      rw [characters_fold, List.map_map, List.map_congr_left settled]
    _ = text.fold := rfl

/-- Only a text without characters is folded to the empty text, since folding keeps the number of characters. -/
theorem characters_of_fold_nil (text : Text) (empty : text.fold = []) : text.characters = [] := by
  have none : text.fold.characters = [] := by rw [empty]; rfl
  rw [characters_fold] at none
  exact List.map_eq_nil_iff.mp none

end Text

end IntegerMachine
