import IntegerMachine.Proofs.Folding

/-!
# Characters read from bytes

What is read as a character is its encoding: the bytes of the glyphs of a text, put together, are the text. With the
fact that encodings are read back, this says that a text is one character exactly if it is the encoding of one.

The cases are those of the reader. A lead byte and the bytes behind it fix a number between two limits, and between
these limits the encoder gives the same bytes again.
-/
namespace IntegerMachine

namespace Text

/-! ## What the encoder writes -/

section Encoders

variable {character : Char} {lead second third fourth : UInt8}

/-- The byte of a number is the byte with that number. -/
theorem byte_of_value {byte : UInt8} {number : Nat} (value : byte.toNat = number) : UInt8.ofNat number = byte := by
  rw [← value, UInt8.ofNat_toNat]

/-- A byte of ASCII is the encoding of its character. All other characters have more than one byte. -/
theorem of_char_ascii (ascii : lead.toNat < 0x80) : ofChar (Char.ofNat lead.toNat) = [lead] := by
  have number : (Char.ofNat lead.toNat).toNat = lead.toNat := to_nat_of_nat lead.toNat (.inl (by omega))
  have small : (Char.ofNat lead.toNat).toNat ≤ 0x7F := by omega
  calc ofChar (Char.ofNat lead.toNat) = [UInt8.ofNat (Char.ofNat lead.toNat).toNat] := if_pos small
    _ = [lead] := by rw [byte_of_value number.symm]

/-- A character of two bytes, given by what its bytes amount to. The limits say in which branch of the encoder it
is. -/
theorem of_char_two (above : 0x7F < character.toNat) (below : character.toNat ≤ 0x7FF)
    (leadValue : lead.toNat = character.toNat / 64 % 0x20 + 0xC0)
    (secondValue : second.toNat = character.toNat % 0x40 + 0x80) : ofChar character = [lead, second] := by
  rw [← byte_of_value leadValue, ← byte_of_value secondValue]
  exact (if_neg (Nat.not_le.mpr above)).trans (if_pos below)

/-- A character of three bytes, given by what its bytes amount to. -/
theorem of_char_three (above : 0x7FF < character.toNat) (below : character.toNat ≤ 0xFFFF)
    (leadValue : lead.toNat = character.toNat / 4096 % 0x10 + 0xE0)
    (secondValue : second.toNat = character.toNat / 64 % 0x40 + 0x80)
    (thirdValue : third.toNat = character.toNat % 0x40 + 0x80) : ofChar character = [lead, second, third] := by
  have notOne : ¬ character.toNat ≤ 0x7F := by omega
  rw [← byte_of_value leadValue, ← byte_of_value secondValue, ← byte_of_value thirdValue]
  exact (if_neg notOne).trans ((if_neg (Nat.not_le.mpr above)).trans (if_pos below))

/-- A character of four bytes, given by what its bytes amount to. There is no upper limit, since a character has none
beyond its own. -/
theorem of_char_four (above : 0xFFFF < character.toNat)
    (leadValue : lead.toNat = character.toNat / 262144 % 0x08 + 0xF0)
    (secondValue : second.toNat = character.toNat / 4096 % 0x40 + 0x80)
    (thirdValue : third.toNat = character.toNat / 64 % 0x40 + 0x80)
    (fourthValue : fourth.toNat = character.toNat % 0x40 + 0x80) :
    ofChar character = [lead, second, third, fourth] := by
  have notOne : ¬ character.toNat ≤ 0x7F := by omega
  have notTwo : ¬ character.toNat ≤ 0x7FF := by omega
  rw [← byte_of_value leadValue, ← byte_of_value secondValue, ← byte_of_value thirdValue, ← byte_of_value fourthValue]
  exact (if_neg notOne).trans ((if_neg notTwo).trans (if_neg (Nat.not_le.mpr above)))

end Encoders

/-! ## What the reader takes -/

/-- A byte that continues a sequence lies between 0x80 and 0xBF, so that six of its bits are free. -/
theorem value_of_continues {byte : UInt8} (continued : continues byte = true) :
    0x80 ≤ byte.toNat ∧ byte.toNat ≤ 0xBF := by
  simpa only [continues, UInt8.le_iff_toNat_le, Bool.and_eq_true, decide_eq_true_eq, UInt8.reduceToNat] using continued

/-- The bounds that the first byte of a sequence sets to the second one. They exclude longer forms than needed,
surrogates and numbers that are no characters. -/
theorem value_of_follows {lead byte : UInt8} (followed : follows lead byte = true) :
    0x80 ≤ byte.toNat ∧ byte.toNat ≤ 0xBF ∧ (lead.toNat = 0xE0 → 0xA0 ≤ byte.toNat) ∧
      (lead.toNat = 0xED → byte.toNat ≤ 0x9F) ∧ (lead.toNat = 0xF0 → 0x90 ≤ byte.toNat) ∧
      (lead.toNat = 0xF4 → byte.toNat ≤ 0x8F) := by
  simp only [follows, ← UInt8.toNat_inj, UInt8.le_iff_toNat_le, Bool.and_eq_true, decide_eq_true_eq,
    apply_ite UInt8.toNat, UInt8.reduceToNat] at followed
  obtain ⟨low, high⟩ := followed
  split at low <;> split at high <;> grind

/-- A sequence of two bytes encodes the character that is read from it. The least lead byte is 0xC2, as a smaller one
would be a longer form of a character of ASCII. -/
theorem read_two {lead second : UInt8} (low : 0xC2 ≤ lead.toNat) (high : lead.toNat < 0xE0)
    (continued : continues second = true) :
    ofChar (Char.ofNat (lead.toNat % 32 * 64 + payload second)) = [lead, second] := by
  have bounds := value_of_continues continued
  have number := to_nat_of_nat (lead.toNat % 32 * 64 + payload second) (.inl (by rw [payload]; omega))
  rw [payload] at number ⊢
  apply of_char_two <;> omega

/-- A sequence of three bytes encodes the character that is read from it. The bounds on the second byte keep the
number above those of two bytes and outside of the surrogates. -/
theorem read_three {lead second third : UInt8} (low : 0xE0 ≤ lead.toNat) (high : lead.toNat < 0xF0)
    (followed : follows lead second = true) (continued : continues third = true) :
    ofChar (Char.ofNat (lead.toNat % 16 * 4096 + payload second * 64 + payload third)) = [lead, second, third] := by
  have secondBounds := value_of_follows followed
  have thirdBounds := value_of_continues continued
  have valid : (lead.toNat % 16 * 4096 + payload second * 64 + payload third).isValidChar := by
    rw [Nat.isValidChar, payload, payload]
    omega
  have number := to_nat_of_nat _ valid
  rw [payload, payload] at number ⊢
  apply of_char_three <;> omega

/-- A sequence of four bytes encodes the character that is read from it. Here the bounds keep the number above those
of three bytes and within the characters. -/
theorem read_four {lead second third fourth : UInt8} (low : 0xF0 ≤ lead.toNat) (high : lead.toNat < 0xF5)
    (followed : follows lead second = true) (continuedThird : continues third = true)
    (continuedFourth : continues fourth = true) :
    ofChar (Char.ofNat (lead.toNat % 8 * 262144 + payload second * 4096 + payload third * 64 + payload fourth)) =
      [lead, second, third, fourth] := by
  have secondBounds := value_of_follows followed
  have thirdBounds := value_of_continues continuedThird
  have fourthBounds := value_of_continues continuedFourth
  have valid : (lead.toNat % 8 * 262144 + payload second * 4096 + payload third * 64 +
      payload fourth).isValidChar := by
    rw [Nat.isValidChar, payload, payload, payload]
    omega
  have number := to_nat_of_nat _ valid
  rw [payload, payload, payload] at number ⊢
  apply of_char_four <;> omega

/-- A text starts with the bytes of its first glyph. A byte that starts no sequence is a glyph of its own, so this
holds of any bytes. -/
theorem starts_with_glyph (lead : UInt8) (rest : Text) : ∃ tail, lead :: rest = (glyphAt lead rest).bytes ++ tail := by
  simp only [glyphAt, UInt8.lt_iff_toNat_lt, UInt8.reduceToNat]
  -- The splits follow the reader: by the lead byte, by the bytes behind it, and by whether these fit.
  split
  · next ascii => exact ⟨rest, congrArg (· ++ rest) (of_char_ascii ascii).symm⟩
  split
  · exact ⟨rest, rfl⟩
  split
  · split
    · exact ⟨_, rfl⟩
    · next second tail =>
      split
      · next continued => exact ⟨tail, congrArg (· ++ tail) (read_two (by omega) (by omega) continued).symm⟩
      · exact ⟨_, rfl⟩
  split
  · split
    · exact ⟨_, rfl⟩
    · exact ⟨_, rfl⟩
    · next second third tail =>
      split
      · next fitting =>
        obtain ⟨followed, continued⟩ := Bool.and_eq_true_iff.mp fitting
        exact ⟨tail, congrArg (· ++ tail) (read_three (by omega) (by omega) followed continued).symm⟩
      · exact ⟨_, rfl⟩
  split
  · split
    · exact ⟨_, rfl⟩
    · exact ⟨_, rfl⟩
    · exact ⟨_, rfl⟩
    · next second third fourth tail =>
      split
      · next fitting =>
        simp only [Bool.and_eq_true] at fitting
        obtain ⟨⟨followed, third⟩, fourth⟩ := fitting
        exact ⟨tail, congrArg (· ++ tail) (read_four (by omega) (by omega) followed third fourth).symm⟩
      · exact ⟨_, rfl⟩
  · exact ⟨rest, rfl⟩

/-- A glyph has at least one byte, so that a reader of glyphs always advances. -/
theorem bytes_ne_nil (glyph : Glyph) : glyph.bytes ≠ [] := by
  intro empty
  cases glyph with
  | char character =>
    obtain ⟨lead, tail, encoded, _⟩ := glyph_at_encoded character []
    cases encoded.symm.trans empty
  | stray byte cut => cases empty

/-- The first byte of a text is the first byte of its first glyph, and its other bytes start the rest. This is how
glyphs are told apart in the induction below. -/
theorem first_glyph_bytes (lead : UInt8) (rest : Text) :
    ∃ own tail, (glyphAt lead rest).bytes = lead :: own ∧ rest = own ++ tail := by
  obtain ⟨tail, starts⟩ := starts_with_glyph lead rest
  cases bytes : (glyphAt lead rest).bytes with
  | nil => exact absurd bytes (bytes_ne_nil _)
  | cons first own =>
    rw [bytes, List.cons_append, List.cons.injEq] at starts
    exact ⟨own, tail, by rw [starts.1], starts.2⟩

/-- The bytes of the glyphs of a text are the text: nothing is lost and nothing is made up. The induction is on the
length, since the reader skips the bytes that a glyph has used. -/
theorem bytes_of_glyphs (text : Text) : text.glyphs.flatMap Glyph.bytes = text := by
  induction size : text.length using Nat.strongRecOn generalizing text with
  | ind size ih =>
    cases text with
    | nil => rfl
    | cons lead rest =>
      obtain ⟨own, tail, bytes, behind⟩ := first_glyph_bytes lead rest
      have others : glyphsAfter own.length rest = glyphs tail := by rw [behind, glyphs_after_skipped]; rfl
      rw [glyphs, glyphsAfter]
      simp only [bytes, List.length_cons, Nat.add_sub_cancel, List.flatMap_cons, others]
      rw [ih tail.length _ tail rfl, behind, List.cons_append]
      subst behind
      simp only [List.length_cons, List.length_append] at size
      omega

/-- A text is one character exactly if it is the encoding of that character. In one direction the bytes are put
together, in the other the encoding is read back. -/
theorem glyphs_eq_char_iff {text : Text} {character : Char} :
    text.glyphs = [.char character] ↔ text = ofChar character := by
  constructor
  · intro single
    have bytes := bytes_of_glyphs text
    rw [single] at bytes
    rw [← bytes, List.flatMap_singleton]
    rfl
  · rintro rfl
    have read := glyphs_of_char_append character []
    rw [List.append_nil] at read
    exact read

/-- A text of UTF-8 is the encoding of its characters. Without the hypothesis a stray byte would be read as the
replacement character, whose encoding is another text. -/
theorem of_characters_of_utf8 {text : Text} (encoded : text.isUtf8 = true) : ofCharacters text.characters = text := by
  have same : ∀ glyph ∈ text.glyphs, ofChar glyph.value = glyph.bytes := by
    intro glyph member
    have isChar := List.all_eq_true.mp encoded glyph member
    cases glyph with
    | char character => rfl
    | stray byte cut => cases isChar
  calc ofCharacters text.characters = text.glyphs.flatMap fun glyph => ofChar glyph.value := List.flatMap_map ..
    _ = text.glyphs.flatMap Glyph.bytes := congrArg List.flatten (List.map_congr_left same)
    _ = text := bytes_of_glyphs text

end Text
end IntegerMachine
