import IntegerMachine.LineTracker
import IntegerMachine.Proofs.PlacedMarks
import Mathlib.Data.List.DropRight

/-!
# The line that a tracker is in

A line tracker cuts its line after every write, and what it cuts next is what it has kept. Output may come in pieces
that end anywhere, also within a character. For UTF-8 the pieces make no difference: what is kept in the end is the
longest end of the last line that fits and starts with a character.

A cut goes forward to the next byte that starts a character. There always is one, as no more than three bytes continue a
character; so a cut of what was kept goes to the same place as a cut of the whole line.
-/
namespace IntegerMachine

namespace Text

/-! ## Bytes of characters -/

/-- The encoding of a character is one byte that starts it, and at most three that continue it. The four lengths of
encodings are treated one by one. -/
theorem of_char_shape (character : Char) : ∃ lead tail, ofChar character = lead :: tail ∧ continues lead = false ∧
    (∀ byte ∈ tail, continues byte = true) ∧ tail.length ≤ 3 := by
  have starts {byte : UInt8} {number : Nat} (small : number < 256) (outside : number < 0x80 ∨ 0xBF < number)
      (value : byte = UInt8.ofNat number) : continues byte = false := by
    rw [Bool.eq_false_iff]
    intro continued
    have bounds := value_of_continues continued
    rw [value, byte_value number small] at bounds
    omega
  have goesOn (number : Nat) : continues (UInt8.ofNat (number % 0x40 + 0x80)) = true := by
    apply continues_of_value <;> rw [byte_value _ (by omega)] <;> omega
  by_cases one : character.toNat ≤ 0x7F
  · have small : character.toNat < 0x80 := Nat.lt_succ_of_le one
    exact ⟨_, [], if_pos one, starts (by omega) (.inl small) rfl, by simp, by simp⟩
  · by_cases two : character.toNat ≤ 0x7FF
    · refine ⟨_, _, (if_neg one).trans (if_pos two), starts (by omega) (by omega) rfl, ?_, by simp⟩
      simp only [List.forall_mem_cons]
      exact ⟨goesOn _, by simp⟩
    · by_cases three : character.toNat ≤ 0xFFFF
      · refine ⟨_, _, (if_neg one).trans ((if_neg two).trans (if_pos three)), starts (by omega) (by omega) rfl,
          ?_, by simp⟩
        simp only [List.forall_mem_cons]
        exact ⟨goesOn _, goesOn _, by simp⟩
      · refine ⟨_, _, (if_neg one).trans ((if_neg two).trans (if_neg three)), starts (by omega) (by omega) rfl,
          ?_, by simp⟩
        simp only [List.forall_mem_cons]
        exact ⟨goesOn _, goesOn _, goesOn _, by simp⟩

/-- A text that does not start within a character. -/
def AtCharacter (text : Text) : Prop := ∀ byte ∈ text.head?, continues byte = false

/-- Encoded characters start with a character, also if there are none at all. -/
theorem of_characters_at_character (characters : List Char) : AtCharacter (ofCharacters characters) := by
  cases characters with
  | nil => simp [AtCharacter, ofCharacters]
  | cons character rest =>
    obtain ⟨lead, tail, encoded, starts, _⟩ := of_char_shape character
    rw [ofCharacters, List.flatMap_cons, encoded]
    simpa [AtCharacter] using starts

/-- What stands in front of a place where a character starts is a sequence of whole characters. The induction is on
the characters; a place within the first one would start with a byte that continues it. -/
theorem characters_in_front {characters : List Char} {before after : Text} (atCharacter : AtCharacter after)
    (encoded : ofCharacters characters = before ++ after) : ∃ earlier, before = ofCharacters earlier := by
  induction characters generalizing before with
  | nil =>
    obtain ⟨none, _⟩ := List.append_eq_nil_iff.mp encoded.symm
    exact ⟨[], none⟩
  | cons character rest ih =>
    rw [ofCharacters, List.flatMap_cons] at encoded
    rcases List.append_eq_append_iff.mp encoded with ⟨middle, isBefore, isRest⟩ | ⟨middle, isFirst, isAfter⟩
    · obtain ⟨earlier, rfl⟩ := ih isRest
      exact ⟨character :: earlier, isBefore⟩
    · cases middle with
      | nil =>
        refine ⟨[character], ?_⟩
        rw [List.append_nil] at isFirst
        rw [← isFirst, ofCharacters, List.flatMap_singleton]
      | cons byte middle =>
        -- The byte behind the cut starts a character, so that it is the first of its encoding.
        have starts : continues byte = false := atCharacter byte (by rw [isAfter]; rfl)
        obtain ⟨lead, tail, shape, _, goesOn, _⟩ := of_char_shape character
        rw [shape] at isFirst
        cases before with
        | nil => exact ⟨[], rfl⟩
        | cons first before =>
          have inTail : byte ∈ tail := by
            rw [(List.cons.inj isFirst).2]
            simp
          rw [goesOn byte inTail] at starts
          cases starts

/-- What stands behind whole characters is a sequence of whole characters, since encodings are read back one by
one. -/
theorem characters_behind {characters before : List Char} {after : Text}
    (encoded : ofCharacters characters = ofCharacters before ++ after) : ∃ later, after = ofCharacters later := by
  have read := congrArg glyphs encoded
  rw [glyphs_of_characters, glyphs_of_characters_append] at read
  refine ⟨after.characters, (of_characters_of_utf8 ?_).symm⟩
  rw [isUtf8, List.all_eq_true]
  intro glyph member
  have listed : glyph ∈ characters.map Glyph.char := read ▸ List.mem_append_right _ member
  obtain ⟨character, _, rfl⟩ := List.mem_map.mp listed
  rfl

/-! ## Runs of bytes that continue a character -/

/-- From no place on do more than three bytes continue a character. -/
def Sparse (text : Text) : Prop := ∀ start, ((text.drop start).takeWhile continues).length ≤ 3

/-- Encoded characters are sparse: after at most three bytes that continue a character, another one starts or the text
ends. -/
theorem of_characters_sparse (characters : List Char) : Sparse (ofCharacters characters) := by
  induction characters with
  | nil => simp [Sparse, ofCharacters]
  | cons character rest ih =>
    intro start
    obtain ⟨lead, tail, encoded, starts, _, short⟩ := of_char_shape character
    have whole : ofCharacters (character :: rest) = lead :: tail ++ ofCharacters rest := by
      rw [ofCharacters, List.flatMap_cons, encoded, ofCharacters]
    have next : (ofCharacters rest).takeWhile continues = [] := by
      have atCharacter := of_characters_at_character rest
      cases shape : ofCharacters rest with
      | nil => rfl
      | cons byte others => exact List.takeWhile_cons_of_neg (by simp [atCharacter byte (by rw [shape]; rfl)])
    rw [whole]
    cases start with
    | zero => simp [starts]
    | succ start =>
      rw [List.cons_append, List.drop_succ_cons, List.drop_append]
      by_cases inside : start ≤ tail.length
      · -- What is left of the tail has at most three bytes, and behind it a character starts.
        have none : start - tail.length = 0 := by omega
        rw [none, List.drop_zero, List.takeWhile_append]
        split
        · rw [next, List.append_nil, List.length_drop]
          omega
        · exact ((List.takeWhile_prefix _).length_le).trans (by rw [List.length_drop]; omega)
      · rw [List.drop_eq_nil_of_le (by omega), List.nil_append]
        exact ih _

/-- A part of a sparse text is sparse. It may end earlier, but then it has fewer bytes that continue a character. -/
theorem Sparse.part {before text after : Text} (sparse : Sparse (before ++ (text ++ after))) : Sparse text := by
  intro start
  by_cases inside : start ≤ text.length
  · have bound := sparse (before.length + start)
    rw [← List.drop_drop, List.drop_left, List.drop_append_of_le_length inside, List.takeWhile_append] at bound
    split at bound
    · rw [List.length_append] at bound
      exact (List.takeWhile_prefix _).length_le.trans (by omega)
    · exact bound
  · rw [List.drop_eq_nil_of_le (by omega)]
    exact Nat.zero_le _

end Text

namespace LineTracker

open Text

/-! ## Cutting a line -/

/-- A line that fits is kept as it is. -/
theorem keep_of_fits {line : Text} (fits : line.length ≤ lineLimit) : keep line = line := if_pos fits

/-- Of a longer line the last bytes are kept, from the first one on that starts a character. -/
theorem keep_of_long {line : Text} (long : lineLimit < line.length) :
    keep line = (line.drop (line.length - lineLimit)).dropWhile continues := if_neg (Nat.not_le.mpr long)

/-- What is kept of a long sparse line is not empty, as the limit is longer than any run of bytes that are dropped. -/
theorem keep_ne_nil {line : Text} (sparse : Sparse line) (long : lineLimit < line.length) : keep line ≠ [] := by
  intro none
  rw [keep_of_long long, List.dropWhile_eq_nil_iff] at none
  have bound := sparse (line.length - lineLimit)
  rw [List.takeWhile_eq_self_iff.mpr none, List.length_drop] at bound
  have limit : 3 < lineLimit := by decide
  omega

/-- What is kept of a line that is too long starts with a character. This holds of any bytes, since the cut goes
forward to such a place. -/
theorem keep_at_character {line : Text} (long : lineLimit < line.length) : AtCharacter (keep line) := by
  rw [keep_of_long long]
  generalize line.drop (line.length - lineLimit) = ending
  intro byte first
  have stopped := List.head?_dropWhile_not continues ending
  rw [Option.mem_def.mp first] at stopped
  exact stopped

/-- A text that starts with a character is left by dropping bytes that continue one, together with what may stand in
front of it. All that is dropped is therefore in front of such a text. -/
theorem dropWhile_of_at_character {before after : Text} (atCharacter : AtCharacter after) :
    (before ++ after).dropWhile continues = before.dropWhile continues ++ after := by
  rw [List.dropWhile_append]
  split
  · next empty =>
    rw [List.isEmpty_iff.mp empty, List.nil_append]
    cases after with
    | nil => rfl
    | cons byte rest => exact List.dropWhile_cons_of_neg (by simp [atCharacter byte rfl])
  · rfl

/-- The last bytes of a long line are some that continue a character, and then those that are kept. -/
theorem last_bytes {line : Text} (long : lineLimit < line.length) :
    ∃ dropped, (∀ byte ∈ dropped, continues byte = true) ∧
      line.drop (line.length - lineLimit) = dropped ++ keep line := by
  refine ⟨(line.drop (line.length - lineLimit)).takeWhile continues, ?_, ?_⟩
  · intro byte
    exact List.mem_takeWhile_imp
  · rw [keep_of_long long, List.takeWhile_append_dropWhile]

/-- The last bytes of a long line with output behind it are found among its own last bytes and the output. So nothing
in front of its last bytes matters later. -/
theorem last_bytes_append {line : Text} (long : lineLimit < line.length) (output : Text) :
    (line ++ output).drop ((line ++ output).length - lineLimit) =
      (line.drop (line.length - lineLimit) ++ output).drop output.length := by
  have amount : (line ++ output).length - lineLimit = line.length - lineLimit + output.length := by
    rw [List.length_append]
    omega
  rw [amount, ← List.drop_drop, List.drop_append_of_le_length (Nat.sub_le _ _)]

/-- To cut a line, to add to it and to cut it again is to cut it once. What the first cut has dropped is dropped by
the second one in any case, because a run of bytes that continue a character is short. -/
theorem keep_append_keep {line : Text} (sparse : Sparse line) (output : Text) :
    keep (keep line ++ output) = keep (line ++ output) := by
  by_cases fits : line.length ≤ lineLimit
  · rw [keep_of_fits fits]
  have long : lineLimit < line.length := Nat.not_le.mp fits
  obtain ⟨dropped, goesOn, isEnd⟩ := last_bytes long
  have size : dropped.length + (keep line).length = lineLimit := by
    rw [← List.length_append, ← isEnd, List.length_drop]
    omega
  have wholeLong : lineLimit < (line ++ output).length := by
    rw [List.length_append]
    omega
  have whole : keep (line ++ output) =
      (dropped.drop output.length ++
        (keep line ++ output).drop (output.length - dropped.length)).dropWhile continues := by
    rw [keep_of_long wholeLong, last_bytes_append long, isEnd, List.append_assoc, List.drop_append]
  have sum : (keep line ++ output).length = (keep line).length + output.length := List.length_append
  by_cases short : output.length ≤ dropped.length
  · -- What is dropped from the whole line was dropped before, and what was kept starts with a character.
    have again : ∀ byte ∈ dropped.drop output.length, continues byte = true :=
      fun byte member => goesOn byte (List.mem_of_mem_drop member)
    have atCharacter : AtCharacter (keep line ++ output) := by
      intro byte first
      rw [List.head?_append_of_ne_nil _ (keep_ne_nil sparse long)] at first
      exact keep_at_character long byte first
    rw [whole, Nat.sub_eq_zero_of_le short, List.drop_zero, dropWhile_of_at_character atCharacter,
      List.dropWhile_eq_nil_iff.mpr again, List.nil_append]
    exact keep_of_fits (by omega)
  · -- Everything that was dropped lies in front of the new cut.
    have amount : (keep line ++ output).length - lineLimit = output.length - dropped.length := by omega
    rw [whole, List.drop_eq_nil_of_le (Nat.le_of_not_le short), List.nil_append, ← amount]
    exact keep_of_long (by omega)

/-! ## The last line -/

/-- The last line of a text: what stands behind its last line feed, or all of it if there is none. -/
def lastLine (text : Text) : Text := text.rtakeWhile fun byte => byte != lineFeed

/-- A text without line feeds is one line, which it adds to the line in front of it. The induction takes off its last
byte, as lines are found from the end. -/
theorem last_line_append_within (before : Text) {text : Text} (within : lineFeed ∉ text) :
    lastLine (before ++ text) = lastLine before ++ text := by
  induction text using List.reverseRecOn with
  | nil => rw [List.append_nil, List.append_nil]
  | append_singleton rest byte ih =>
    rw [List.mem_append, not_or, List.mem_singleton] at within
    have other : (byte != lineFeed) = true := bne_iff_ne.mpr (Ne.symm within.2)
    rw [← List.append_assoc, lastLine, List.rtakeWhile_concat_pos (fun byte => byte != lineFeed) _ _ other, ← lastLine,
      ih within.1, List.append_assoc]

/-- Behind a line feed the text in front of it does not matter. -/
theorem last_line_behind (before : Text) {line : Text} (within : lineFeed ∉ line) :
    lastLine (before ++ lineFeed :: line) = line := by
  have ended : lastLine (before ++ [lineFeed]) = [] := List.rtakeWhile_concat_neg _ _ _ (by simp)
  rw [← List.singleton_append, ← List.append_assoc, last_line_append_within _ within, ended, List.nil_append]

/-- Either the text has no line feed, or its last line stands behind one. This describes the function of the tracker,
which goes forward. -/
theorem after_line_feed (text : Text) :
    (afterLineFeed? text = none ∧ lineFeed ∉ text) ∨
      ∃ before line, afterLineFeed? text = some line ∧ text = before ++ lineFeed :: line ∧ lineFeed ∉ line := by
  induction text with
  | nil => exact .inl ⟨rfl, by simp⟩
  | cons first rest ih =>
    rcases ih with ⟨none, within⟩ | ⟨before, line, some, isRest, within⟩
    · by_cases isLineFeed : first = lineFeed
      · refine .inr ⟨[], rest, ?_, by rw [isLineFeed, List.nil_append], within⟩
        simp [afterLineFeed?, none, isLineFeed]
      · refine .inl ⟨by simp [afterLineFeed?, none, isLineFeed], ?_⟩
        simpa [within] using Ne.symm isLineFeed
    · exact .inr ⟨first :: before, line, by simp [afterLineFeed?, some], by rw [isRest, List.cons_append], within⟩

/-- The last line is an end of the text, and so sparse if the text is. -/
theorem last_line_suffix (text : Text) : lastLine text <:+ text := List.rtakeWhile_suffix _ _

/-- The last line of encoded characters is made of encoded characters. A line feed is encoded by its own byte, so that
no character is cut at it. -/
theorem last_line_characters (characters : List Char) :
    ∃ others, lastLine (ofCharacters characters) = ofCharacters others := by
  rcases after_line_feed (ofCharacters characters) with ⟨_, within⟩ | ⟨before, line, _, isText, within⟩
  · refine ⟨characters, ?_⟩
    have alone := last_line_append_within [] within
    rwa [List.nil_append] at alone
  · obtain ⟨earlier, later, _, _, isLine⟩ := split_line_feed isText
    exact ⟨later, by rw [isText, last_line_behind _ within, isLine]⟩

/-! ## Writes -/

/-- A tracker and its sink after some writes, one after the other. -/
def writeAll (tracker : LineTracker) (sink : Sink) : List Text → LineTracker × Sink
  | [] => (tracker, sink)
  | piece :: rest =>
    let (_, tracker, sink) := tracker.write sink piece
    tracker.writeAll sink rest

/-- The tracker is in the last line of all that was written so far, of which it has kept what it keeps of it whole.
This is the step for one write: either the output goes on with the line, or it starts another one. -/
theorem follow_keep {written output : Text} (sparse : Sparse (lastLine written)) :
    follow (keep (lastLine written)) output = keep (lastLine (written ++ output)) := by
  rcases after_line_feed output with ⟨none, within⟩ | ⟨before, line, some, isOutput, within⟩
  · rw [last_line_append_within _ within, ← keep_append_keep sparse]
    simp only [follow, none]
  · rw [isOutput, ← List.append_assoc, last_line_behind _ within, ← isOutput]
    simp only [follow, some]

/-- After any writes the tracker has kept of its line what it keeps of the last line of all that was written. The
induction is on the writes and carries the text that was written before. -/
theorem write_all_line (written : Text) (pieces : List Text) (sparse : Sparse (written ++ pieces.flatten))
    (tracker : LineTracker) (line : tracker.partialLine = keep (lastLine written)) (sink : Sink) :
    (tracker.writeAll sink pieces).1.partialLine = keep (lastLine (written ++ pieces.flatten)) := by
  induction pieces generalizing written tracker sink with
  | nil => rw [writeAll, List.flatten_nil, List.append_nil, line]
  | cons piece rest ih =>
    rw [List.flatten_cons, ← List.append_assoc] at sparse ⊢
    obtain ⟨before, isWritten⟩ := last_line_suffix written
    have lineSparse : Sparse (lastLine written) := by
      rw [← isWritten, List.append_assoc, List.append_assoc] at sparse
      exact sparse.part
    apply ih _ sparse
    change follow tracker.partialLine piece = _
    rw [line, follow_keep lineSparse]

/-! ## What is kept -/

/-- What may be kept of a line: an end of it that fits, and that is all of it or starts with a character. -/
structure Keepable (line kept : Text) : Prop where
  ending : kept <:+ line
  fits : kept.length ≤ lineLimit
  whole_or_starts : kept = line ∨ ∃ before : List Char, line = ofCharacters before ++ kept

/-- What is kept of encoded characters may be kept: it is an end of them that fits and starts with a character. -/
theorem keep_keepable (characters : List Char) :
    Keepable (ofCharacters characters) (keep (ofCharacters characters)) := by
  by_cases fits : (ofCharacters characters).length ≤ lineLimit
  · rw [keep_of_fits fits]
    exact ⟨List.suffix_rfl, fits, .inl rfl⟩
  have long := Nat.not_le.mp fits
  have inEnd : keep (ofCharacters characters) <:+
      (ofCharacters characters).drop ((ofCharacters characters).length - lineLimit) := by
    rw [keep_of_long long]
    exact List.dropWhile_suffix _
  have ending := inEnd.trans (List.drop_suffix _ _)
  refine ⟨ending, ?_, .inr ?_⟩
  · have bound := inEnd.length_le
    rw [List.length_drop] at bound
    omega
  · obtain ⟨before, isWhole⟩ := ending
    obtain ⟨earlier, rfl⟩ := characters_in_front (keep_at_character long) isWhole.symm
    exact ⟨earlier, isWhole.symm⟩

/-- Nothing longer may be kept of encoded characters than what is kept. A longer end would start within the bytes that
were dropped, none of which starts a character. -/
theorem keep_longest {characters : List Char} {other : Text} (keepable : Keepable (ofCharacters characters) other) :
    other.length ≤ (keep (ofCharacters characters)).length := by
  by_cases fits : (ofCharacters characters).length ≤ lineLimit
  · rw [keep_of_fits fits]
    exact keepable.ending.length_le
  have long := Nat.not_le.mp fits
  rcases keepable.whole_or_starts with rfl | ⟨before, isWhole⟩
  · exact absurd keepable.fits fits
  -- The other end lies within the last bytes and starts with a character, so that dropping spares it.
  obtain ⟨later, rfl⟩ := characters_behind isWhole
  have cut : (ofCharacters characters).drop ((ofCharacters characters).length - lineLimit) =
      (ofCharacters before).drop ((ofCharacters characters).length - lineLimit) ++ ofCharacters later := by
    have size := congrArg List.length isWhole
    have fitting := keepable.fits
    rw [List.length_append] at size
    rw [isWhole, List.drop_append_of_le_length (by rw [← isWhole]; omega)]
  rw [keep_of_long long, cut, dropWhile_of_at_character (of_characters_at_character later), List.length_append]
  exact Nat.le_add_left _ _

/-- The line that a tracker is in does not depend on how output is cut into writes: for pieces that make up a text of
UTF-8, cut anywhere, it is the longest end of the last line that may be kept, and the one that a single write of the
whole text leaves. -/
theorem partial_line_cut_independent (buffer : Buffer) (sink : Sink) (pieces : List Text)
    (encoded : Text.isUtf8 pieces.flatten = true) :
    let line := (writeAll { buffer } sink pieces).1.partialLine
    (Keepable (lastLine pieces.flatten) line ∧
      ∀ other, Keepable (lastLine pieces.flatten) other → other.length ≤ line.length) ∧
      line = (write { buffer } sink pieces.flatten).2.1.partialLine := by
  intro line
  have whole := of_characters_of_utf8 encoded
  have sparse : Sparse pieces.flatten := whole ▸ of_characters_sparse _
  have kept : line = keep (lastLine pieces.flatten) := write_all_line [] pieces sparse { buffer } rfl sink
  obtain ⟨characters, isLast⟩ := last_line_characters (characters pieces.flatten)
  rw [whole] at isLast
  constructor
  · rw [kept, isLast]
    exact ⟨keep_keepable characters, fun other => keep_longest⟩
  · have single := write_all_line [] [pieces.flatten] (by simpa using sparse) { buffer } rfl sink
    rw [List.flatten_singleton] at single
    exact kept.trans single.symm

/-- Euro signs, each of three bytes. -/
def euros (count : Nat) : Text := ofCharacters (List.replicate count '€')

/-- A line of 86 euro signs, which is two bytes too long, written in two pieces: the last sign is cut behind its second
byte, where the line is one byte too long. -/
def cutEuros : List Text := ["total\n" ++ (euros 86).take 257, (euros 86).drop 257]

/-- Of that line 85 euro signs are kept, and no longer end of it may be. -/
theorem cut_euros_kept : Text.isUtf8 cutEuros.flatten = true ∧
    (writeAll {} {} cutEuros).1.partialLine = euros 85 ∧ Keepable (lastLine cutEuros.flatten) (euros 85) ∧
    ∀ other, Keepable (lastLine cutEuros.flatten) other → other.length ≤ 255 := by
  have encoded : Text.isUtf8 cutEuros.flatten = true := by decide +kernel
  have kept : (writeAll {} {} cutEuros).1.partialLine = euros 85 := by decide +kernel
  have size : (euros 85).length = 255 := by decide +kernel
  obtain ⟨⟨keepable, longest⟩, _⟩ := partial_line_cut_independent {} {} cutEuros encoded
  rw [kept] at keepable
  refine ⟨encoded, kept, keepable, ?_⟩
  intro other may
  have bound := longest other may
  rwa [kept, size] at bound

end LineTracker

end IntegerMachine
