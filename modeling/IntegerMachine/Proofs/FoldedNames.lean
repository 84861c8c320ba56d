import IntegerMachine.Proofs.Folding
import IntegerMachine.Source.Parse

/-!
# Names in folded form

Upper case sends letters to letters and leaves decimal digits alone, so that the folded form of a name is a name.

Like the facts about folding itself, this is read off the table of upper case by comparing rows with ranges. The images
of nearly every row lie in one range of letters. Rows that move no letter need no comparison, and the images of what is
left are looked up one by one.
-/
namespace IntegerMachine

/-- Whether all code points from `low` to `high` are letters: capitals in ASCII, or one range of letters above it. -/
def lettersBetween (low high : Nat) : Bool :=
  (Nat.ble 0x41 low && Nat.ble high 0x5A) ||
    letterRanges.any fun range => Nat.ble range.1 low && Nat.ble high range.2

/-- Whether a row moves no code point of the ranges. -/
def CaseRow.avoids (ranges : List (Nat × Nat)) (row : CaseRow) : Bool :=
  ranges.all fun range => Nat.blt row.2.1 range.1 || Nat.blt range.2 row.1

/-- The image of a code point that a row moves. -/
def CaseRow.image (row : CaseRow) (point : Nat) : Nat := (point + row.2.2.2).toNat

/-- Whether a row sends letters to letters. -/
def CaseRow.lettered (row : CaseRow) : Bool :=
  lettersBetween (row.image row.1) (row.image row.2.1) || row.avoids letterRanges ||
    (List.range ((row.2.1 - row.1) / row.2.2.1 + 1)).all fun count =>
      let image := row.image (row.1 + row.2.2.1 * count)
      lettersBetween image image

/-- Every row of the upper-case table sends letters to letters. The comparison goes through rows and ranges in the
kernel. -/
theorem upper_rows_lettered : upperRows.all CaseRow.lettered = true := by decide +kernel

/-- No row of the upper-case table moves a decimal digit. -/
theorem upper_rows_avoid_digits : upperRows.all (CaseRow.avoids digitRanges) = true := by decide +kernel

/-- A row that avoids ranges does not move a code point in them: it ends before the range of the code point, or starts
behind it. -/
theorem CaseRow.not_moved_of_avoids {row : CaseRow} {ranges : List (Nat × Nat)} (avoids : row.avoids ranges = true)
    {point : Nat} (listed : (ranges.any fun range => range.1 ≤ point && point ≤ range.2) = true) :
    row.moves point = false := by
  obtain ⟨range, member, within⟩ := List.any_eq_true.mp listed
  have apart := List.all_eq_true.mp avoids range member
  simp only [Bool.and_eq_true, decide_eq_true_eq] at within
  simp only [Bool.or_eq_true, Nat.blt_eq] at apart
  simp only [moves, Bool.and_eq_false_iff, decide_eq_false_iff_not]
  omega

/-- A code point between two bounds of letters is a capital in ASCII, or in a range of letters. The two bounds are the
images of the ends of a row. -/
theorem letter_between {low high point : Nat} (between : lettersBetween low high = true) (lower : low ≤ point)
    (upper : point ≤ high) :
    point ≤ 0x5A ∨ (letterRanges.any fun range => range.1 ≤ point && point ≤ range.2) = true := by
  simp only [lettersBetween, Bool.or_eq_true, Bool.and_eq_true, Nat.ble_eq] at between
  rcases between with capital | listed
  · left
    omega
  · right
    obtain ⟨range, member, within⟩ := List.any_eq_true.mp listed
    refine List.any_eq_true.mpr ⟨range, member, ?_⟩
    simp only [Bool.and_eq_true, Nat.ble_eq, decide_eq_true_eq] at within ⊢
    omega

/-- The image of a letter above ASCII under a row that moves it. In the first case the whole row has its images among
letters; in the last one the image is looked up by itself. -/
theorem CaseRow.lettered_image {row : CaseRow} (lettered : row.lettered = true) {point : Nat}
    (moved : row.moves point = true)
    (letter : (letterRanges.any fun range => range.1 ≤ point && point ≤ range.2) = true) :
    row.image point ≤ 0x5A ∨
      (letterRanges.any fun range => range.1 ≤ row.image point && row.image point ≤ range.2) = true := by
  simp only [CaseRow.lettered, Bool.or_eq_true] at lettered
  have bounds := moved
  simp only [moves, Bool.and_eq_true, decide_eq_true_eq, beq_iff_eq] at bounds
  obtain ⟨⟨first, last⟩, stepped⟩ := bounds
  rcases lettered with (between | avoids) | each
  · apply letter_between between
    · simp only [image]
      omega
    · simp only [image]
      omega
  · rw [not_moved_of_avoids avoids letter] at moved
    cases moved
  · have count : (point - row.1) / row.2.2.1 ∈ List.range ((row.2.1 - row.1) / row.2.2.1 + 1) := by
      rw [List.mem_range, Nat.lt_succ_iff]
      exact Nat.div_le_div_right (by omega)
    have single := List.all_eq_true.mp each _ count
    rw [Nat.mul_div_cancel' (Nat.dvd_of_mod_eq_zero stepped), Nat.add_sub_cancel' first] at single
    exact letter_between single (Nat.le_refl _) (Nat.le_refl _)

/-- Upper case sends letters to letters. In ASCII this is checked character by character, above it row by row. -/
theorem upper_case_letter (character : Char) (letter : isLetter character = true) :
    isLetter (upperCase character) = true := by
  by_cases ascii : character.toNat < 0x80
  · have every : ∀ number < 0x80, isLetter (Char.ofNat number) = true →
        isLetter (upperCase (Char.ofNat number)) = true := by decide +kernel
    have own := every character.toNat ascii
    rw [Char.ofNat_toNat] at own
    exact own letter
  · have listed : (letterRanges.any fun range => range.1 ≤ character.toNat && character.toNat ≤ range.2) = true := by
      rwa [isLetter, if_neg ascii] at letter
    have mapped : upperCase character = Char.ofNat (mapCodePoint upperRows character.toNat) := if_neg ascii
    rw [mapped, mapCodePoint]
    cases found : upperRows.find? (CaseRow.moves · character.toNat) with
    | none =>
      simp only [CaseRow.moves] at found
      rw [found, Char.ofNat_toNat]
      exact letter
    | some row =>
      have member := List.mem_of_find?_eq_some found
      have moved := List.find?_some found
      obtain ⟨valid, range, _⟩ := upper_row_image row member character.toNat moved
      have image := CaseRow.lettered_image (List.all_eq_true.mp upper_rows_lettered row member) moved listed
      have value := to_nat_of_nat _ valid
      simp only [CaseRow.moves] at found
      rw [found]
      dsimp only
      rcases range with above | capital
      · rw [isLetter, value, if_neg (Nat.not_lt.mpr above)]
        refine image.resolve_left fun below => ?_
        rw [CaseRow.image] at below
        omega
      · have every : ∀ number < 0x5B, 0x41 ≤ number → isLetter (Char.ofNat number) = true := by decide +kernel
        exact every _ (by omega) capital.1

/-- Upper case leaves decimal digits alone, those above ASCII included. -/
theorem upper_case_digit (character : Char) (digit : isDecimalDigit character = true) :
    upperCase character = character := by
  by_cases ascii : character.toNat < 0x80
  · have every : ∀ number < 0x80, isDecimalDigit (Char.ofNat number) = true →
        upperCase (Char.ofNat number) = Char.ofNat number := by decide +kernel
    have own := every character.toNat ascii
    rw [Char.ofNat_toNat] at own
    exact own digit
  · rw [isDecimalDigit, if_neg ascii] at digit
    have unmoved : upperRows.find? (CaseRow.moves · character.toNat) = none := by
      rw [List.find?_eq_none]
      intro row member
      rw [CaseRow.not_moved_of_avoids (List.all_eq_true.mp upper_rows_avoid_digits row member) digit]
      exact Bool.false_ne_true
    simp only [CaseRow.moves] at unmoved
    rw [upperCase, if_neg ascii, mapCodePoint, unmoved, Char.ofNat_toNat]

/-- The folded form of a name is a name. It has as many characters, its first one is a letter or an underscore, and
all others are letters, digits or underscores. -/
theorem fold_is_name {text : Text} (named : isName text = true) : isName text.fold = true := by
  have begins (character : Char) (allowed : (character == '_' || isLetter character) = true) :
      (upperCase character == '_' || isLetter (upperCase character)) = true := by
    rw [Bool.or_eq_true, beq_iff_eq] at allowed ⊢
    rcases allowed with rfl | letter
    · exact .inl (by decide)
    · exact .inr (upper_case_letter character letter)
  unfold isName at named ⊢
  rw [Text.characters_fold]
  cases characters : text.characters with
  | nil => simp [characters] at named
  | cons first rest =>
    simp only [characters, Bool.and_eq_true, List.all_eq_true] at named
    simp only [List.map_cons, Bool.and_eq_true, List.all_eq_true, List.forall_mem_map]
    refine ⟨begins first named.1, fun character member => ?_⟩
    rcases Bool.or_eq_true_iff.mp (named.2 character member) with starting | digit
    · rw [begins character starting]
      rfl
    · rw [upper_case_digit character digit, digit, Bool.or_true]

end IntegerMachine
