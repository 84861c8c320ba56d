import Mathlib.Algebra.Group.Int.Defs
import Mathlib.Algebra.Group.Nat.Defs
import Mathlib.Data.List.Basic
import Mathlib.Data.List.Induction
import IntegerMachine.Literal
import IntegerMachine.Proofs.Decoding

/-!
# The grammar of literals

The texts that are literals, and the cell that each of them stands for, as a grammar: what quotes hold, single
characters, and signed numbers of three bases. Reading a literal succeeds on exactly the texts of the grammar, with
the value that the grammar gives them.

The reader goes through the digits from the left and stops where what it has read is too large. The grammar speaks of
the whole number. The two agree since a number does not get smaller by a further digit.
-/
namespace IntegerMachine

namespace Literal

/-! ## Digits and numbers -/

/-- A byte is the digit of a base that stands for a value. -/
def IsDigit (base : Nat) (byte : UInt8) (value : Nat) : Prop :=
  value < base ∧ (("0123456789abcdef" : Text)[value]? = some byte ∨ ("0123456789ABCDEF" : Text)[value]? = some byte)

/-- One or more digits of a base write a number, the most significant digit first. -/
inductive Writes (base : Nat) : Text → Nat → Prop where
  | digit {byte : UInt8} {value : Nat} : IsDigit base byte value → Writes base [byte] value
  | more {text : Text} {number : Nat} {byte : UInt8} {value : Nat} :
      Writes base text number → IsDigit base byte value → Writes base (text ++ [byte]) (number * base + value)

/-- The digits have these values, and no other byte has one. All bytes are compared with both alphabets. -/
theorem digit_value_iff {byte : UInt8} {value : Nat} : digitValue byte = some value ↔
    ("0123456789abcdef" : Text)[value]? = some byte ∨ ("0123456789ABCDEF" : Text)[value]? = some byte := by
  have listed : ∀ number < 256, ∀ value ∈ digitValue (UInt8.ofNat number),
      ("0123456789abcdef" : Text)[value]? = some (UInt8.ofNat number) ∨
        ("0123456789ABCDEF" : Text)[value]? = some (UInt8.ofNat number) := by
    decide +kernel
  have valued : ∀ digits ∈ [("0123456789abcdef" : Text), ("0123456789ABCDEF" : Text)], digits.length = 16 ∧
      ∀ value < 16, digits[value]?.bind digitValue = some value := by
    decide +kernel
  have found : ∀ digits ∈ [("0123456789abcdef" : Text), ("0123456789ABCDEF" : Text)],
      digits[value]? = some byte → digitValue byte = some value := by
    intro digits listed stands
    obtain ⟨size, every⟩ := valued digits listed
    obtain ⟨below, _⟩ := List.getElem?_eq_some_iff.mp stands
    have isValue := every value (size ▸ below)
    rwa [stands] at isValue
  constructor
  · intro isValue
    have found := listed byte.toNat byte.toNat_lt value
    rw [UInt8.ofNat_toNat] at found
    exact found isValue
  · rintro (lower | upper)
    · exact found _ (by simp) lower
    · exact found _ (by simp) upper

/-- The reader of digits agrees with the alphabet, up to the base. -/
theorem digit_in_iff {base : Nat} {byte : UInt8} {value : Nat} :
    digitIn base byte = some value ↔ IsDigit base byte value := by
  rw [digitIn, Option.filter_eq_some_iff, digit_value_iff, decide_eq_true_eq, and_comm]
  rfl

/-- Reading one more digit at the end multiplies by the base and adds it. The reader takes digits from the front, so
that this is an induction. -/
theorem fixed_digits_snoc {base : Nat} (start : Nat) (text : Text) (byte : UInt8) {number : Nat} :
    fixedDigits base start (text ++ [byte]) = some number ↔
      ∃ before value, fixedDigits base start text = some before ∧ IsDigit base byte value ∧
        before * base + value = number := by
  induction text generalizing start with
  | nil =>
    simp only [List.nil_append, fixedDigits, Option.some.injEq, ← digit_in_iff, exists_and_left, exists_eq_left']
    cases digitIn base byte with
    | none => simp only [reduceCtorEq, false_and, exists_false]
    | some value => simp only [Option.some.injEq, exists_eq_left']
  | cons first rest ih =>
    rw [List.cons_append, fixedDigits, fixedDigits]
    cases digitIn base first with
    | none => simp only [reduceCtorEq, false_and, exists_false]
    | some value => exact ih _

/-- Reading all digits of a text gives the number that they write. A text without digits writes none, and is excluded
on both sides. -/
theorem fixed_digits_iff {base : Nat} {text : Text} {number : Nat} :
    text ≠ [] ∧ fixedDigits base 0 text = some number ↔ Writes base text number := by
  constructor
  · rintro ⟨filled, read⟩
    induction text using List.reverseRecOn generalizing number with
    | nil => exact absurd rfl filled
    | append_singleton text byte ih =>
      obtain ⟨before, value, front, isDigit, rfl⟩ := (fixed_digits_snoc 0 text byte).mp read
      cases text with
      | nil =>
        cases front
        rw [Nat.zero_mul, Nat.zero_add]
        exact .digit isDigit
      | cons first rest => exact .more (ih (List.cons_ne_nil _ _) front) isDigit
  · intro writes
    induction writes with
    | @digit byte value isDigit =>
      refine ⟨List.cons_ne_nil _ _, ?_⟩
      exact (fixed_digits_snoc 0 [] byte).mpr ⟨0, value, rfl, isDigit, by omega⟩
    | @more text number byte value _ isDigit ih =>
      refine ⟨List.append_ne_nil_of_right_ne_nil _ (List.cons_ne_nil _ _), ?_⟩
      exact (fixed_digits_snoc 0 text byte).mpr ⟨number, value, ih.2, isDigit, rfl⟩

/-- A number does not get smaller by further digits. So a reader that stops at a number that is too large has not
stopped too early. -/
theorem fixed_digits_grow {base : Nat} (positive : 0 < base) {text : Text} {start number : Nat}
    (read : fixedDigits base start text = some number) : start ≤ number := by
  induction text generalizing start with
  | nil => exact Nat.le_of_eq (Option.some.inj read)
  | cons byte rest ih =>
    rw [fixedDigits] at read
    cases digit : digitIn base byte with
    | none => rw [digit] at read; cases read
    | some value =>
      rw [digit] at read
      have grown := ih read
      have kept : start * 1 ≤ start * base := Nat.mul_le_mul_left start positive
      omega

/-- The digits of a 32-bit number are read if their number is one. The reader stops as soon as it is too large, and by
the lemma above it then stays too large. -/
theorem more_digits_iff {base : Nat} (positive : 0 < base) {text : Text} {start number : Nat}
    (small : start < 0x100000000) :
    moreDigits base start text = .ok number ↔ fixedDigits base start text = some number ∧ number < 0x100000000 := by
  induction text generalizing start with
  | nil =>
    rw [moreDigits, fixedDigits, Except.ok.injEq, Option.some.injEq]
    constructor
    · rintro rfl
      exact ⟨rfl, small⟩
    · exact And.left
  | cons byte rest ih =>
    rw [moreDigits, fixedDigits]
    cases digitIn base byte with
    | none => simp only [reduceCtorEq, false_and]
    | some value =>
      by_cases large : 0x100000000 ≤ start * base + value
      · simp only [large, if_true, reduceCtorEq, false_iff, not_and, Nat.not_lt]
        intro read
        exact Nat.le_trans large (fixed_digits_grow positive read)
      · simp only [large, if_false]
        exact ih (Nat.not_le.mp large)

/-- Reading an unsigned number succeeds exactly if there are digits, and their number fits 32 bits. -/
theorem number_iff {base : Nat} (positive : 0 < base) {text : Text} {magnitude : Nat} :
    number base text = .ok magnitude ↔ Writes base text magnitude ∧ magnitude < 0x100000000 := by
  rw [number, ← fixed_digits_iff]
  cases text with
  | nil => simp only [List.isEmpty_nil, if_true, reduceCtorEq, ne_eq, not_true, false_and]
  | cons byte rest =>
    rw [List.isEmpty_cons, if_neg Bool.false_ne_true, more_digits_iff positive (by decide)]
    simp only [ne_eq, reduceCtorEq, not_false_eq_true, true_and]

/-- A number of so many digits is below that power of the base. It bounds the code points of escapes, whose digits are
counted. -/
theorem Writes.bounded {base : Nat} {text : Text} {number : Nat} (writes : Writes base text number) :
    number < base ^ text.length := by
  induction writes with
  | digit isDigit => simpa using isDigit.1
  | @more text number byte value _ isDigit ih =>
    rw [List.length_append, List.length_singleton, Nat.pow_succ]
    calc number * base + value < number * base + base := Nat.add_lt_add_left isDigit.1 _
      _ = (number + 1) * base := by rw [Nat.add_mul, Nat.one_mul]
      _ ≤ base ^ text.length * base := Nat.mul_le_mul_right _ ih

/-- What writes a number consists of digits, and of at least one of them. -/
theorem Writes.digits {base : Nat} {text : Text} {number : Nat} (writes : Writes base text number) :
    text ≠ [] ∧ ∀ byte ∈ text, ∃ value, IsDigit base byte value := by
  induction writes with
  | digit isDigit =>
    refine ⟨List.cons_ne_nil _ _, ?_⟩
    intro byte member
    rw [List.mem_singleton] at member
    exact ⟨_, member ▸ isDigit⟩
  | more _ isDigit ih =>
    refine ⟨List.append_ne_nil_of_right_ne_nil _ (List.cons_ne_nil _ _), ?_⟩
    intro byte member
    rcases List.mem_append.mp member with before | last
    · exact ih.2 byte before
    · rw [List.mem_singleton] at last
      exact ⟨_, last ▸ isDigit⟩

/-! ## Signed numbers -/

/-- A sign and the factor that it stands for. A number without a sign is taken as it is. -/
inductive Sign : Text → Int → Prop where
  | absent : Sign [] 1
  | plus : Sign "+" 1
  | minus : Sign "-" (-1)

/-- The marks of the bases other than ten. -/
def marks : List (Nat × Text) := [(16, "0x"), (16, "0X"), (8, "0o"), (8, "0O"), (8, "o"), (8, "O")]

/-- The integers and how they are written. A decimal number must be one that a cell holds; a number of another base
must fit 32 bits without its sign. -/
inductive Numeral : Text → Int → Prop where
  | decimal {sign digits : Text} {factor : Int} {magnitude : Nat} :
      Sign sign factor → Writes 10 digits magnitude → -2 ^ 31 ≤ factor * magnitude →
        factor * magnitude ≤ 2 ^ 31 - 1 → Numeral (sign ++ digits) (factor * magnitude)
  | marked {sign mark digits : Text} {base : Nat} {factor : Int} {magnitude : Nat} :
      Sign sign factor → (base, mark) ∈ marks → Writes base digits magnitude → magnitude < 2 ^ 32 →
        Numeral (sign ++ (mark ++ digits)) (factor * magnitude)

/-- The sign is found in front of a text that does not start with another sign. The condition is on what follows, as a
sign may be absent. -/
theorem Sign.split {sign : Text} {factor : Int} (isSign : Sign sign factor) {first : UInt8} (rest : Text)
    (unsigned : first ≠ 0x2D ∧ first ≠ 0x2B) :
    splitSign (sign ++ first :: rest) = (decide (factor < 0), first :: rest) := by
  cases isSign with
  | absent =>
    unfold splitSign
    split
    · next minus => exact absurd (List.cons.inj minus).1 unsigned.1
    · next plus => exact absurd (List.cons.inj plus).1 unsigned.2
    · rfl
  | plus => rfl
  | minus => rfl

/-- A text starts with its sign, which may be absent. Every text is split in this way. -/
theorem split_sign_cases (text : Text) :
    ∃ sign factor, Sign sign factor ∧ text = sign ++ (splitSign text).2 ∧
      (splitSign text).1 = decide (factor < 0) := by
  unfold splitSign
  split
  · exact ⟨_, _, .minus, rfl, rfl⟩
  · exact ⟨_, _, .plus, rfl, rfl⟩
  · exact ⟨_, _, .absent, rfl, rfl⟩

/-- The sign multiplies the magnitude by its factor, which is one or minus one. -/
theorem Sign.signed_eq {sign : Text} {factor : Int} (isSign : Sign sign factor) (magnitude : Nat) :
    signed (decide (factor < 0)) magnitude = factor * magnitude := by
  cases isSign <;> simp [signed]

/-- The range of decimal numbers is that of cells. It reaches one further below zero than above, and so depends on the
sign. -/
theorem Sign.fits_iff {sign : Text} {factor : Int} (isSign : Sign sign factor) (magnitude : Nat) :
    fitsCell (decide (factor < 0)) magnitude = true ↔
      -2 ^ 31 ≤ factor * magnitude ∧ factor * magnitude ≤ 2 ^ 31 - 1 := by
  cases isSign <;> simp [fitsCell] <;> omega

/-- The mark of a base is found in front of digits. There have to be digits: a mark alone is no mark. -/
theorem split_base_marked {base : Nat} {mark digits : Text} (listed : (base, mark) ∈ marks) (filled : digits ≠ []) :
    splitBase (mark ++ digits) = (base, digits) := by
  obtain ⟨first, rest, rfl⟩ := List.exists_cons_of_ne_nil filled
  simp only [marks, List.mem_cons, Prod.mk.injEq, List.not_mem_nil, or_false] at listed
  rcases listed with ⟨rfl, rfl⟩ | ⟨rfl, rfl⟩ | ⟨rfl, rfl⟩ | ⟨rfl, rfl⟩ | ⟨rfl, rfl⟩ | ⟨rfl, rfl⟩ <;> rfl

/-- A letter is recognized in both cases, so that each mark with a letter has two forms. -/
theorem letter_byte_cases {letter : Char} {byte : UInt8} (isLetter : isLetterByte letter byte = true) :
    byte = Text.byte letter ∨ byte = Text.byte letter.toUpper := by
  simpa only [isLetterByte, Bool.or_eq_true, beq_iff_eq] using isLetter

/-- A text without a mark in front of its digits is a decimal number, as far as the base goes. -/
theorem split_base_cases (text : Text) :
    splitBase text = (10, text) ∨ ∃ base mark digits, (base, mark) ∈ marks ∧ digits ≠ [] ∧ text = mark ++ digits := by
  unfold splitBase
  split
  · next mark first rest =>
    split
    · next isLetter =>
      right
      rcases letter_byte_cases isLetter with rfl | rfl
      · exact ⟨16, "0x", first :: rest, by decide, List.cons_ne_nil _ _, rfl⟩
      · exact ⟨16, "0X", first :: rest, by decide, List.cons_ne_nil _ _, rfl⟩
    split
    · next isLetter =>
      right
      rcases letter_byte_cases isLetter with rfl | rfl
      · exact ⟨8, "0o", first :: rest, by decide, List.cons_ne_nil _ _, rfl⟩
      · exact ⟨8, "0O", first :: rest, by decide, List.cons_ne_nil _ _, rfl⟩
    · exact .inl rfl
  · next mark first rest _ =>
    split
    · next isLetter =>
      right
      rcases letter_byte_cases isLetter with rfl | rfl
      · exact ⟨8, "o", first :: rest, by decide, List.cons_ne_nil _ _, rfl⟩
      · exact ⟨8, "O", first :: rest, by decide, List.cons_ne_nil _ _, rfl⟩
    · exact .inl rfl
  · exact .inl rfl

/-- The bytes that are decimal digits are those from 0x30 to 0x39. -/
theorem decimal_digit_range {byte : UInt8} {value : Nat} (isDigit : IsDigit 10 byte value) :
    0x30 ≤ byte.toNat ∧ byte.toNat ≤ 0x39 := by
  have every : ∀ number < 256, ∀ value ∈ digitIn 10 (UInt8.ofNat number), 0x30 ≤ number ∧ number ≤ 0x39 := by
    decide +kernel
  apply every byte.toNat byte.toNat_lt value
  rw [UInt8.ofNat_toNat]
  exact digit_in_iff.mpr isDigit

/-- A number starts with a digit. This keeps numbers apart from signs and marks. -/
theorem Writes.starts {base : Nat} {text : Text} {number : Nat} (writes : Writes base text number) :
    ∃ first rest value, text = first :: rest ∧ IsDigit base first value := by
  obtain ⟨filled, digits⟩ := writes.digits
  obtain ⟨first, rest, rfl⟩ := List.exists_cons_of_ne_nil filled
  obtain ⟨value, isDigit⟩ := digits first List.mem_cons_self
  exact ⟨first, rest, value, rfl, isDigit⟩

/-- Decimal digits have no mark in front: each mark has a letter, and letters are no decimal digits. -/
theorem split_base_decimal {digits : Text} {magnitude : Nat} (writes : Writes 10 digits magnitude) :
    splitBase digits = (10, digits) := by
  rcases split_base_cases digits with unmarked | ⟨base, mark, others, listed, _, rfl⟩
  · exact unmarked
  · have lettered : ∀ pair ∈ marks, ∃ byte ∈ pair.2, 0x39 < byte.toNat := by decide
    obtain ⟨byte, member, letter⟩ := lettered (base, mark) listed
    obtain ⟨value, isDigit⟩ := writes.digits.2 byte (List.mem_append_left _ member)
    have range := decimal_digit_range isDigit
    omega

/-- Reading an integer whose sign and mark are known. What is left to say is which magnitudes are accepted; the range
of cells is asked of decimal numbers only. -/
theorem integer_split {text unsigned digits sign : Text} {factor : Int} {base : Nat} {value : Cell}
    (isSign : Sign sign factor) (signSplit : splitSign text = (decide (factor < 0), unsigned))
    (baseSplit : splitBase unsigned = (base, digits)) (positive : 0 < base) :
    integer text = .ok value ↔ ∃ magnitude : Nat, Writes base digits magnitude ∧ magnitude < 2 ^ 32 ∧
      (base = 10 → -2 ^ 31 ≤ factor * magnitude ∧ factor * magnitude ≤ 2 ^ 31 - 1) ∧
      value = Int32.ofInt (factor * magnitude) := by
  simp only [integer, signSplit, baseSplit]
  cases read : number base digits with
  | error reason =>
    constructor
    · cases reason <;> intro impossible <;> cases impossible
    · rintro ⟨magnitude, writes, small, _, _⟩
      rw [(number_iff positive).mpr ⟨writes, small⟩] at read
      cases read
  | ok magnitude =>
    simp only [isSign.signed_eq]
    constructor
    · intro accepted
      obtain ⟨writes, small⟩ := (number_iff positive).mp read
      split at accepted
      · cases accepted
      · next fitting =>
        refine ⟨magnitude, writes, small, ?_, (Except.ok.inj accepted).symm⟩
        intro decimal
        rw [not_and, Decidable.not_not] at fitting
        exact (isSign.fits_iff magnitude).mp (fitting decimal)
    · rintro ⟨other, writes, small, fitting, rfl⟩
      obtain rfl : other = magnitude := by
        rw [(number_iff positive).mpr ⟨writes, small⟩] at read
        exact Except.ok.inj read
      apply if_neg
      rintro ⟨decimal, unfit⟩
      exact unfit ((isSign.fits_iff other).mpr (fitting decimal))

/-- The numerals of the grammar are read. Their parts are found again one by one: the sign, the mark of the base, and
the digits. -/
theorem integer_of_numeral {text : Text} {number : Int} (numeral : Numeral text number) :
    integer text = .ok (Int32.ofInt number) := by
  cases numeral with
  | @decimal sign digits factor magnitude isSign writes low high =>
    obtain ⟨first, rest, value, rfl, isDigit⟩ := writes.starts
    have range := decimal_digit_range isDigit
    have unsigned : first ≠ 0x2D ∧ first ≠ 0x2B := by
      constructor <;> rintro rfl <;> simp at range
    apply (integer_split isSign (isSign.split rest unsigned) (split_base_decimal writes) (by decide)).mpr
    exact ⟨magnitude, writes, by cases isSign <;> omega, fun _ => ⟨low, high⟩, rfl⟩
  | @marked sign mark digits base factor magnitude isSign listed writes small =>
    have unsigned : ∀ pair ∈ marks, ∃ first rest, pair.2 = first :: rest ∧ first ≠ 0x2D ∧ first ≠ 0x2B := by
      simp only [marks, List.forall_mem_cons]
      exact ⟨⟨_, _, rfl, by decide⟩, ⟨_, _, rfl, by decide⟩, ⟨_, _, rfl, by decide⟩, ⟨_, _, rfl, by decide⟩,
        ⟨_, _, rfl, by decide⟩, ⟨_, _, rfl, by decide⟩, by simp⟩
    have others : ∀ pair ∈ marks, 0 < pair.1 ∧ pair.1 ≠ 10 := by decide
    obtain ⟨first, rest, starts, bare⟩ := unsigned (base, mark) listed
    have signSplit := isSign.split (rest ++ digits) bare
    rw [← List.cons_append, ← starts] at signSplit
    have baseSplit := split_base_marked listed writes.digits.1
    apply (integer_split isSign signSplit baseSplit (others _ listed).1).mpr
    exact ⟨magnitude, writes, small, fun decimal => absurd decimal (others _ listed).2, rfl⟩

/-- The integers that are read are those of the grammar. A number of another base may lie outside of the range of
cells, and is then taken modulo 2³². -/
theorem integer_iff {text : Text} {value : Cell} :
    integer text = .ok value ↔ ∃ number, Numeral text number ∧ value = Int32.ofInt number := by
  constructor
  · intro read
    obtain ⟨sign, factor, isSign, textSplit, negative⟩ := split_sign_cases text
    have signSplit : splitSign text = (decide (factor < 0), (splitSign text).2) := by rw [← negative]
    rcases split_base_cases (splitSign text).2 with unmarked | ⟨base, mark, digits, listed, filled, baseText⟩
    · obtain ⟨magnitude, writes, _, fitting, rfl⟩ := (integer_split isSign signSplit unmarked (by decide)).mp read
      rw [textSplit]
      exact ⟨_, .decimal isSign writes (fitting rfl).1 (fitting rfl).2, rfl⟩
    · have others : ∀ pair ∈ marks, 0 < pair.1 := by decide
      have baseSplit : splitBase (splitSign text).2 = (base, digits) := by
        rw [baseText, split_base_marked listed filled]
      obtain ⟨magnitude, writes, small, _, rfl⟩ :=
        (integer_split isSign signSplit baseSplit (others _ listed)).mp read
      rw [textSplit, baseText]
      exact ⟨_, .marked isSign listed writes small, rfl⟩
  · rintro ⟨number, numeral, rfl⟩
    exact integer_of_numeral numeral

/-! ## Characters -/

/-- The escapes of one letter and the code points that they stand for. -/
def letterEscapes : List (Char × Nat) :=
  [('a', 7), ('b', 8), ('t', 9), ('n', 10), ('v', 11), ('f', 12), ('r', 13), ('\\', 0x5C), ('\'', 0x27)]

/-- A text starts with a code point, plain or by an escape, and goes on with a tail. -/
inductive Unquotes : Text → Nat → Text → Prop where
  /-- A character other than the quote and the backslash stands for itself. -/
  | plain {character : Char} {tail : Text} : character ≠ '\'' → character ≠ '\\' →
      Unquotes (Text.ofChar character ++ tail) character.toNat tail
  /-- A byte that begins no character stands for the replacement character. -/
  | stray {byte : UInt8} {tail : Text} : (∀ character rest, byte :: tail ≠ Text.ofChar character ++ rest) →
      Unquotes (byte :: tail) replacement.toNat tail
  | letter {letter : Char} {point : Nat} {tail : Text} : (letter, point) ∈ letterEscapes →
      Unquotes (0x5C :: Text.byte letter :: tail) point tail
  /-- Two hexadecimal digits after `x`: any byte. -/
  | byte {digits tail : Text} {point : Nat} : digits.length = 2 → Writes 16 digits point →
      Unquotes (0x5C :: 0x78 :: (digits ++ tail)) point tail
  /-- Four hexadecimal digits after `u` or eight after `U`: no surrogate, and nothing above the last code point. -/
  | short {digits tail : Text} {point : Nat} : digits.length = 4 → Writes 16 digits point → point.isValidChar →
      Unquotes (0x5C :: 0x75 :: (digits ++ tail)) point tail
  | long {digits tail : Text} {point : Nat} : digits.length = 8 → Writes 16 digits point → point.isValidChar →
      Unquotes (0x5C :: 0x55 :: (digits ++ tail)) point tail
  /-- Three octal digits: again any byte. -/
  | octal {digits tail : Text} {point : Nat} : digits.length = 3 → Writes 8 digits point → point ≤ 255 →
      Unquotes (0x5C :: (digits ++ tail)) point tail

/-- A number is a code point where it is the number of a character. -/
theorem is_code_point_iff {point : Nat} : isCodePoint point = true ↔ point.isValidChar := by
  simp only [isCodePoint, Nat.isValidChar, Bool.or_eq_true, Bool.and_eq_true, decide_eq_true_eq]
  omega

/-- So many digits, read to their end, with a condition on their number. All escapes with digits are of this form. -/
theorem counted_digits {base count : Nat} {digits : Text} {point : Nat} {allowed : Nat → Bool} (positive : 0 < count) :
    (if digits.length = count then (fixedDigits base 0 digits).filter allowed else none) = some point ↔
      digits.length = count ∧ Writes base digits point ∧ allowed point = true := by
  rw [← fixed_digits_iff]
  by_cases counted : digits.length = count
  · have filled : digits ≠ [] := by
      rintro rfl
      exact absurd counted (Nat.ne_of_lt positive)
    simp only [counted, if_true, true_and, filled, ne_eq, not_false_eq_true, Option.filter_eq_some_iff]
  · simp only [counted, if_false, reduceCtorEq, false_and]

/-- The same without a condition, as for the escape of a byte. -/
theorem counted_digits_any {base count : Nat} {digits : Text} {point : Nat} (positive : 0 < count) :
    (if digits.length = count then fixedDigits base 0 digits else none) = some point ↔
      digits.length = count ∧ Writes base digits point := by
  have unfiltered : (fixedDigits base 0 digits).filter (fun _ => true) = fixedDigits base 0 digits := by
    cases fixedDigits base 0 digits <;> rfl
  rw [← unfiltered, counted_digits positive, eq_self, and_true]

/-- The escapes of one letter, as they are read. All bytes are compared with the list. -/
theorem letter_escape_iff {byte : UInt8} {point : Nat} :
    escape [byte] = some point ↔ ∃ letter, (letter, point) ∈ letterEscapes ∧ byte = Text.byte letter := by
  have listed : ∀ number < 256, ∀ point ∈ escape [UInt8.ofNat number],
      ∃ pair ∈ letterEscapes, point = pair.2 ∧ UInt8.ofNat number = Text.byte pair.1 := by
    decide +kernel
  have escaped : ∀ pair ∈ letterEscapes, escape [Text.byte pair.1] = some pair.2 := by decide +kernel
  constructor
  · intro read
    have found := listed byte.toNat byte.toNat_lt point
    rw [UInt8.ofNat_toNat] at found
    obtain ⟨⟨letter, _⟩, member, rfl, same⟩ := found read
    exact ⟨letter, member, same⟩
  · rintro ⟨letter, member, rfl⟩
    exact escaped _ member

/-- What is read as an escape is one of the grammar. The cases are those of the byte behind the backslash. -/
theorem unquotes_of_escape {text : Text} {point : Nat} (read : escape text = some point) :
    Unquotes (0x5C :: text) point [] := by
  have whole := read
  unfold escape at read
  split at read
  · cases read
  · next digits =>
    obtain ⟨counted, writes⟩ := (counted_digits_any (by decide)).mp read
    rw [← List.append_nil digits]
    exact .byte counted writes
  · next digits =>
    obtain ⟨counted, writes, valid⟩ := (counted_digits (by decide)).mp read
    rw [← List.append_nil digits]
    exact .short counted writes (is_code_point_iff.mp valid)
  · next digits =>
    obtain ⟨counted, writes, valid⟩ := (counted_digits (by decide)).mp read
    rw [← List.append_nil digits]
    exact .long counted writes (is_code_point_iff.mp valid)
  · obtain ⟨letter, listed, rfl⟩ := letter_escape_iff.mp whole
    exact .letter listed
  · obtain ⟨counted, writes, small⟩ := (counted_digits (by decide)).mp read
    rw [← List.append_nil text]
    exact .octal counted writes (of_decide_eq_true small)

/-- Three octal digits are read as such: they are not mistaken for another escape, as the letters of these are no
octal digits. -/
theorem escape_octal {digits : Text} {point : Nat} (counted : digits.length = 3) (writes : Writes 8 digits point)
    (small : point ≤ 255) : escape digits = some point := by
  have octal : ∀ byte ∈ digits, byte ≠ 0x78 ∧ byte ≠ 0x75 ∧ byte ≠ 0x55 := by
    intro byte member
    obtain ⟨value, isDigit⟩ := writes.digits.2 byte member
    rw [← digit_in_iff] at isDigit
    refine ⟨?_, ?_, ?_⟩ <;> rintro rfl <;> cases isDigit
  have read : (if digits.length = 3 then (fixedDigits 8 0 digits).filter (· ≤ 255) else none) = some point :=
    (counted_digits (by decide)).mpr ⟨counted, writes, decide_eq_true small⟩
  unfold escape
  split
  · cases counted
  · next others => exact absurd rfl (octal 0x78 List.mem_cons_self).1
  · next others => exact absurd rfl (octal 0x75 List.mem_cons_self).2.1
  · next others => exact absurd rfl (octal 0x55 List.mem_cons_self).2.2
  · cases counted
  · exact read

/-- A character in front of a text that starts with a byte of ASCII is that byte's. Characters above ASCII start with
other bytes. -/
theorem ascii_char {character : Char} {lead : UInt8} {rest tail : Text} (ascii : lead < 0x80)
    (starts : Text.ofChar character ++ tail = lead :: rest) : character = Char.ofNat lead.toNat := by
  obtain ⟨first, others, encoded, glyph⟩ := Text.glyph_at_encoded character []
  rw [encoded, List.cons_append, List.cons.injEq] at starts
  rw [starts.1] at glyph
  exact Glyph.char.inj (glyph.symm.trans (if_pos ascii))

/-- The escapes of the grammar are read. Of the plain characters the grammar excludes the backslash, which would start
an escape. -/
theorem escape_of_unquotes {text : Text} {point : Nat} (unquotes : Unquotes (0x5C :: text) point []) :
    escape text = some point := by
  generalize quoted : 0x5C :: text = whole at unquotes
  generalize ends : ([] : Text) = tail at unquotes
  cases unquotes with
  | plain _ notBackslash => exact absurd (ascii_char (by decide) quoted.symm) notBackslash
  | stray none =>
    obtain ⟨rfl, rfl⟩ := List.cons.inj quoted
    exact absurd rfl (none '\\' text)
  | letter listed =>
    obtain ⟨_, rfl⟩ := List.cons.inj quoted
    subst ends
    exact letter_escape_iff.mpr ⟨_, listed, rfl⟩
  | byte counted writes =>
    subst ends
    rw [List.append_nil, List.cons.injEq] at quoted
    obtain ⟨_, rfl⟩ := quoted
    exact (counted_digits_any (by decide)).mpr ⟨counted, writes⟩
  | short counted writes valid =>
    subst ends
    rw [List.append_nil, List.cons.injEq] at quoted
    obtain ⟨_, rfl⟩ := quoted
    exact (counted_digits (by decide)).mpr ⟨counted, writes, is_code_point_iff.mpr valid⟩
  | long counted writes valid =>
    subst ends
    rw [List.append_nil, List.cons.injEq] at quoted
    obtain ⟨_, rfl⟩ := quoted
    exact (counted_digits (by decide)).mpr ⟨counted, writes, is_code_point_iff.mpr valid⟩
  | octal counted writes small =>
    subst ends
    rw [List.append_nil, List.cons.injEq] at quoted
    obtain ⟨_, rfl⟩ := quoted
    exact escape_octal counted writes small

/-- A byte that begins no character is a stray one, and is read as a glyph of its own. -/
theorem stray_glyph {byte : UInt8} (none : ∀ character rest, [byte] ≠ Text.ofChar character ++ rest) :
    ∃ cut, Text.glyphs [byte] = [.stray byte cut] := by
  obtain ⟨tail, starts⟩ := Text.starts_with_glyph byte []
  change ∃ cut, [Text.glyphAt byte []] = [.stray byte cut]
  cases glyph : Text.glyphAt byte [] with
  | char character =>
    rw [glyph] at starts
    exact absurd starts (none character tail)
  | stray other cut =>
    rw [glyph] at starts
    obtain ⟨rfl, _⟩ := List.cons.inj starts
    exact ⟨cut, rfl⟩

/-- What is read between quotes is of the grammar: a single glyph other than quote and backslash, or an escape. -/
theorem unquotes_of_character {inside : Text} {point : Nat} (read : character inside = some point) :
    Unquotes inside point [] := by
  unfold character at read
  split at read
  · cases read
  · next first rest =>
    split at read
    · cases read
    next notQuote =>
    split at read
    · next backslash =>
      rw [backslash]
      exact unquotes_of_escape read
    next notBackslash =>
    split at read
    · next glyph single =>
      obtain rfl := Option.some.inj read
      cases glyph with
      | char character =>
        rw [Text.glyphs_eq_char_iff] at single
        have apart : character ≠ '\'' ∧ character ≠ '\\' := by
          constructor
          · rintro rfl
            exact notQuote (List.cons.inj single).1
          · rintro rfl
            exact notBackslash (List.cons.inj single).1
        rw [single, ← List.append_nil (Text.ofChar character)]
        exact .plain apart.1 apart.2
      | stray byte cut =>
        have bytes : [byte] = first :: rest := by
          have every := Text.bytes_of_glyphs (first :: rest)
          rwa [single] at every
        rw [← bytes] at single ⊢
        apply Unquotes.stray
        intro character others starts
        have glyphs := Text.glyphs_of_char_append character others
        rw [← starts, single] at glyphs
        cases glyphs
    · cases read

/-- The characters of the grammar are read between quotes, with nothing left behind them. -/
theorem character_of_unquotes {inside : Text} {point : Nat} (unquotes : Unquotes inside point []) :
    character inside = some point := by
  cases unquotes with
  | @plain character _ notQuote notBackslash =>
    obtain ⟨first, others, encoded, _⟩ := Text.glyph_at_encoded character []
    have single : Text.glyphs (first :: others) = [.char character] := Text.glyphs_eq_char_iff.mpr encoded.symm
    have starts : Text.ofChar character ++ [] = first :: others := by rw [encoded, List.append_nil]
    have unquoted : first ≠ 0x27 := by
      rintro rfl
      exact notQuote (ascii_char (by decide) starts)
    have unescaped : first ≠ 0x5C := by
      rintro rfl
      exact notBackslash (ascii_char (by decide) starts)
    simp only [starts, Literal.character, unquoted, unescaped, single, if_false]
    rfl
  | @stray byte _ none =>
    obtain ⟨cut, single⟩ := stray_glyph none
    have unquoted : byte ≠ 0x27 := by
      rintro rfl
      exact none '\'' [] rfl
    have unescaped : byte ≠ 0x5C := by
      rintro rfl
      exact none '\\' [] rfl
    simp only [Literal.character, unquoted, unescaped, single, if_false]
    rfl
  | letter listed => exact escape_of_unquotes (.letter listed)
  | byte counted writes => exact escape_of_unquotes (.byte counted writes)
  | short counted writes valid => exact escape_of_unquotes (.short counted writes valid)
  | long counted writes valid => exact escape_of_unquotes (.long counted writes valid)
  | octal counted writes small => exact escape_of_unquotes (.octal counted writes small)

/-- The text between quotes is read by the grammar. It has to be one character or one escape in full. -/
theorem character_iff {inside : Text} {point : Nat} : character inside = some point ↔ Unquotes inside point [] :=
  ⟨unquotes_of_character, character_of_unquotes⟩

/-- A code point is below the end of the code points, whether it is plain or comes from an escape. It is therefore
always a cell. -/
theorem Unquotes.bounded {text tail : Text} {point : Nat} (unquotes : Unquotes text point tail) : point < 0x110000 := by
  cases unquotes with
  | @plain character _ _ _ =>
    have valid : character.toNat < 0xD800 ∨ 0xDFFF < character.toNat ∧ character.toNat < 0x110000 := character.valid
    omega
  | stray none => decide
  | letter listed =>
    have every : ∀ pair ∈ letterEscapes, pair.2 < 0x110000 := by decide
    exact every _ listed
  | byte counted writes =>
    have bounded := writes.bounded
    rw [counted] at bounded
    omega
  | short _ _ valid => unfold Nat.isValidChar at valid; omega
  | long _ _ valid => unfold Nat.isValidChar at valid; omega
  | octal _ _ small => omega

/-! ## Literals -/

/-- A text of at least three bytes that starts and ends with a quote, and what is inside. -/
def Quotes (text inside : Text) : Prop := inside ≠ [] ∧ text = 0x27 :: (inside ++ [0x27])

/-- A character that is a literal by itself: not the replacement character, and nothing that a number starts with. -/
def Standing (character : Char) : Prop :=
  character ≠ replacement ∧ ¬ ('0' ≤ character ∧ character ≤ '9') ∧ character ≠ '-' ∧ character ≠ '+'

/-- The literals and their values. Each form is taken only where the forms before it do not apply. -/
inductive Denotes (text : Text) (value : Cell) : Prop where
  | quoted {inside : Text} {point : Nat} : Quotes text inside → Unquotes inside point [] → value.toInt = point →
      Denotes text value
  | single {character : Char} : (∀ inside, ¬ Quotes text inside) → text = Text.ofChar character →
      Standing character → value.toInt = character.toNat → Denotes text value
  | number {number : Int} : (∀ inside, ¬ Quotes text inside) →
      (∀ character, text = Text.ofChar character → ¬ Standing character) → Numeral text number →
      value.toInt = number.bmod (2 ^ 32) → Denotes text value

/-- The quotes are taken off, if there is something between them. -/
theorem unquote_iff {text inside : Text} : unquote? text = some inside ↔ Quotes text inside := by
  constructor
  · intro read
    unfold unquote? at read
    split at read
    · next rest =>
      split at read
      · next ends =>
        obtain rfl := Option.some.inj read
        refine ⟨?_, ?_⟩
        · apply List.ne_nil_of_length_pos
          rw [List.length_dropLast]
          omega
        · rw [List.dropLast_append_getLast? _ ends.2]
      · cases read
    · cases read
  · rintro ⟨filled, rfl⟩
    have size := List.length_pos_iff.mpr filled
    have ends : 2 ≤ (inside ++ [0x27]).length ∧ (inside ++ [0x27]).getLast? = some 0x27 := by
      rw [List.length_append, List.length_singleton, List.getLast?_concat]
      exact ⟨by omega, rfl⟩
    rw [unquote?, if_pos ends, List.dropLast_concat]

/-- Where there are no quotes, none are taken off, and the text is looked at as a whole. -/
theorem unquote_none {text : Text} (unquoted : ∀ inside, ¬ Quotes text inside) : unquote? text = none := by
  rw [Option.eq_none_iff_forall_ne_some]
  intro inside quoted
  exact unquoted inside (unquote_iff.mp quoted)

/-- The characters that are read by themselves are those that stand by themselves. A digit or a sign alone is left to
the reader of numbers. -/
theorem single_iff {text : Text} {point : Nat} :
    single? text = some point ↔ ∃ character, text = Text.ofChar character ∧ Standing character ∧
      character.toNat = point := by
  have standing_iff : ∀ character : Char, Standing character ↔
      ¬ (character = replacement ∨ character.isDigit = true ∨ character = '-' ∨ character = '+') := by
    intro character
    simp only [Standing, Char.isDigit, Bool.and_eq_true, decide_eq_true_eq, not_or]
    rfl
  constructor
  · intro read
    unfold single? at read
    split at read
    · next character glyph =>
      split at read
      · cases read
      · next standing =>
        exact ⟨character, Text.glyphs_eq_char_iff.mp glyph, (standing_iff character).mpr standing, Option.some.inj read⟩
    · cases read
  · rintro ⟨character, encoded, standing, rfl⟩
    rw [single?, Text.glyphs_eq_char_iff.mpr encoded]
    exact if_neg ((standing_iff character).mp standing)

/-- A cell made from an integer holds it modulo 2³², as the number of that class nearest to zero. -/
theorem cell_of_int_iff {value : Cell} {number : Int} :
    value = Int32.ofInt number ↔ value.toInt = number.bmod (2 ^ 32) := by
  change _ ↔ value.toInt = number.bmod Int32.size
  rw [← Int32.toInt_inj, Int32.toInt_ofInt]

/-- A code point is a cell, so that nothing is taken modulo 2³² there. -/
theorem cell_of_point_iff {value : Cell} {point : Nat} (bounded : point < 0x110000) :
    value = Int32.ofInt point ↔ value.toInt = point := by
  rw [cell_of_int_iff, Int.bmod_eq_of_le (by omega) (by omega)]

/-- Between quotes, a literal is what they hold. If this is neither a character nor an escape, the text is no literal
in any other way. -/
theorem parse_quoted {text inside : Text} {value : Cell} (quotes : Quotes text inside) :
    parse text = .ok value ↔ ∃ point : Nat, Unquotes inside point [] ∧ value.toInt = point := by
  simp only [parse, unquote_iff.mpr quotes]
  cases read : character inside with
  | none =>
    constructor
    · intro impossible
      cases impossible
    · rintro ⟨point, unquotes, _⟩
      rw [character_iff.mpr unquotes] at read
      cases read
  | some point =>
    have unquotes := character_iff.mp read
    constructor
    · intro accepted
      exact ⟨point, unquotes, (cell_of_point_iff unquotes.bounded).mp (Except.ok.inj accepted).symm⟩
    · rintro ⟨other, others, holds⟩
      rw [character_iff.mpr others, Option.some.injEq] at read
      rw [(cell_of_point_iff others.bounded).mpr holds, read]

/-- Without quotes, a character that stands by itself is its code point, and no number is tried. -/
theorem parse_single {text : Text} {character : Char} {value : Cell} (unquoted : ∀ inside, ¬ Quotes text inside)
    (encoded : text = Text.ofChar character) (standing : Standing character) :
    parse text = .ok value ↔ value.toInt = character.toNat := by
  have noQuotes := unquote_none unquoted
  have valid : character.toNat < 0xD800 ∨ 0xDFFF < character.toNat ∧ character.toNat < 0x110000 := character.valid
  rw [← cell_of_point_iff (by omega), eq_comm]
  simp only [parse, noQuotes, single_iff.mpr ⟨character, encoded, standing, rfl⟩, Except.ok.injEq]

/-- Everything else is an integer, or no literal at all. -/
theorem parse_number {text : Text} {value : Cell} (unquoted : ∀ inside, ¬ Quotes text inside)
    (notSingle : ∀ character, text = Text.ofChar character → ¬ Standing character) :
    parse text = .ok value ↔ ∃ number, Numeral text number ∧ value.toInt = number.bmod (2 ^ 32) := by
  have noQuotes := unquote_none unquoted
  have noCharacter : single? text = none := by
    rw [Option.eq_none_iff_forall_ne_some]
    intro point single
    obtain ⟨character, encoded, standing, _⟩ := single_iff.mp single
    exact notSingle character encoded standing
  rw [parse, noQuotes, noCharacter]
  simp only [integer_iff, cell_of_int_iff]

/-! ## Printed numbers -/

/-- The digits of a natural number write it, most significant first. -/
theorem writes_of_nat (number : Nat) : Writes 10 (Text.ofNat number) number := by
  have digit : ∀ value < 10, IsDigit 10 (Text.byte value.digitChar) value := by
    intro value small
    have every : ∀ value < 10, digitIn 10 (Text.byte value.digitChar) = some value := by decide +kernel
    exact digit_in_iff.mp (every value small)
  induction number using Nat.strongRecOn with
  | ind number ih =>
    rw [Text.ofNat, Nat.toDigits_eq_if (by decide)]
    by_cases small : number < 10
    · rw [if_pos small]
      exact .digit (digit number small)
    · rw [if_neg small, List.map_append]
      have front := ih (number / 10) (by omega)
      have last := digit (number % 10) (by omega)
      have whole := Writes.more front last
      rwa [Nat.div_add_mod'] at whole

/-- The text of an integer that a cell holds is a numeral. Below zero it has a minus sign, and the magnitude behind
it. -/
theorem numeral_of_int (number : Int) (low : -2 ^ 31 ≤ number) (high : number ≤ 2 ^ 31 - 1) :
    Numeral (Text.ofInt number) number := by
  have writes := writes_of_nat number.natAbs
  rw [Text.ofInt]
  split
  · next negative =>
    have value : -1 * (number.natAbs : Int) = number := by omega
    have numeral := Numeral.decimal .minus writes (by omega) (by omega)
    rwa [value] at numeral
  · next positive =>
    have value : 1 * (number.natAbs : Int) = number := by omega
    have numeral := Numeral.decimal .absent writes (by omega) (by omega)
    rwa [value] at numeral

/-- A printed integer starts with a digit or with a minus sign. It is therefore never taken for something in
quotes. -/
theorem of_int_starts (number : Int) :
    ∃ first rest, Text.ofInt number = first :: rest ∧ (first = 0x2D ∨ 0x30 ≤ first.toNat ∧ first.toNat ≤ 0x39) := by
  obtain ⟨first, rest, value, starts, isDigit⟩ := (writes_of_nat number.natAbs).starts
  rw [Text.ofInt]
  split
  · exact ⟨_, _, rfl, .inl rfl⟩
  · exact ⟨first, rest, starts, .inr (decimal_digit_range isDigit)⟩

/-- Reading a printed cell gives the cell. A cell of one digit is not taken for a character, since digits do not stand
by themselves. -/
theorem parse_of_int32 (cell : Cell) : parse (Text.ofInt32 cell) = .ok cell := by
  obtain ⟨first, rest, starts, range⟩ := of_int_starts cell.toInt
  have unquoted : ∀ inside, ¬ Quotes (Text.ofInt32 cell) inside := by
    rintro inside ⟨_, quoted⟩
    rw [Text.ofInt32, starts, List.cons.injEq] at quoted
    rw [quoted.1] at range
    exact absurd range (by decide)
  have notSingle : ∀ character, Text.ofInt32 cell = Text.ofChar character → ¬ Standing character := by
    intro character encoded standing
    have ascii : first < 0x80 := by
      rw [UInt8.lt_iff_toNat_lt]
      rcases range with rfl | digit
      · decide
      · exact Nat.lt_of_le_of_lt digit.2 (by decide)
    have whole : Text.ofChar character ++ [] = first :: rest := by rw [List.append_nil, ← encoded]; exact starts
    obtain rfl := ascii_char ascii whole
    rcases range with rfl | digit
    · exact standing.2.2.1 (by decide)
    · have every : ∀ number < 0x3A, 0x30 ≤ number → '0' ≤ Char.ofNat number ∧ Char.ofNat number ≤ '9' := by
        decide +kernel
      exact standing.2.1 (every first.toNat (by omega) digit.1)
  apply (parse_number unquoted notSingle).mpr
  have low := cell.le_toInt
  have high := cell.toInt_lt
  refine ⟨cell.toInt, numeral_of_int cell.toInt low (by omega), ?_⟩
  rw [Int.bmod_eq_of_le (by omega) (by omega)]

/-- A text is a literal exactly if it is one of the grammar, and then its value is the one that the grammar gives it.
The decimal text of every cell is a literal of that cell. -/
theorem parse_accepts_literals (text : Text) (value : Cell) :
    (parse text = .ok value ↔ Denotes text value) ∧ parse (Text.ofInt32 value) = .ok value := by
  refine ⟨⟨?_, ?_⟩, parse_of_int32 value⟩
  · intro read
    by_cases quoted : ∃ inside, Quotes text inside
    · obtain ⟨inside, quotes⟩ := quoted
      obtain ⟨point, unquotes, holds⟩ := (parse_quoted quotes).mp read
      exact .quoted quotes unquotes holds
    · rw [not_exists] at quoted
      by_cases single : ∃ character, text = Text.ofChar character ∧ Standing character
      · obtain ⟨character, encoded, standing⟩ := single
        exact .single quoted encoded standing ((parse_single quoted encoded standing).mp read)
      · simp only [not_exists, not_and] at single
        obtain ⟨number, numeral, holds⟩ := (parse_number quoted single).mp read
        exact .number quoted single numeral holds
  · intro denotes
    cases denotes with
    | quoted quotes unquotes holds => exact (parse_quoted quotes).mpr ⟨_, unquotes, holds⟩
    | single unquoted encoded standing holds => exact (parse_single unquoted encoded standing).mpr holds
    | number unquoted notSingle numeral holds => exact (parse_number unquoted notSingle).mpr ⟨_, numeral, holds⟩

example : parse "-0x80000001" = .ok 2147483647 := by decide +kernel

end Literal

end IntegerMachine
