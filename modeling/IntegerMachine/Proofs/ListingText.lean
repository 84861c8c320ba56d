import IntegerMachine.Listing
import IntegerMachine.Proofs.Decoding
import IntegerMachine.Proofs.LiteralGrammar
import IntegerMachine.Proofs.Scanning

/-!
# Listings as texts

A listing without its column of numbers is a text of rows: a row for each constant, each declaration and each
instruction, and rows for the directives around them. The numbers are taken out of the text itself. Only the lines of
instructions start with a blank, so that only they lose something, and what they lose is their number.

Every row is read as the tokens that it was made of, if the names and the operands of the program are texts of tokens.
-/
namespace IntegerMachine

namespace Text

/-- Whether a byte is a decimal digit. -/
def isDecimal (byte : UInt8) : Bool := 0x30 ≤ byte && byte ≤ 0x39

/-- A line of a listing without its number: without its blanks, the decimal digits behind them and two more blanks. A
line that does not start with a blank has no number. -/
def withoutNumber (line : Text) : Text :=
  if line.head? = some (byte ' ') then ((line.dropWhile (· == byte ' ')).dropWhile isDecimal).drop 2 else line

/-- A listing without the column of numbers. -/
def withoutNumbers (text : Text) : Text := join "\n" ((text.split (byte '\n')).map withoutNumber)

/-! ## Lines -/

/-- A text is split into at least one piece, which is the empty one if there is nothing to split. -/
theorem split_ne_nil (separator : UInt8) (text : Text) : split separator text ≠ [] := by
  cases text with
  | nil => simp [split]
  | cons first rest =>
    rw [split]
    split
    · simp
    · split <;> simp

/-- A text is split at the first separator. What is in front of it has none and is one piece. -/
theorem split_line {separator : UInt8} {line : Text} (single : separator ∉ line) (rest : Text) :
    split separator (line ++ separator :: rest) = line :: split separator rest := by
  induction line with
  | nil =>
    obtain ⟨piece, pieces, pieced⟩ := List.exists_cons_of_ne_nil (split_ne_nil separator rest)
    rw [List.nil_append, split, pieced]
    exact if_pos rfl
  | cons first others ih =>
    rw [List.mem_cons, not_or] at single
    rw [List.cons_append, split, ih single.2]
    exact if_neg (Ne.symm single.1)

/-- Texts behind the first one are joined to it with separators, each of which stands in front of its text. -/
theorem join_cons (separator first : Text) (rest : List Text) :
    join separator (first :: rest) = first ++ rest.flatMap (separator ++ ·) := by
  induction rest generalizing first with
  | nil => exact (List.append_nil first).symm
  | cons second others ih =>
    rw [join, ih, List.flatMap_cons, List.append_assoc, List.append_assoc]
    exact List.cons_ne_nil second others

/-- The numbers are taken out of a line and of what follows it separately. A listing can therefore be treated line by
line. -/
theorem without_numbers_line {line : Text} (single : byte '\n' ∉ line) (rest : Text) :
    withoutNumbers (line ++ "\n" ++ rest) = withoutNumber line ++ "\n" ++ withoutNumbers rest := by
  obtain ⟨piece, pieces, pieced⟩ := List.exists_cons_of_ne_nil (split_ne_nil (byte '\n') rest)
  have divided : split (byte '\n') (line ++ "\n" ++ rest) = line :: piece :: pieces := by
    rw [← pieced, ← split_line single, List.append_assoc]
    rfl
  rw [withoutNumbers, withoutNumbers, divided, pieced, List.map_cons, List.map_cons, join]
  simp

example : withoutNumbers ".main\n    10  \tHALT\n.end-main\n" = ".main\n\tHALT\n.end-main\n" := by decide +kernel

/-- The bytes of a character above ASCII are above ASCII. So no byte of such a character is taken for a line feed. -/
theorem bytes_above {character : Char} (above : 0x7F < character.toNat) :
    ∀ byte ∈ ofChar character, 0x80 ≤ byte.toNat := by
  have valid : character.toNat < 0xD800 ∨ 0xDFFF < character.toNat ∧ character.toNat < 0x110000 :=
    character.valid
  have least (payload mark : Nat) (low : 0x80 ≤ mark) (high : payload + mark < 256) :
      0x80 ≤ (UInt8.ofNat (payload + mark)).toNat := by
    rw [byte_value _ high]
    omega
  intro byte member
  by_cases two : character.toNat ≤ 0x7FF
  · rw [show ofChar character = _ from (if_neg (Nat.not_le.mpr above)).trans (if_pos two)] at member
    simp only [List.mem_cons, List.not_mem_nil, or_false] at member
    rcases member with rfl | rfl
    all_goals exact least _ _ (by decide) (by omega)
  · by_cases three : character.toNat ≤ 0xFFFF
    · rw [show ofChar character = _ from
        (if_neg (Nat.not_le.mpr above)).trans ((if_neg two).trans (if_pos three))] at member
      simp only [List.mem_cons, List.not_mem_nil, or_false] at member
      rcases member with rfl | rfl | rfl
      all_goals exact least _ _ (by decide) (by omega)
    · rw [show ofChar character = _ from
        (if_neg (Nat.not_le.mpr above)).trans ((if_neg two).trans (if_neg three))] at member
      simp only [List.mem_cons, List.not_mem_nil, or_false] at member
      rcases member with rfl | rfl | rfl | rfl
      all_goals exact least _ _ (by decide) (by omega)

/-- A line feed is no part of another character. If it is none of the characters, its byte is not in their
encoding. -/
theorem newline_not_mem {characters : List Char} (single : '\n' ∉ characters) :
    byte '\n' ∉ ofCharacters characters := by
  rw [ofCharacters, List.mem_flatMap]
  rintro ⟨character, listed, contained⟩
  by_cases above : 0x7F < character.toNat
  · exact absurd (bytes_above above _ contained) (by decide)
  · have ascii : ofChar character = [UInt8.ofNat character.toNat] := if_pos (Nat.not_lt.mp above)
    rw [ascii, List.mem_singleton] at contained
    have value := congrArg UInt8.toNat contained
    rw [byte_value _ (by omega)] at value
    have isNewline : character = '\n' := Char.toNat_inj.mp value.symm
    exact single (isNewline ▸ listed)

/-- A part of a listing turns into a text when its numbers are taken out, whatever follows it. -/
def Strips (listed stripped : Text) : Prop :=
  ∀ rest, withoutNumbers (listed ++ rest) = stripped ++ withoutNumbers rest

namespace Strips

/-- Nothing turns into nothing. -/
theorem nil : Strips [] [] := fun _ => rfl

/-- Parts one behind the other turn into texts one behind the other. That nothing is said about what follows a part
makes this possible. -/
theorem append {listed stripped more others : Text} (first : Strips listed stripped) (second : Strips more others) :
    Strips (listed ++ more) (stripped ++ others) := by
  intro rest
  rw [List.append_assoc, first, second, List.append_assoc]

/-- A line loses its number. -/
theorem line {line stripped : Text} (single : byte '\n' ∉ line) (loses : withoutNumber line = stripped) :
    Strips (line ++ "\n") (stripped ++ "\n") := by
  intro rest
  rw [without_numbers_line single, loses]

/-- Parts turn into texts one after the other, by induction on the parts. -/
theorem flatMap {Part : Type} {listed stripped : Part → Text} {parts : List Part}
    (each : ∀ part ∈ parts, Strips (listed part) (stripped part)) :
    Strips (parts.flatMap listed) (parts.flatMap stripped) := by
  induction parts with
  | nil => exact nil
  | cons first rest ih =>
    rw [List.forall_mem_cons] at each
    rw [List.flatMap_cons, List.flatMap_cons]
    exact each.1.append (ih each.2)

/-- All of a listing turns into a text, which is the case with nothing behind it. -/
theorem whole {listed stripped : Text} (strips : Strips listed stripped) : withoutNumbers listed = stripped := by
  have all := strips []
  rw [List.append_nil, show withoutNumbers [] = [] from rfl, List.append_nil] at all
  exact all

end Strips

/-- The digits of a number are decimal digits, and there is at least one. This holds of zero as well. -/
theorem of_nat_digits (number : Nat) :
    ofNat number ≠ [] ∧ ∀ byte ∈ ofNat number, 0x30 ≤ byte.toNat ∧ byte.toNat ≤ 0x39 := by
  obtain ⟨filled, digits⟩ := (Literal.writes_of_nat number).digits
  refine ⟨filled, fun byte member => ?_⟩
  obtain ⟨value, isDigit⟩ := digits byte member
  exact Literal.decimal_digit_range isDigit

end Text

namespace Blueprint

/-- The number in front of the line of an instruction. -/
def numberColumn (index : Nat) : Text := Text.padLeft indexWidth (" " ++ Text.ofNat index) ++ "  "

/-- A number has blanks in front, at least one, and two behind it. A number that is wider than the column still has
the one in front. -/
theorem number_column_eq (index : Nat) :
    ∃ count, numberColumn index = List.replicate (count + 1) (Text.byte ' ') ++ (Text.ofNat index ++ "  ") := by
  refine ⟨indexWidth - (" " ++ Text.ofNat index).length, ?_⟩
  rw [numberColumn, Text.padLeft, List.replicate_succ', List.append_assoc, List.append_assoc, List.append_assoc]
  rfl

/-- A line loses exactly its number. The digits end at the blank behind them, so that nothing of the instruction is
lost, even if it starts with a digit. -/
theorem number_column_lost (index : Nat) (rest : Text) : Text.withoutNumber (numberColumn index ++ rest) = rest := by
  obtain ⟨count, column⟩ := number_column_eq index
  obtain ⟨filled, digits⟩ := Text.of_nat_digits index
  obtain ⟨first, others, number⟩ := List.exists_cons_of_ne_nil filled
  have decimal : ∀ byte ∈ Text.ofNat index, Text.isDecimal byte = true := by
    intro byte member
    simp only [Text.isDecimal, Bool.and_eq_true, decide_eq_true_eq, UInt8.le_iff_toNat_le]
    exact digits byte member
  have notBlank : (first == Text.byte ' ') = false := by
    have range := digits first (number ▸ List.mem_cons_self)
    rw [beq_eq_false_iff_ne]
    rintro rfl
    exact absurd range (by decide)
  have blanks : ∀ byte ∈ List.replicate (count + 1) (Text.byte ' '), (byte == Text.byte ' ') = true := by
    intro byte member
    rw [List.eq_of_mem_replicate member]
    rfl
  have starts : (numberColumn index ++ rest).head? = some (Text.byte ' ') := by
    rw [column, List.replicate_succ]
    rfl
  have undented : (numberColumn index ++ rest).dropWhile (· == Text.byte ' ') = Text.ofNat index ++ ("  " ++ rest) := by
    rw [column, List.append_assoc, List.append_assoc, List.dropWhile_append_of_pos blanks, number]
    exact List.dropWhile_cons_of_neg (by rw [notBlank]; decide)
  rw [Text.withoutNumber, if_pos starts, undented, List.dropWhile_append_of_pos decimal]
  rfl

/-- There is no line feed in a number, which has digits and blanks only. -/
theorem number_column_single (index : Nat) : Text.byte '\n' ∉ numberColumn index := by
  obtain ⟨count, column⟩ := number_column_eq index
  rw [column, List.mem_append, List.mem_append, not_or, not_or]
  refine ⟨?_, ?_, by decide⟩
  · intro blank
    exact absurd (List.eq_of_mem_replicate blank) (by decide)
  · intro digit
    exact absurd ((Text.of_nat_digits index).2 _ digit) (by decide)

end Blueprint

/-! ## Rows -/

open Source

/-- The kind of token that an operand is: a character literal if it starts with a quote, and else a word. -/
def tokenKind (text : Text) : TokenKind := if text.characters.head? = some '\'' then .quoted else .word

/-- An operand as a token. -/
def operandShape (text : Text) : Shape := (tokenKind text, text)

/-- The row of a directive. -/
def directiveRow (directive : Text) : Row := { text := directive, shapes := [(.word, directive)] }

/-- The row of a constant. -/
def constantRow (constant : Text × Cell) : Row :=
  { text := .concat ["\t", constant.1, " ", .ofInt32 constant.2]
    shapes := [(.word, constant.1), (.word, .ofInt32 constant.2)] }

/-- The row of a variable. -/
def variableRow (name : Text) : Row := { text := "\t" ++ name, shapes := [(.word, name)] }

/-- The row of an instruction. -/
def instructionRow (instruction : Instruction) : Row :=
  { text := (if instruction.opcode = .label then "" else "\t" : Text) ++ instruction.text
    shapes :=
      if instruction.opcode = .label then [(.word, instruction.operands.headD []), (.mark ':', ":")]
      else (instruction.opcode.name :: instruction.operands).map operandShape }

/-- The tokens of a parameter behind another one. -/
def furtherShapes (name : Text) : List Shape := [(.mark ',', ","), (.word, name)]

/-- The tokens of parameters. -/
def paramShapes : List Text → List Shape
  | [] => []
  | first :: rest => (.word, first) :: rest.flatMap furtherShapes

/-- The row that opens a method. -/
def headingRow (name : Text) (params : List Text) : Row :=
  { text := .concat [".method ", name, "(", .join ", " params, ")"]
    shapes := (.word, ".method") :: (.word, name) :: (.mark '(', "(") ::
      (paramShapes params ++ [((.mark ')', ")") : Shape)]) }

/-- The rows of a block of constants; no constants have none. -/
def constantRows (constants : Constants) : List Row :=
  if constants.isEmpty then []
  else directiveRow ".constant" :: (constants.map constantRow ++ [directiveRow ".end-constant"])

/-- The rows of a block of declarations; no variables have none. -/
def variableRows (vars : List Text) : List Row :=
  if vars.isEmpty then [] else directiveRow ".var" :: (vars.map variableRow ++ [directiveRow ".end-var"])

/-- The rows of what stands between the first and the last row of a block. -/
def bodyRows (blueprint : Blueprint) : List Row :=
  variableRows blueprint.vars ++ blueprint.code.toList.map instructionRow

/-- The rows of a main block. -/
def mainRows (blueprint : Blueprint) : List Row :=
  directiveRow ".main" :: (bodyRows blueprint ++ [directiveRow ".end-main"])

/-- The rows of a method. -/
def methodRows (blueprint : Blueprint) : List Row :=
  headingRow blueprint.name blueprint.params :: (bodyRows blueprint ++ [directiveRow ".end-method"])

/-- The rows of blueprints, of which the first is the main block. -/
def blueprintRows : List Blueprint → List Row
  | [] => []
  | main :: methods => mainRows main ++ methods.flatMap methodRows

/-- The rows of a program. -/
def Program.rows (program : Program) : List Row :=
  constantRows program.constants ++ blueprintRows program.blueprints

/-! ## The text of a listing -/

/-- The text of rows behind others is behind the text of the others. -/
theorem text_of_rows_append (rows others : List Row) :
    textOfRows (rows ++ others) = textOfRows rows ++ textOfRows others := List.flatMap_append

/-- The text of rows starts with the first row and a line feed. -/
theorem text_of_rows_cons (row : Row) (rows : List Row) :
    textOfRows (row :: rows) = row.text ++ "\n" ++ textOfRows rows := rfl

/-- The text of one row is the row and a line feed. -/
theorem text_of_rows_single (row : Row) : textOfRows [row] = row.text ++ "\n" := List.append_nil _

/-- There is no line feed in a row: neither blanks nor the texts of tokens have one. -/
theorem Source.Row.Spelled.single {row : Row} (spelled : row.Spelled) : Text.byte '\n' ∉ row.text := by
  obtain ⟨characters, isText, legible⟩ := spelled.spells.characters
  rw [isText]
  apply Text.newline_not_mem
  intro listed
  exact (legible '\n' listed).2 rfl

/-- A row that does not start with a blank has no number to lose, and stays as it is. -/
theorem row_strips {row : Row} (spelled : row.Spelled) (unnumbered : row.text.head? ≠ some (Text.byte ' ')) :
    Text.Strips (row.text ++ "\n") (row.text ++ "\n") :=
  .line spelled.single (if_neg unnumbered)

/-- A numbered instruction loses its number, and what is left is its row. -/
theorem instruction_strips (index : Nat) {instruction : Instruction} (spelled : (instructionRow instruction).Spelled) :
    Text.Strips (Blueprint.instructionLine index instruction ++ "\n") ((instructionRow instruction).text ++ "\n") := by
  have numbered : Blueprint.instructionLine index instruction =
      Blueprint.numberColumn index ++ (instructionRow instruction).text := by
    simp [Blueprint.instructionLine, Blueprint.numberColumn, instructionRow, Text.concat]
  rw [numbered]
  apply Text.Strips.line
  · rw [List.mem_append, not_or]
    exact ⟨Blueprint.number_column_single index, spelled.single⟩
  · exact Blueprint.number_column_lost index _

/-- Numbered instructions lose their numbers. The induction is on the code and lets the index run along, as each
number is another one. -/
theorem code_strips (index : Nat) {code : List Instruction}
    (spelled : ∀ instruction ∈ code, (instructionRow instruction).Spelled) :
    Text.Strips (Document.text (Blueprint.listCode index code)) (textOfRows (code.map instructionRow)) := by
  induction code generalizing index with
  | nil => exact .nil
  | cons instruction rest ih =>
    rw [List.forall_mem_cons] at spelled
    have first := instruction_strips index spelled.1
    have others := ih (index + 1) spelled.2
    rw [List.map_cons, text_of_rows_cons]
    have listed : Document.text (Blueprint.listCode index (instruction :: rest)) =
        Blueprint.instructionLine index instruction ++ "\n" ++
          Document.text (Blueprint.listCode (index + 1) rest) := by
      simp [Blueprint.listCode, Document.text]
    rw [listed]
    exact first.append others

/-- The lines of rows between two rows around them, which have no numbers. Each of the three parts is stripped for
itself. -/
theorem enclosed_strips {first last : Row} {rows : List Row} {listed : Document}
    (firstSpelled : first.Spelled) (firstUnnumbered : first.text.head? ≠ some (Text.byte ' '))
    (lastSpelled : last.Spelled) (lastUnnumbered : last.text.head? ≠ some (Text.byte ' '))
    (strips : Text.Strips listed.text (textOfRows rows)) :
    Text.Strips (Document.text (.enclose (first.text ++ "\n") listed (last.text ++ "\n")))
      (textOfRows (first :: (rows ++ [last]))) := by
  have text : Document.text (.enclose (first.text ++ "\n") listed (last.text ++ "\n")) =
      first.text ++ "\n" ++ (listed.text ++ (last.text ++ "\n")) := by
    simp [Document.text, Document.enclose]
  rw [text, text_of_rows_cons, text_of_rows_append, text_of_rows_single]
  exact (row_strips firstSpelled firstUnnumbered).append
    (strips.append (row_strips lastSpelled lastUnnumbered))

/-- Rows that are listed as they are. None of them starts with a blank, whatever it was made from. -/
theorem rows_strip {Part : Type} {row : Part → Row} {parts : List Part} (spelled : ∀ part ∈ parts, (row part).Spelled)
    (unnumbered : ∀ part, (row part).text.head? ≠ some (Text.byte ' ')) :
    Text.Strips (Document.text (parts.map fun part => (row part).text ++ "\n")) (textOfRows (parts.map row)) := by
  rw [Document.text, textOfRows, List.flatMap_map, ← List.flatMap_def]
  exact .flatMap fun part listed => row_strips (spelled part listed) (unnumbered part)

/-- Lines of directives and of lists, as they are written to a listing. The listing has line feeds in its texts and
rows have not, so that each text is compared with its row. -/
theorem enclosed_rows {Part : Type} {rowOf : Part → Row} {parts : List Part} {opening closing : Text}
    {line : Part → Text} {openingLine closingLine : Text} (opens : openingLine = opening ++ "\n")
    (closes : closingLine = closing ++ "\n") (lines : ∀ part, line part = (rowOf part).text ++ "\n")
    (openingUnnumbered : opening.head? ≠ some (Text.byte ' '))
    (closingUnnumbered : closing.head? ≠ some (Text.byte ' '))
    (unnumbered : ∀ part, (rowOf part).text.head? ≠ some (Text.byte ' '))
    (spelled : ∀ row ∈ directiveRow opening :: (parts.map rowOf ++ [directiveRow closing]), row.Spelled) :
    Text.Strips (Document.text (.enclose openingLine (parts.map line) closingLine))
      (textOfRows (directiveRow opening :: (parts.map rowOf ++ [directiveRow closing]))) := by
  rw [List.forall_mem_cons, List.forall_mem_append, List.forall_mem_map, List.forall_mem_singleton] at spelled
  obtain ⟨first, each, last⟩ := spelled
  rw [opens, closes, funext lines]
  exact enclosed_strips first openingUnnumbered last closingUnnumbered (rows_strip each unnumbered)

/-- The listing of constants is the text of their rows. Constants are not numbered, and nothing is listed if there are
none. -/
theorem constants_strip {constants : Constants} (spelled : ∀ row ∈ constantRows constants, row.Spelled) :
    Text.Strips constants.listing.text (textOfRows (constantRows constants)) := by
  rw [Constants.listing, constantRows]
  rw [constantRows] at spelled
  split
  · exact .nil
  · next filled =>
    rw [if_neg filled] at spelled
    refine enclosed_rows (by decide) (by decide) (fun constant => ?_) (by decide) (by decide) (fun constant => ?_)
      spelled
    · simp [constantRow, Text.concat]
    · rw [show (constantRow constant).text.head? = some (Text.byte '\t') from rfl]
      decide

/-- The listing of variables is the text of their rows, again without numbers. -/
theorem variables_strip {vars : List Text} (spelled : ∀ row ∈ variableRows vars, row.Spelled) :
    Text.Strips (Document.text (Blueprint.listVars vars)) (textOfRows (variableRows vars)) := by
  rw [Blueprint.listVars, variableRows]
  rw [variableRows] at spelled
  split
  · exact .nil
  · next filled =>
    rw [if_neg filled] at spelled
    refine enclosed_rows (by decide) (by decide) (fun name => ?_) (by decide) (by decide) (fun name => ?_) spelled
    · simp [variableRow, Text.concat]
    · rw [show (variableRow name).text.head? = some (Text.byte '\t') from rfl]
      decide

/-- The listing of a body loses the numbers of its instructions. The variables in front of them have none. -/
theorem body_strips {blueprint : Blueprint} (spelled : ∀ row ∈ bodyRows blueprint, row.Spelled) :
    Text.Strips blueprint.listBody.text (textOfRows (bodyRows blueprint)) := by
  rw [bodyRows, List.forall_mem_append, List.forall_mem_map] at spelled
  have text : blueprint.listBody.text = Document.text (Blueprint.listVars blueprint.vars) ++
      Document.text (Blueprint.listCode 0 blueprint.code.toList) := List.flatten_append
  rw [text, bodyRows, text_of_rows_append]
  exact (variables_strip spelled.1).append (code_strips 0 spelled.2)

/-- The listing of the main block, between its two directives. -/
theorem main_strips {blueprint : Blueprint} (spelled : ∀ row ∈ mainRows blueprint, row.Spelled) :
    Text.Strips blueprint.listMain.text (textOfRows (mainRows blueprint)) := by
  rw [mainRows, List.forall_mem_cons, List.forall_mem_append, List.forall_mem_singleton] at spelled
  obtain ⟨first, body, last⟩ := spelled
  rw [mainRows, Blueprint.listMain, show (".main\n" : Text) = (directiveRow ".main").text ++ "\n" by decide,
    show (".end-main\n" : Text) = (directiveRow ".end-main").text ++ "\n" by decide]
  exact enclosed_strips first (by decide) last (by decide) (body_strips body)

/-- The listing of a method, between the line with its name and parameters and the directive that closes it. -/
theorem method_strips {blueprint : Blueprint} (spelled : ∀ row ∈ methodRows blueprint, row.Spelled) :
    Text.Strips blueprint.listMethod.text (textOfRows (methodRows blueprint)) := by
  rw [methodRows, List.forall_mem_cons, List.forall_mem_append, List.forall_mem_singleton] at spelled
  obtain ⟨first, body, last⟩ := spelled
  have heading : blueprint.methodLine = (headingRow blueprint.name blueprint.params).text ++ "\n" := by
    rw [Blueprint.methodLine, headingRow, show (")\n" : Text) = ")" ++ "\n" by decide]
    simp [Text.concat]
  rw [methodRows, Blueprint.listMethod, heading,
    show (".end-method\n" : Text) = (directiveRow ".end-method").text ++ "\n" by decide]
  apply enclosed_strips first _ last (by decide) (body_strips body)
  rw [show (headingRow blueprint.name blueprint.params).text.head? = some (Text.byte '.') from rfl]
  decide

/-- A listing without its column of numbers is the text of the rows of the program. The parts of the listing are
stripped one by one, and put together as the program is. -/
theorem listing_without_numbers {program : Program} (spelled : ∀ row ∈ program.rows, row.Spelled) :
    program.listing.text.withoutNumbers = textOfRows program.rows := by
  rw [Program.rows, List.forall_mem_append] at spelled
  have text : program.listing.text = program.constants.listing.text ++
      Document.text (Program.listBlueprints program.blueprints) := List.flatten_append
  rw [text, Program.rows, text_of_rows_append]
  apply Text.Strips.whole
  apply (constants_strip spelled.1).append
  cases blueprints : program.blueprints with
  | nil => exact .nil
  | cons main methods =>
    rw [blueprints, blueprintRows, List.forall_mem_append, List.forall_mem_flatMap] at spelled
    obtain ⟨_, mainSpelled, methodsSpelled⟩ := spelled
    have listed : Document.text (Program.listBlueprints (main :: methods)) =
        main.listMain.text ++ methods.flatMap fun method => method.listMethod.text := by
      simp [Program.listBlueprints, Document.text, List.flatMap_def, List.flatten_flatten, Function.comp_def]
    have rows : textOfRows (methods.flatMap methodRows) =
        methods.flatMap fun method => textOfRows (methodRows method) := List.flatMap_assoc
    rw [listed, blueprintRows, text_of_rows_append, rows]
    exact (main_strips mainSpelled).append (.flatMap fun method member => method_strips (methodsSpelled method member))

/-! ## Rows are read as their tokens -/

/-- Characters of words, encoded, are a word. There has to be at least one. -/
theorem word_written {text : Text} (encoded : text.isUtf8 = true) (filled : text.characters ≠ [])
    (wordly : text.characters.all isWordCharacter = true) : Written .word text := by
  obtain ⟨first, rest, characters⟩ := List.exists_cons_of_ne_nil filled
  rw [characters, List.all_eq_true] at wordly
  have word := Written.word wordly
  rwa [← characters, Text.of_characters_of_utf8 encoded] at word

/-- A name is a word, since its letters, digits and underscores are characters of words. -/
theorem name_written {text : Text} (named : isName text = true) : Written .word text := by
  have encoded := name_well_encoded text named
  unfold isName at named
  cases characters : text.characters with
  | nil => simp [characters] at named
  | cons first rest =>
    apply word_written encoded
    · rw [characters]
      exact List.cons_ne_nil first rest
    · simp only [characters, Bool.and_eq_true, Bool.or_eq_true, List.all_eq_true] at named
      rw [characters, List.all_eq_true, List.forall_mem_cons]
      unfold isWordCharacter
      constructor
      · rcases named.1 with underscore | letter
        · simp [underscore]
        · simp [letter]
      · intro character member
        rcases named.2 character member with (underscore | letter) | digit
        · simp [underscore]
        · simp [letter]
        · simp [digit]

/-- A text of bytes in ASCII is the encoding of their characters, byte by byte. -/
theorem of_ascii {text : Text} (ascii : ∀ byte ∈ text, byte.toNat < 0x80) :
    Text.ofCharacters (text.map fun byte => Char.ofNat byte.toNat) = text := by
  induction text with
  | nil => rfl
  | cons byte rest ih =>
    rw [List.forall_mem_cons] at ascii
    rw [List.map_cons, Text.ofCharacters, List.flatMap_cons, Text.of_char_ascii ascii.1, ← Text.ofCharacters,
      ih ascii.2]
    rfl

/-- A printed value has digits, and perhaps a sign. All of them lie within a small range of ASCII. -/
theorem value_bytes (value : Cell) : Text.ofInt32 value ≠ [] ∧
    ∀ byte ∈ Text.ofInt32 value, byte.toNat < 0x3A ∧ (byte.toNat = 0x2D ∨ 0x30 ≤ byte.toNat) := by
  obtain ⟨filled, digits⟩ := Text.of_nat_digits value.toInt.natAbs
  have decimal : ∀ byte ∈ Text.ofNat value.toInt.natAbs,
      byte.toNat < 0x3A ∧ (byte.toNat = 0x2D ∨ 0x30 ≤ byte.toNat) := by
    intro byte member
    have range := digits byte member
    omega
  rw [Text.ofInt32, Text.ofInt]
  split
  · exact ⟨List.cons_ne_nil _ _, List.forall_mem_cons.mpr ⟨by decide, decimal⟩⟩
  · exact ⟨filled, decimal⟩

/-- A printed value is a word: digits and the minus sign are characters of words. -/
theorem value_written (value : Cell) : Written .word (.ofInt32 value) := by
  obtain ⟨filled, each⟩ := value_bytes value
  have encoding := of_ascii fun byte member => Nat.lt_trans (each byte member).1 (by decide)
  have wordly : ∀ number < 0x3A, number = 0x2D ∨ 0x30 ≤ number → isWordCharacter (Char.ofNat number) = true := by
    decide +kernel
  obtain ⟨first, rest, isText⟩ := List.exists_cons_of_ne_nil filled
  rw [isText] at each encoding ⊢
  have characters : ∀ character ∈ (first :: rest).map fun byte => Char.ofNat byte.toNat,
      isWordCharacter character = true := by
    rw [List.forall_mem_map]
    intro byte member
    exact wordly byte.toNat (each byte member).1 (each byte member).2
  rw [← encoding]
  exact .word characters

/-- A character that is no part of words separates a word from what follows it. -/
theorem apart_of_char {character : Char} (other : isWordCharacter character = false) (rest : Text) :
    Apart (Text.ofChar character ++ rest) := by
  rw [Apart, Text.characters, Text.glyphs_of_char_append]
  rintro _ ⟨⟩
  exact other

/-- The end of a text separates a word from what follows it, which is nothing. -/
theorem apart_nil : Apart [] := by
  rintro _ ⟨⟩

/-- Nothing needs to stand between punctuation and what follows it, unlike words. -/
theorem spells_mark {character : Char} (listed : character ∈ punctuation) {rest : Text} {shapes : List Shape}
    (later : Spells rest shapes) :
    Spells (.ofChar character ++ rest) ((.mark character, .ofChar character) :: shapes) := by
  apply Spells.token (.mark listed) _ later
  rintro ⟨⟩

/-- The row of a directive is read as one word, if the directive can be written. -/
theorem directive_spelled {directive : Text} (written : Written .word directive) :
    (directiveRow directive).Spelled := by
  have spells := Spells.token written (fun _ => apart_nil) .nil
  rw [List.append_nil] at spells
  exact ⟨spells, List.cons_ne_nil _ _⟩

/-- The row of a constant is read as its name and its value. The blank between them keeps them apart. -/
theorem constant_spelled {constant : Text × Cell} (named : isName constant.1 = true) :
    (constantRow constant).Spelled := by
  have value := Spells.token (value_written constant.2) (fun _ => apart_nil) .nil
  have blank := Spells.blank (show isBlank ' ' = true by decide) value
  have name := Spells.token (name_written named) (fun _ => apart_of_char (by decide +kernel) _) blank
  exact ⟨.blank (show isBlank '\t' = true by decide) name, List.cons_ne_nil _ _⟩

/-- The row of a variable is read as its name, with a tabulator in front that is passed over. -/
theorem variable_spelled {name : Text} (named : isName name = true) : (variableRow name).Spelled := by
  have spells := Spells.token (name_written named) (fun _ => apart_nil) .nil
  rw [List.append_nil] at spells
  exact ⟨.blank (show isBlank '\t' = true by decide) spells, List.cons_ne_nil _ _⟩

/-- The row of a label is read as its name and a colon. -/
theorem label_spelled {name : Text} (named : isName name = true) (line : Int) :
    (instructionRow { opcode := .label, operands := [name], line }).Spelled := by
  have colon := spells_mark (show ':' ∈ punctuation by decide) .nil
  have spells := Spells.token (name_written named) (fun _ => apart_of_char (by decide +kernel) _) colon
  exact ⟨spells, List.cons_ne_nil _ _⟩

/-- Texts of tokens with the same separator in front of each. The separator may be read as tokens itself, as a comma
is, or as nothing, as a blank is; the induction on the texts is the same. -/
theorem list_spelled {separator : Text} {marks : List Shape} {kind : Text → TokenKind}
    (separates : ∀ text shapes, Spells text shapes → Spells (separator ++ text) (marks ++ shapes))
    (parts : ∀ text, Apart (separator ++ text)) {texts : List Text} (written : ∀ text ∈ texts, Written (kind text) text)
    {rest : Text} {shapes : List Shape} (apart : Apart rest) (later : Spells rest shapes) :
    Apart (texts.flatMap (separator ++ ·) ++ rest) ∧
      Spells (texts.flatMap (separator ++ ·) ++ rest)
        (texts.flatMap (fun text => marks ++ [(kind text, text)]) ++ shapes) := by
  induction texts with
  | nil => exact ⟨apart, later⟩
  | cons text others ih =>
    rw [List.forall_mem_cons] at written
    obtain ⟨behind, spells⟩ := ih written.2
    have token := Spells.token written.1 (fun _ => behind) spells
    simp only [List.flatMap_cons, List.append_assoc, List.singleton_append]
    exact ⟨parts _, separates _ _ token⟩

/-- The row of an instruction other than a label is read as its mnemonic and its operands, if these can be written. -/
theorem instruction_spelled {instruction : Instruction} (noLabel : instruction.opcode ≠ .label)
    (written : ∀ text ∈ instruction.opcode.name :: instruction.operands, Written (tokenKind text) text) :
    (instructionRow instruction).Spelled := by
  have separates (text : Text) (shapes : List Shape) (spells : Spells text shapes) :
      Spells ((" " : Text) ++ text) ([] ++ shapes) := .blank (show isBlank ' ' = true by decide) spells
  rw [List.forall_mem_cons] at written
  obtain ⟨apart, operands⟩ := list_spelled separates
    (apart_of_char (show isWordCharacter ' ' = false by decide +kernel)) written.2 apart_nil .nil
  have spells := Spells.token written.1 (fun _ => apart) operands
  rw [List.append_nil, List.append_nil, ← Text.join_cons] at spells
  have shapes : (instructionRow instruction).shapes =
      (instruction.opcode.name :: instruction.operands).map operandShape := if_neg noLabel
  constructor
  · rw [shapes, List.map_cons, List.map_eq_flatMap, instructionRow, Instruction.text, if_neg noLabel, if_neg noLabel]
    exact .blank (show isBlank '\t' = true by decide) spells
  · rw [shapes]
    exact List.cons_ne_nil _ _

/-- Parameters in front of a text are read as names with commas between them. Behind the last one there must be
something that is no part of a word. -/
theorem params_spelled {params : List Text} (named : ∀ param ∈ params, isName param = true) {rest : Text}
    {shapes : List Shape} (apart : Apart rest) (later : Spells rest shapes) :
    Spells (.join ", " params ++ rest) (paramShapes params ++ shapes) := by
  cases params with
  | nil => exact later
  | cons first others =>
    rw [List.forall_mem_cons] at named
    have separates (text : Text) (shapes : List Shape) (spells : Spells text shapes) :
        Spells (", " ++ text) ([((.mark ',', ",") : Shape)] ++ shapes) :=
      spells_mark (show ',' ∈ punctuation by decide) (.blank (show isBlank ' ' = true by decide) spells)
    obtain ⟨behind, spells⟩ := list_spelled separates
      (fun text => apart_of_char (show isWordCharacter ',' = false by decide +kernel) (Text.ofChar ' ' ++ text))
      (fun param listed => name_written (named.2 param listed)) apart later
    rw [Text.join_cons, List.append_assoc]
    exact .token (name_written named.1) (fun _ => behind) spells

/-- The row that opens a method is read as the directive, the name and the parameters in parentheses. -/
theorem heading_spelled {name : Text} {params : List Text} (nameNamed : isName name = true)
    (named : ∀ param ∈ params, isName param = true) : (headingRow name params).Spelled := by
  have directive : Written .word ".method" :=
    word_written (by decide) (by decide) (by decide +kernel)
  have closing := spells_mark (show ')' ∈ punctuation by decide) .nil
  have listed := params_spelled named (apart_of_char (show isWordCharacter ')' = false by decide +kernel) _) closing
  have opening := spells_mark (show '(' ∈ punctuation by decide) listed
  have spells := Spells.token (name_written nameNamed)
    (fun _ => apart_of_char (show isWordCharacter '(' = false by decide +kernel) _) opening
  have blank := Spells.blank (show isBlank ' ' = true by decide) spells
  have whole := Spells.token directive
    (fun _ => apart_of_char (show isWordCharacter ' ' = false by decide +kernel) _) blank
  exact ⟨whole, List.cons_ne_nil _ _⟩

end IntegerMachine
