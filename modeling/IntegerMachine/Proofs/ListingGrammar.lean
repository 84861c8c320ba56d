import IntegerMachine.Proofs.ListingText
import IntegerMachine.Proofs.Wording

/-!
# The grammar of listings

The rows of a listing are read as tokens, and the tokens are derived by the grammar to a tree. The blocks of that tree
say what the blocks say that the listing was made from, in the same order, with all declarations in one block of
declarations in front of the statements.
-/
namespace IntegerMachine

open Source Grammar

/-! ## Operands -/

/-- The kind of a word or of a character literal is told by its text. A character literal starts with a quote, and no
word does. -/
theorem kind_of_written {kind : TokenKind} {text : Text} (written : Written kind text)
    (either : kind = .word ∨ kind = .quoted) : tokenKind text = kind := by
  cases written with
  | word wordly =>
    rename_i first rest
    have notQuote : first ≠ '\'' := by
      rintro rfl
      exact absurd (wordly '\'' List.mem_cons_self) (by decide +kernel)
    simp [tokenKind, notQuote]
  | quoted => simp [tokenKind]
  | mark => simp at either

/-- A name is told to be a word, since it can be written as one. -/
theorem kind_of_name {text : Text} (named : isName text = true) : tokenKind text = .word :=
  kind_of_written (name_written named) (.inl rfl)

/-- Mnemonics can be written, and stand for their opcodes. -/
theorem mnemonics_written : ∀ opcode ∈ Opcode.instructions, tokenKind opcode.name = .word ∧
    Opcode.ofMnemonic? opcode.name = some opcode ∧ opcode.name.isUtf8 = true ∧ opcode.name.characters ≠ [] ∧
    opcode.name.characters.all isWordCharacter = true := by
  decide +kernel

section Tokens

variable {given : Token → Prop}
  (again : ∀ token, given token → token.kind = .word ∨ token.kind = .quoted → Written token.kind token.text)

include again

/-- A literal that was a token can be written, and is a literal again. Its kind was not kept in the tree, but its text
tells it. -/
theorem literal_again {literal : Ident} (sound : LiteralFrom given literal) :
    Written (tokenKind literal.name) literal.name ∧
      ∀ token : Token, token.shape = operandShape literal.name → token.isLiteral = true := by
  obtain ⟨origin, available, rfl, isLiteral⟩ := sound
  have either : origin.kind = .word ∨ origin.kind = .quoted := by
    simp only [Token.isLiteral, Bool.or_eq_true, Bool.and_eq_true, decide_eq_true_eq] at isLiteral
    rcases isLiteral with quoted | word
    · exact .inr quoted
    · exact .inl word.1
  have written := again origin available either
  have kind := kind_of_written written either
  constructor
  · rw [Token.ident, kind]
    exact written
  · intro token shaped
    obtain ⟨sameKind, sameText⟩ := Prod.mk.inj shaped
    rw [Token.ident] at sameText
    rw [Token.ident, kind] at sameKind
    rw [Token.isLiteral, Token.dotted] at isLiteral ⊢
    rw [sameKind, sameText]
    exact isLiteral

/-- The operands of an instruction can be written, whether they are literals or names. Each was a token of the source
at its index. -/
theorem operands_written {opcode : Opcode} {operands : List Ident}
    (kinds : ∀ index ident, operands[index]? = some ident → OperandFrom given opcode index ident) :
    ∀ operand ∈ operands, Written (tokenKind operand.name) operand.name := by
  intro operand member
  obtain ⟨index, found⟩ := List.mem_iff_getElem?.mp member
  have sound := kinds index operand found
  rw [OperandFrom] at sound
  split at sound
  · exact (literal_again again sound).1
  · obtain ⟨token, _, rfl, named⟩ := sound
    rw [Token.ident, kind_of_name named]
    exact name_written named

/-- An operand fits its opcode again: what was a literal is one, and what was a name is one. Both are asked of the
token that the text is read as. -/
theorem operand_fits {opcode : Opcode} {index : Nat} {operand : Ident} (sound : OperandFrom given opcode index operand)
    {token : Token} (shaped : token.shape = operandShape operand.name) :
    (operandKind opcode index = .literal → token.isLiteral = true) ∧
      (operandKind opcode index ≠ .literal → isName token.text = true) := by
  rw [OperandFrom] at sound
  constructor
  · intro isLiteral
    rw [if_pos isLiteral] at sound
    exact (literal_again again sound).2 token shaped
  · intro notLiteral
    rw [if_neg notLiteral] at sound
    obtain ⟨origin, _, rfl, named⟩ := sound
    rw [(Prod.mk.inj shaped).2]
    exact named

/-- The operands of an instruction fit its opcode again, in their number and one by one. The cases are those of how
many operands an opcode wants. -/
theorem operands_fit {opcode : Opcode} {operands : List Ident} (count : operands.length = opcode.operands.count)
    (kinds : ∀ index ident, operands[index]? = some ident → OperandFrom given opcode index ident) {tokens : List Token}
    (shaped : tokens.map Token.shape = operands.map fun operand => operandShape operand.name) :
    List.Forall₂ (fun test token => test token = true) (operandTests opcode.operands) tokens := by
  have single (length : operands.length = 1) : ∃ operand token, operands = [operand] ∧ tokens = [token] ∧
      token.shape = operandShape operand.name := by
    obtain ⟨operand, rfl⟩ := List.length_eq_one_iff.mp length
    obtain ⟨token, rfl, same⟩ := List.map_eq_singleton_iff.mp shaped
    exact ⟨operand, token, rfl, rfl, same⟩
  cases takes : opcode.operands with
  | nothing =>
    rw [takes] at count
    obtain rfl := List.eq_nil_of_length_eq_zero count
    obtain rfl := List.map_eq_nil_iff.mp shaped
    exact .nil
  | literal =>
    rw [takes] at count
    obtain ⟨operand, token, rfl, rfl, same⟩ := single count
    exact .cons ((operand_fits again (kinds 0 operand rfl) same).1 (by simp [operandKind, takes])) .nil
  | localAndLiteral =>
    rw [takes] at count
    obtain ⟨name, rest, rfl⟩ := List.exists_cons_of_length_eq_add_one count
    obtain ⟨literal, rfl⟩ := List.length_eq_one_iff.mp (Nat.succ.inj count)
    obtain ⟨first, others, rfl, firstSame, othersSame⟩ := List.map_eq_cons_iff.mp shaped
    obtain ⟨second, rfl, secondSame⟩ := List.map_eq_singleton_iff.mp othersSame
    have fitsName := (operand_fits again (kinds 0 name rfl) firstSame).2 (by simp [operandKind, takes])
    have fitsLiteral := (operand_fits again (kinds 1 literal rfl) secondSame).1 (by simp [operandKind, takes])
    exact .cons fitsName (.cons fitsLiteral .nil)
  | localVariable | constant | method | target =>
    rw [takes] at count
    obtain ⟨operand, token, rfl, rfl, same⟩ := single count
    exact .cons ((operand_fits again (kinds 0 operand rfl) same).2 (by simp [operandKind, takes])) .nil

/-! ## Statements -/

/-- The row of a statement is read as its tokens. A label has a colon behind its name, and an instruction blanks
between its texts. -/
theorem statement_spelled {statement : Statement} (sound : StatementFrom given statement) :
    (instructionRow statement.build).Spelled := by
  cases sound with
  | label token available named => exact label_spelled named _
  | instruction token opcode operands available assigned count kinds =>
    obtain ⟨kind, _, encoded, filled, wordly⟩ := mnemonics_written opcode assigned
    apply instruction_spelled (Opcode.valid_of_instruction assigned).2
    rw [List.forall_mem_cons]
    constructor
    · change Written (tokenKind opcode.name) opcode.name
      rw [kind]
      exact word_written encoded filled wordly
    · exact List.forall_mem_map.mpr (operands_written again kinds)

/-- The tokens of the row of a statement are a line with a statement that says the same. Its position is that of one
of the tokens, which is all that is said about positions. -/
theorem statement_again {statement : Statement} (sound : StatementFrom given statement) {tokens : List Token}
    (shaped : tokens.map Token.shape = (instructionRow statement.build).shapes) :
    ∃ copy, StatementLine tokens [copy] ∧ copy.wording = statement.wording ∧
      ∃ token ∈ tokens, copy.position = token.position := by
  cases sound with
  | label token available named =>
    obtain ⟨name, others, rfl, nameShape, othersShape⟩ := List.map_eq_cons_iff.mp shaped
    obtain ⟨colon, rfl, colonShape⟩ := List.map_eq_singleton_iff.mp othersShape
    have text : name.text = token.text := (Prod.mk.inj nameShape).2
    refine ⟨.label name.position name.text, ?_, congrArg Wording.label text, name, List.mem_cons_self, rfl⟩
    have label := Label.mk (text ▸ named) (Prod.mk.inj colonShape).1
    exact .labels (.cons label .nil)
  | instruction token opcode operands available assigned count kinds =>
    obtain ⟨kind, known, _⟩ := mnemonics_written opcode assigned
    have shapes : (instructionRow (Statement.instruction token.position opcode operands).build).shapes =
        operandShape opcode.name :: (operands.map Ident.name).map operandShape :=
      if_neg (Opcode.valid_of_instruction assigned).2
    rw [shapes, List.map_map] at shaped
    obtain ⟨mnemonic, others, rfl, mnemonicShape, othersShape⟩ := List.map_eq_cons_iff.mp shaped
    obtain ⟨isWord, isMnemonic⟩ := Prod.mk.inj mnemonicShape
    have texts : (others.map Token.ident).map Ident.name = operands.map Ident.name := by
      have second := congrArg (List.map Prod.snd) othersShape
      rw [List.map_map, List.map_map] at second
      rw [List.map_map]
      exact second
    refine ⟨.instruction mnemonic.position opcode (others.map Token.ident), ?_, ?_, mnemonic, List.mem_cons_self, rfl⟩
    · have fit := operands_fit again count kinds othersShape
      have command := Command.mk (isWord.trans kind) (isMnemonic ▸ known) fit
      exact .command .nil command
    · exact congrArg (Wording.instruction opcode) texts

/-- The rows of statements are lines with statements that say the same, one statement in each line. The induction is
on the statements. -/
theorem code_again {statements : List Statement} (sound : ∀ statement ∈ statements, StatementFrom given statement)
    {lines : List Line}
    (shaped : lines.map (List.map Token.shape) =
      (statements.map fun statement => instructionRow statement.build).map Row.shapes) :
    ∃ copies : List Statement, Sequence BodyPart lines (copies.map fun copy => { statements := [copy] }) ∧
      copies.map Statement.wording = statements.map Statement.wording ∧
      ∀ copy ∈ copies, ∃ token ∈ lines.flatten, copy.position = token.position := by
  induction statements generalizing lines with
  | nil =>
    obtain rfl := List.map_eq_nil_iff.mp shaped
    exact ⟨[], .nil, rfl, by simp⟩
  | cons statement rest ih =>
    rw [List.forall_mem_cons] at sound
    obtain ⟨line, others, rfl, lineShape, othersShape⟩ := List.map_eq_cons_iff.mp shaped
    obtain ⟨copy, reads, same, token, member, placed⟩ := statement_again again sound.1 lineShape
    obtain ⟨copies, sequence, alike, positions⟩ := ih sound.2 othersShape
    refine ⟨copy :: copies, .cons (.statements reads) sequence, by rw [List.map_cons, List.map_cons, same, alike], ?_⟩
    rw [List.forall_mem_cons, List.flatten_cons]
    refine ⟨⟨token, List.mem_append_left _ member, placed⟩, fun later listed => ?_⟩
    obtain ⟨origin, inLines, located⟩ := positions later listed
    exact ⟨origin, List.mem_append_right _ inLines, located⟩

end Tokens

/-! ## Declarations -/

/-- A token with the text of a directive is that directive. Directives are compared in lower case, so the text has to
be in lower case itself. -/
theorem directive_token {directive : Text} (dotted : directive.head? = some (Text.byte '.'))
    (lower : directive.lower = directive) {token : Token} (shaped : token.shape = (.word, directive)) :
    IsDirective directive token := by
  obtain ⟨isWord, text⟩ := Prod.mk.inj shaped
  rw [IsDirective, Token.directive?, if_pos, text, lower]
  rw [Token.dotted, text, dotted]
  exact ⟨isWord, rfl⟩

/-- The row of a directive is one line with one token, which is that directive. -/
theorem directive_again {directive : Text} (dotted : directive.head? = some (Text.byte '.'))
    (lower : directive.lower = directive) {line : Line}
    (shaped : line.map Token.shape = (directiveRow directive).shapes) :
    ∃ token, line = [token] ∧ IsDirective directive token := by
  obtain ⟨token, rfl, shape⟩ := List.map_eq_singleton_iff.mp shaped
  exact ⟨token, rfl, directive_token dotted lower shape⟩

/-- Rows between a first row and the row of a directive are read as lines in the same arrangement. The first row is
left open here, since a method has a heading in its place. -/
theorem closed_again {opening : Row} {closing : Text} {rows : List Row} {lines : List Line}
    (dotted : closing.head? = some (Text.byte '.')) (lower : closing.lower = closing)
    (shaped : lines.map (List.map Token.shape) = (opening :: (rows ++ [directiveRow closing])).map Row.shapes) :
    ∃ first inside last, lines = first :: (inside ++ [[last]]) ∧ first.map Token.shape = opening.shapes ∧
      IsDirective closing last ∧ inside.map (List.map Token.shape) = rows.map Row.shapes := by
  rw [List.map_cons, List.map_append] at shaped
  obtain ⟨first, others, rfl, firstShape, othersShape⟩ := List.map_eq_cons_iff.mp shaped
  obtain ⟨inside, rest, rfl, insideShape, restShape⟩ := List.map_eq_append_iff.mp othersShape
  obtain ⟨line, rfl, lineShape⟩ := List.map_eq_singleton_iff.mp restShape
  obtain ⟨last, rfl, closes⟩ := directive_again dotted lower lineShape
  exact ⟨first, inside, last, rfl, firstShape, closes, insideShape⟩

/-- Rows between the rows of two directives. -/
theorem enclosed_again {opening closing : Text} {rows : List Row} {lines : List Line}
    (openingDotted : opening.head? = some (Text.byte '.')) (openingLower : opening.lower = opening)
    (closingDotted : closing.head? = some (Text.byte '.')) (closingLower : closing.lower = closing)
    (shaped : lines.map (List.map Token.shape) =
      (directiveRow opening :: (rows ++ [directiveRow closing])).map Row.shapes) :
    ∃ first inside last, lines = [first] :: (inside ++ [[last]]) ∧ IsDirective opening first ∧
      IsDirective closing last ∧ inside.map (List.map Token.shape) = rows.map Row.shapes := by
  obtain ⟨line, inside, last, rfl, lineShape, closes, insideShape⟩ := closed_again closingDotted closingLower shaped
  obtain ⟨first, rfl, opens⟩ := directive_again openingDotted openingLower lineShape
  exact ⟨first, inside, last, rfl, opens, closes, insideShape⟩

/-- The rows of variables are lines that declare them, each line one name. The names come out in the order of the
rows. -/
theorem declarations_again {vars : List Text} (named : ∀ name ∈ vars, isName name = true) {lines : List Line}
    (shaped : lines.map (List.map Token.shape) = (vars.map variableRow).map Row.shapes) :
    (∀ line ∈ lines, Declares line) ∧ (names lines.flatten).map Ident.name = vars := by
  induction vars generalizing lines with
  | nil =>
    obtain rfl := List.map_eq_nil_iff.mp shaped
    exact ⟨by simp, rfl⟩
  | cons name rest ih =>
    rw [List.forall_mem_cons] at named
    obtain ⟨line, others, rfl, lineShape, othersShape⟩ := List.map_eq_cons_iff.mp shaped
    obtain ⟨token, rfl, shape⟩ := List.map_eq_singleton_iff.mp lineShape
    obtain ⟨declares, declared⟩ := ih named.2 othersShape
    have text : token.text = name := (Prod.mk.inj shape).2
    have isNamed : isName token.text = true := text ▸ named.1
    constructor
    · exact List.forall_mem_cons.mpr ⟨List.forall_mem_singleton.mpr (.inl isNamed), declares⟩
    · have first : names (token :: others.flatten) = token.ident :: names others.flatten := by
        simp [names, isNamed]
      rw [List.flatten_cons, List.singleton_append, first, List.map_cons, declared, Token.ident, text]

/-- The rows of declarations are a part of a body with one block of declarations, or nothing if there are none. A
block that had several blocks of declarations has one now. -/
theorem variables_again {vars : List Text} (named : ∀ name ∈ vars, isName name = true) {lines : List Line}
    (shaped : lines.map (List.map Token.shape) = (variableRows vars).map Row.shapes) :
    ∃ blocks : List VarBlock, Sequence BodyPart lines (blocks.map fun block => { vars := [block] }) ∧
      (blocks.flatMap VarBlock.names).map Ident.name = vars ∧
      ∀ block ∈ blocks, ∃ token ∈ lines.flatten, block.position = token.position := by
  rw [variableRows] at shaped
  split at shaped
  · next empty =>
    obtain rfl := List.map_eq_nil_iff.mp shaped
    rw [List.isEmpty_iff.mp empty]
    exact ⟨[], .nil, rfl, by simp⟩
  · obtain ⟨first, inside, last, rfl, opens, closes, insideShape⟩ :=
      enclosed_again (by decide) (by decide) (by decide) (by decide) shaped
    obtain ⟨declares, declared⟩ := declarations_again named insideShape
    refine ⟨[{ position := first.position, names := names inside.flatten }], ?_, ?_, ?_⟩
    · have part := BodyPart.variableBlock (.mk .nil opens) declares closes
      have sequence := Sequence.cons part .nil
      rwa [List.append_nil] at sequence
    · rw [List.flatMap_singleton, declared]
    · exact List.forall_mem_singleton.mpr ⟨first, by simp, rfl⟩

/-! ## Blocks -/

/-- Tokens that stand in the order of their lines. -/
def InOrder (lines : List Line) : Prop :=
  lines.flatten.Pairwise fun one other => one.position.line ≤ other.position.line

/-- Lines in order are in order without those behind them. -/
theorem InOrder.left {lines others : List Line} (inOrder : InOrder (lines ++ others)) : InOrder lines := by
  rw [InOrder, List.flatten_append] at inOrder
  exact (List.pairwise_append.mp inOrder).1

/-- Lines in order are in order without those before them, as the lines behind a section are. -/
theorem InOrder.right {lines others : List Line} (inOrder : InOrder (lines ++ others)) : InOrder others := by
  rw [InOrder, List.flatten_append] at inOrder
  exact (List.pairwise_append.mp inOrder).2.1

/-- Lines in order are in order without the first one, which is the line that opens a block. -/
theorem InOrder.tail {line : Line} {lines : List Line} (inOrder : InOrder (line :: lines)) : InOrder lines :=
  @InOrder.right [line] lines inOrder

/-- A block that says the same as another one, with its declarations in front of its statements. -/
structure Block.Restated (block copy : Block) : Prop where
  alike : block.ReadsLike copy
  placed : copy.Placed

/-- Variables and parameters have names, as each was a token that is a name. -/
theorem locals_named {given : Token → Prop} {block : Block} (sound : BlockFrom given True block) :
    (∀ name ∈ block.params.map Ident.name, isName name = true) ∧
      ∀ name ∈ block.variables.map Ident.name, isName name = true := by
  constructor
  · rw [List.forall_mem_map]
    intro param listed
    obtain ⟨token, _, rfl, named⟩ := sound.params param listed
    exact named
  · rw [List.forall_mem_map, Block.variables, List.forall_mem_flatMap]
    intro declared member name listed
    obtain ⟨token, _, rfl, named⟩ := sound.vars declared member name listed
    exact named

/-- The directives of listings that stand alone on their rows. -/
def loneDirectives : List Text :=
  [".constant", ".end-constant", ".main", ".end-main", ".end-method", ".var", ".end-var"]

/-- These directives can be written: they consist of letters, hyphens and a full stop, which are characters of
words. -/
theorem lone_directives_written : ∀ directive ∈ loneDirectives, directive.isUtf8 = true ∧ directive.characters ≠ [] ∧
    directive.characters.all isWordCharacter = true := by
  decide +kernel

/-- The row of such a directive is read as the directive, with nothing else on the line. -/
theorem lone_directive_spelled {directive : Text} (listed : directive ∈ loneDirectives) :
    (directiveRow directive).Spelled := by
  obtain ⟨encoded, filled, wordly⟩ := lone_directives_written directive listed
  exact directive_spelled (word_written encoded filled wordly)

/-- Rows between the rows of two such directives are read as their tokens, if the rows themselves are. -/
theorem enclosed_spelled {opening closing : Text} (opens : opening ∈ loneDirectives)
    (closes : closing ∈ loneDirectives) {rows : List Row} (spelled : ∀ row ∈ rows, row.Spelled) :
    ∀ row ∈ directiveRow opening :: (rows ++ [directiveRow closing]), row.Spelled := by
  rw [List.forall_mem_cons, List.forall_mem_append, List.forall_mem_singleton]
  exact ⟨lone_directive_spelled opens, spelled, lone_directive_spelled closes⟩

/-- The rows of declarations are read as their tokens, since variables have names. Without variables there are no
rows. -/
theorem variables_spelled {vars : List Text} (named : ∀ name ∈ vars, isName name = true) :
    ∀ row ∈ variableRows vars, row.Spelled := by
  rw [variableRows]
  split
  · simp
  · apply enclosed_spelled (by decide) (by decide)
    rw [List.forall_mem_map]
    intro name member
    exact variable_spelled (named name member)

/-- The tokens of the parameters behind the first one are commas and names in turn. The induction is on the
parameters. -/
theorem further_again {params : List Text} (named : ∀ name ∈ params, isName name = true) {tokens : List Token}
    (shaped : tokens.map Token.shape = params.flatMap furtherShapes) :
    ∃ idents, Sequence Further tokens idents ∧ idents.map Ident.name = params := by
  induction params generalizing tokens with
  | nil =>
    obtain rfl := List.map_eq_nil_iff.mp shaped
    exact ⟨[], .nil, rfl⟩
  | cons name rest ih =>
    rw [List.forall_mem_cons] at named
    rw [List.flatMap_cons, furtherShapes] at shaped
    obtain ⟨comma, behind, rfl, commaShape, behindShape⟩ := List.map_eq_cons_iff.mp shaped
    obtain ⟨token, others, rfl, tokenShape, othersShape⟩ := List.map_eq_cons_iff.mp behindShape
    obtain ⟨idents, sequence, same⟩ := ih named.2 othersShape
    have text : token.text = name := (Prod.mk.inj tokenShape).2
    have further := Further.mk (Prod.mk.inj commaShape).1 (text ▸ named.1)
    exact ⟨token.ident :: idents, .cons further sequence, by rw [List.map_cons, same, Token.ident, text]⟩

/-- The tokens of parameters are parameters of the same names, also if there are none. -/
theorem parameters_again {params : List Text} (named : ∀ name ∈ params, isName name = true) {tokens : List Token}
    (shaped : tokens.map Token.shape = paramShapes params) :
    ∃ idents, Parameters tokens idents ∧ idents.map Ident.name = params := by
  cases params with
  | nil =>
    obtain rfl := List.map_eq_nil_iff.mp shaped
    exact ⟨[], .none, rfl⟩
  | cons name rest =>
    rw [List.forall_mem_cons] at named
    obtain ⟨token, others, rfl, tokenShape, othersShape⟩ := List.map_eq_cons_iff.mp shaped
    obtain ⟨idents, sequence, same⟩ := further_again named.2 othersShape
    have text : token.text = name := (Prod.mk.inj tokenShape).2
    refine ⟨token.ident :: idents, .some (text ▸ named.1) sequence, ?_⟩
    rw [List.map_cons, same, Token.ident, text]

/-- The row that opens a method opens one of the same name with the same parameters. There are parentheses even
without parameters, which the grammar allows. -/
theorem heading_again {name : Text} {params : List Text} (nameNamed : isName name = true)
    (named : ∀ param ∈ params, isName param = true) {line : Line}
    (shaped : line.map Token.shape = (headingRow name params).shapes) :
    ∃ start, Heading line start ∧ start.name = name ∧ start.params.map Ident.name = params ∧ start.vars = [] ∧
      start.statements = [] := by
  obtain ⟨opening, behind, rfl, openingShape, behindShape⟩ := List.map_eq_cons_iff.mp shaped
  obtain ⟨token, others, rfl, tokenShape, othersShape⟩ := List.map_eq_cons_iff.mp behindShape
  obtain ⟨left, rest, rfl, leftShape, restShape⟩ := List.map_eq_cons_iff.mp othersShape
  obtain ⟨tokens, ending, rfl, tokensShape, endingShape⟩ := List.map_eq_append_iff.mp restShape
  obtain ⟨right, rfl, rightShape⟩ := List.map_eq_singleton_iff.mp endingShape
  obtain ⟨idents, listed, same⟩ := parameters_again named tokensShape
  have opens : IsDirective ".method" opening := directive_token (by decide) (by decide) openingShape
  have text : token.text = name := (Prod.mk.inj tokenShape).2
  refine ⟨_, .withParams opens (text ▸ nameNamed) (Prod.mk.inj leftShape).1 (Prod.mk.inj rightShape).1 listed, ?_⟩
  exact ⟨text, same, rfl, rfl⟩

section Tokens

variable {given : Token → Prop}
  (again : ∀ token, given token → token.kind = .word ∨ token.kind = .quoted → Written token.kind token.text)
  {block : Block} (sound : BlockFrom given True block)

include again sound

/-- The rows of a body are read as their tokens: those of the declarations and those of the statements. -/
theorem body_spelled : ∀ row ∈ bodyRows block.linked, row.Spelled := by
  rw [bodyRows, List.forall_mem_append, List.forall_mem_map]
  constructor
  · exact variables_spelled (locals_named sound).2
  · intro instruction member
    obtain ⟨statement, listed, rfl⟩ := List.mem_map.mp (show instruction ∈ block.code from member)
    exact statement_spelled again (sound.statements statement listed)

/-- The rows of a body are a body that says the same, with its declarations in front of its statements. That lines are
in order is what puts the declarations on earlier lines. -/
theorem body_again {lines : List Line} (inOrder : InOrder lines)
    (shaped : lines.map (List.map Token.shape) = (bodyRows block.linked).map Row.shapes) :
    ∃ parts, Sequence BodyPart lines parts ∧ ∀ start : Block, start.name = block.name →
      start.params.map Ident.name = block.params.map Ident.name → start.vars = [] → start.statements = [] →
      block.Restated (complete start parts []) := by
  have code : block.linked.code.toList.map instructionRow =
      block.statements.map fun statement => instructionRow statement.build := by
    rw [Block.linked, Blueprint.linked, Block.code, List.map_map]
    rfl
  rw [bodyRows, code, List.map_append] at shaped
  obtain ⟨varLines, codeLines, rfl, varShape, codeShape⟩ := List.map_eq_append_iff.mp shaped
  obtain ⟨blocks, varParts, declared, varPlaces⟩ := variables_again (locals_named sound).2 varShape
  obtain ⟨copies, codeParts, worded, codePlaces⟩ := code_again again sound.statements codeShape
  refine ⟨_, varParts.append codeParts, fun start name params noVars noStatements => ?_⟩
  have vars : (complete start (blocks.map (fun block => { vars := [block] }) ++
      copies.map fun copy => { statements := [copy] }) []).vars = blocks := by
    simp [complete, Block.extend, noVars, List.flatMap_map]
  have statements : (complete start (blocks.map (fun block => { vars := [block] }) ++
      copies.map fun copy => { statements := [copy] }) []).statements = copies := by
    simp [complete, Block.extend, noStatements, List.flatMap_map]
  constructor
  · refine ⟨name.symm, params.symm, ?_, ?_⟩
    · rw [Block.variables, Block.variables, vars]
      exact declared.symm
    · rw [statements]
      exact worded.symm
  · rw [Block.Placed, vars, statements]
    intro declaration declares copy states
    obtain ⟨one, inVars, declaredAt⟩ := varPlaces declaration declares
    obtain ⟨other, inCode, statedAt⟩ := codePlaces copy states
    rw [InOrder, List.flatten_append] at inOrder
    rw [declaredAt, statedAt]
    exact (List.pairwise_append.mp inOrder).2.2 one inVars other inCode

/-! ## Sections -/

/-- The rows of a main block are a section that says the same. The name of the main block is a fixed one, so it needs
no row. -/
theorem main_again (isMain : block.isMain = true) {lines : List Line} (inOrder : InOrder lines)
    (shaped : lines.map (List.map Token.shape) = (mainRows block.linked).map Row.shapes) :
    ∃ copy, Section lines (.main copy) ∧ block.Restated copy := by
  obtain ⟨first, inside, last, rfl, opens, closes, insideShape⟩ :=
    enclosed_again (by decide) (by decide) (by decide) (by decide) shaped
  obtain ⟨parts, body, restated⟩ := body_again again sound inOrder.tail.left insideShape
  obtain ⟨noParams, name⟩ := sound.main isMain
  refine ⟨_, .main opens body (.mk .nil closes), restated (emptyMain first.position) name.symm ?_ rfl rfl⟩
  rw [noParams]
  rfl

/-- The rows of a method are a section that says the same, under the same name and with the same parameters. -/
theorem method_again (notMain : block.isMain = false) {lines : List Line} (inOrder : InOrder lines)
    (shaped : lines.map (List.map Token.shape) = (methodRows block.linked).map Row.shapes) :
    ∃ copy, Section lines (.method copy) ∧ block.Restated copy := by
  obtain ⟨heading, inside, last, rfl, headingShape, closes, insideShape⟩ :=
    closed_again (by decide) (by decide) shaped
  obtain ⟨start, opens, name, params, noVars, noStatements⟩ :=
    heading_again (sound.named trivial notMain) (locals_named sound).1 headingShape
  obtain ⟨parts, body, restated⟩ := body_again again sound inOrder.tail.left insideShape
  exact ⟨_, .method opens body (.mk .nil closes), restated start name params noVars noStatements⟩

end Tokens

/-! ## Trees -/

/-- A printed number is a literal, as it is a word that does not start with a full stop. -/
theorem value_is_literal {token : Token} {value : Cell} (shaped : token.shape = (.word, .ofInt32 value)) :
    token.isLiteral = true := by
  obtain ⟨isWord, text⟩ := Prod.mk.inj shaped
  have undotted : (Text.ofInt32 value).head? ≠ some (Text.byte '.') := by
    intro dotted
    exact absurd ((value_bytes value).2 _ (List.mem_of_mem_head? dotted)) (by decide)
  simp [Token.isLiteral, Token.dotted, isWord, text, undotted]

/-- The rows of constants are lines that declare them. The value of a declaration is the text of the number, which
need not be the text that the source had. -/
theorem constant_lines_again {constants : Constants} (named : ∀ constant ∈ constants, isName constant.1 = true)
    {lines : List Line} (shaped : lines.map (List.map Token.shape) = (constants.map constantRow).map Row.shapes) :
    ∃ decls, List.Forall₂ ConstantLine lines decls ∧
      decls.map (fun decl => (decl.name, decl.value)) =
        constants.map fun constant => (constant.1, .ofInt32 constant.2) := by
  induction constants generalizing lines with
  | nil =>
    obtain rfl := List.map_eq_nil_iff.mp shaped
    exact ⟨[], .nil, rfl⟩
  | cons constant rest ih =>
    rw [List.forall_mem_cons] at named
    obtain ⟨line, others, rfl, lineShape, othersShape⟩ := List.map_eq_cons_iff.mp shaped
    obtain ⟨name, behind, rfl, nameShape, behindShape⟩ := List.map_eq_cons_iff.mp lineShape
    obtain ⟨value, rfl, valueShape⟩ := List.map_eq_singleton_iff.mp behindShape
    obtain ⟨decls, declares, same⟩ := ih named.2 othersShape
    have nameText : name.text = constant.1 := (Prod.mk.inj nameShape).2
    have valueText : value.text = .ofInt32 constant.2 := (Prod.mk.inj valueShape).2
    have line := ConstantLine.mk (nameText ▸ named.1) (value_is_literal valueShape)
    exact ⟨_ :: decls, .cons line declares, by rw [List.map_cons, List.map_cons, same, nameText, valueText]⟩

/-- The rows of constants are read as their tokens, if constants have names. Their values are printed numbers, which
are words. -/
theorem constants_spelled {constants : Constants} (named : ∀ constant ∈ constants, isName constant.1 = true) :
    ∀ row ∈ constantRows constants, row.Spelled := by
  rw [constantRows]
  split
  · simp
  · apply enclosed_spelled (by decide) (by decide)
    rw [List.forall_mem_map]
    intro constant member
    exact constant_spelled (named constant member)

/-- The rows of constants are one section, or nothing if there are none. There is at most one, as the grammar
demands. -/
theorem constants_again {constants : Constants} (named : ∀ constant ∈ constants, isName constant.1 = true)
    {lines : List Line} (shaped : lines.map (List.map Token.shape) = (constantRows constants).map Row.shapes) :
    ∃ pools : List (List ConstantDecl), Sequence Section lines (pools.map Member.constants) ∧ pools.length ≤ 1 ∧
      pools.flatten.map (fun decl => (decl.name, decl.value)) =
        constants.map fun constant => (constant.1, .ofInt32 constant.2) := by
  rw [constantRows] at shaped
  split at shaped
  · next empty =>
    obtain rfl := List.map_eq_nil_iff.mp shaped
    rw [List.isEmpty_iff.mp empty]
    exact ⟨[], .nil, Nat.zero_le 1, rfl⟩
  · obtain ⟨first, inside, last, rfl, opens, closes, insideShape⟩ :=
      enclosed_again (by decide) (by decide) (by decide) (by decide) shaped
    obtain ⟨decls, declares, same⟩ := constant_lines_again named insideShape
    refine ⟨[decls], ?_, Nat.le_refl 1, ?_⟩
    · have sequence := Sequence.cons (Section.constants opens declares closes) .nil
      rwa [List.append_nil] at sequence
    · rw [List.flatten_singleton, same]

/-- The tree of sections of constants, a main block and methods has all of these and nothing else. -/
theorem assemble_listed (file : Text) (pools : List (List ConstantDecl)) (main : Block) (methods : List Block) :
    assemble file (pools.map Member.constants ++ (.main main :: methods.map Member.method)) =
      { file, constants := pools.flatten, main := some main, methods } := by
  have noMain : (pools.map Member.constants).findSome? Member.main? = none := by
    rw [List.findSome?_eq_none_iff, List.forall_mem_map]
    exact fun _ _ => rfl
  simp [assemble, noMain, List.findSome?_cons, List.filterMap_cons, Function.comp_def, Member.decls, Member.main?,
    Member.method?, List.flatMap_map]

/-- Among sections of constants, a main block and methods there is one main block. -/
theorem listed_counts (pools : List (List ConstantDecl)) (main : Block) (methods : List Block) :
    (pools.map Member.constants ++ (.main main :: methods.map Member.method)).countP Member.isConstants =
      pools.length ∧
    (pools.map Member.constants ++ (.main main :: methods.map Member.method)).countP Member.isMain = 1 := by
  constructor
  · simp [List.countP_map, Function.comp_def, Member.isConstants]
  · simp [List.countP_cons, List.countP_map, Function.comp_def, Member.isMain]

section Tokens

variable {given : Token → Prop}
  (again : ∀ token, given token → token.kind = .word ∨ token.kind = .quoted → Written token.kind token.text)

include again

/-- The rows of methods are sections that say the same, in the same order. The induction is on the methods. -/
theorem methods_again {methods : List Block}
    (sound : ∀ method ∈ methods, method.isMain = false ∧ BlockFrom given True method) {lines : List Line}
    (inOrder : InOrder lines)
    (shaped : lines.map (List.map Token.shape) = ((methods.map Block.linked).flatMap methodRows).map Row.shapes) :
    ∃ copies, Sequence Section lines (copies.map Member.method) ∧ List.Forall₂ Block.Restated methods copies := by
  induction methods generalizing lines with
  | nil =>
    obtain rfl := List.map_eq_nil_iff.mp shaped
    exact ⟨[], .nil, .nil⟩
  | cons method rest ih =>
    rw [List.forall_mem_cons] at sound
    rw [List.map_cons, List.flatMap_cons, List.map_append] at shaped
    obtain ⟨first, others, rfl, firstShape, othersShape⟩ := List.map_eq_append_iff.mp shaped
    obtain ⟨copy, isSection, restated⟩ := method_again again sound.1.2 sound.1.1 inOrder.left firstShape
    obtain ⟨copies, sections, each⟩ := ih sound.2 inOrder.right othersShape
    exact ⟨copy :: copies, .cons isSection sections, .cons restated each⟩

variable {tree : Tree} (grammatical : Grammatical given tree) {constants : Constants}
  (named : ∀ constant ∈ constants, isName constant.1 = true)

include grammatical named

/-- The rows of constants and of the blocks of a tree are read as their tokens. A tree without syntax errors has a
main block, which comes first. -/
theorem tree_spelled : ∀ row ∈ constantRows constants ++ blueprintRows (tree.blocks.map Block.linked),
    row.Spelled := by
  obtain ⟨main, known, blocks⟩ := grammatical.blocks_eq
  have soundMain := (grammatical.contents.main main known).2
  rw [blocks, List.map_cons, blueprintRows, List.forall_mem_append, List.forall_mem_append]
  refine ⟨?_, ?_, ?_⟩
  · exact constants_spelled named
  · exact enclosed_spelled (by decide) (by decide) (body_spelled again soundMain)
  · rw [List.forall_mem_flatMap, List.forall_mem_map]
    intro method member
    obtain ⟨notMain, sound⟩ := grammatical.contents.methods method member
    rw [methodRows, List.forall_mem_cons, List.forall_mem_append, List.forall_mem_singleton]
    refine ⟨?_, body_spelled again sound, lone_directive_spelled (by decide)⟩
    exact heading_spelled (sound.named trivial notMain) (locals_named sound).1

/-- The rows of constants and of the blocks of a tree are those of a tree with these constants whose blocks say the
same. Blocks are compared one by one, so that their order is the same as well. -/
theorem tree_again (file : Text) {lines : List Line} (inOrder : InOrder lines)
    (shaped : lines.map (List.map Token.shape) =
      (constantRows constants ++ blueprintRows (tree.blocks.map Block.linked)).map Row.shapes) :
    ∃ copy, Derives file lines copy ∧
      copy.constants.map (fun decl => (decl.name, decl.value)) =
        constants.map (fun constant => (constant.1, .ofInt32 constant.2)) ∧
      List.Forall₂ Block.Restated tree.blocks copy.blocks ∧ List.Forall₂ Block.Restated tree.methods copy.methods := by
  obtain ⟨main, known, blocks⟩ := grammatical.blocks_eq
  obtain ⟨isMain, soundMain⟩ := grammatical.contents.main main known
  rw [blocks, List.map_cons, blueprintRows, List.map_append, List.map_append] at shaped
  obtain ⟨constantLines, blockLines, rfl, constantShape, blockShape⟩ := List.map_eq_append_iff.mp shaped
  obtain ⟨mainLines, methodLines, rfl, mainShape, methodShape⟩ := List.map_eq_append_iff.mp blockShape
  obtain ⟨pools, poolSections, few, declared⟩ := constants_again named constantShape
  obtain ⟨mainCopy, mainSection, restated⟩ := main_again again soundMain isMain inOrder.right.left mainShape
  obtain ⟨copies, methodSections, each⟩ :=
    methods_again again grammatical.contents.methods inOrder.right.right methodShape
  have sections := poolSections.append (.cons mainSection methodSections)
  refine ⟨_, ⟨_, sections, ?_, ?_, rfl⟩, ?_, ?_, ?_⟩
  · rwa [(listed_counts pools mainCopy copies).1]
  · exact (listed_counts pools mainCopy copies).2
  · rw [assemble_listed]
    exact declared
  · rw [assemble_listed, blocks]
    exact .cons restated each
  · rw [assemble_listed]
    exact each

end Tokens

end IntegerMachine
