import IntegerMachine.Proofs.Folding
import IntegerMachine.Proofs.Grammar

/-!
# What a line does

A line that is read without errors takes the parser from one state to another. All that it can do is said by one
relation, whose cases are the lines of the grammar; what stands in them is what the grammar says, and nothing is left
of the loops in which the parser looks at tokens.

The parser wants names to be words in some places, and in others any token will do. The grammar wants words nowhere.
It makes no difference for tokens that are `Plain`, which those of a source are.
-/
namespace IntegerMachine

/-! ## Tokens -/

namespace Token

/-- A token that is a name is a word. -/
def Plain (token : Token) : Prop := isName token.text = true → token.kind = .word

/-- A plain token that is a name passes the stricter test of the parser, which asks for a word too. -/
theorem Plain.is_name_word {token : Token} (plain : token.Plain) (named : isName token.text = true) :
    token.isNameWord = true := by
  rw [isNameWord, named, plain named]
  rfl

/-- The stricter test includes the one of the grammar, whether or not a token is plain. -/
theorem name_of_word {token : Token} (word : token.isNameWord = true) : isName token.text = true :=
  (Bool.and_eq_true_iff.mp word).2

/-- Nothing is surplus exactly where there is nothing. -/
theorem surplus_nil_iff (tokens : List Token) : surplus tokens = [] ↔ tokens = [] := by
  cases tokens with
  | nil => simp [surplus]
  | cons token rest => simp [surplus]

/-- A token that starts with a full stop has it as its first character. The test looks at the first byte, and the full
stop is a character of one byte. -/
theorem dotted_characters {token : Token} (dotted : token.dotted = true) :
    ∃ rest, token.text.characters = '.' :: rest := by
  obtain ⟨kind, text, position⟩ := token
  cases text with
  | nil => cases dotted
  | cons first rest =>
    obtain rfl : first = Text.byte '.' := Option.some.inj (beq_iff_eq.mp dotted)
    refine ⟨Text.characters rest, ?_⟩
    change (Text.glyphs (Text.ofChar '.' ++ rest)).map Glyph.value = _
    rw [Text.glyphs_of_char_append]
    rfl

/-- A token that does not start with a full stop is no directive. -/
theorem directive_none {token : Token} (plain : token.dotted = false) : token.directive? = none := by
  rw [directive?, if_neg]
  rintro ⟨_, dotted⟩
  rw [plain] at dotted
  cases dotted

/-- A name is no directive, since it starts with a letter or an underscore. -/
theorem name_no_directive {token : Token} (named : isName token.text = true) : token.directive? = none := by
  apply directive_none
  cases dotted : token.dotted with
  | false => rfl
  | true =>
    obtain ⟨rest, characters⟩ := dotted_characters dotted
    rw [isName, characters] at named
    exact absurd (Bool.and_eq_true_iff.mp named).1 (by decide +kernel)

/-- A mnemonic is no directive. All mnemonics are known, and none of them starts with a full stop. -/
theorem mnemonic_no_directive {token : Token} {opcode : Opcode} (known : Opcode.ofMnemonic? token.text = some opcode) :
    token.directive? = none := by
  apply directive_none
  cases dotted : token.dotted with
  | false => rfl
  | true =>
    obtain ⟨rest, characters⟩ := dotted_characters dotted
    unfold Opcode.ofMnemonic? at known
    have same : opcode.name = token.text.fold := by simpa using List.find?_some known
    have starts : opcode.name.head? = some (Text.byte '.') := by
      rw [same, Text.fold, characters]
      rfl
    have none : ∀ opcode ∈ Opcode.instructions, opcode.name.head? ≠ some (Text.byte '.') := by decide
    exact absurd starts (none opcode (List.mem_of_find?_eq_some known))

end Token

namespace Source

open Grammar

/-! ## Headings -/

/-- Parameters, or those behind another one. -/
def Listed (first : Bool) (tokens : List Token) (params : List Ident) : Prop :=
  if first then Parameters tokens params else Sequence Further tokens params

/-- Parameters that are read without errors end with the parenthesis, and the parenthesis ends the line. -/
theorem params_sound (last : Token) (first : Bool) (tokens : List Token) (params : List Ident)
    (parsed : parseParams last first tokens = (params, [])) :
    ∃ listed right, tokens = listed ++ [right] ∧ right.kind = .mark ')' ∧ Listed first listed params := by
  -- Behind the first name `first` is false, so that the two kinds of lists go through the induction together.
  fun_induction parseParams last first tokens generalizing params with
  | case1 | case4 | case5 | case7 | case8 => cases parsed
  | case2 last first right rest closes =>
    obtain ⟨rfl, surplus⟩ := Prod.mk.inj parsed
    obtain rfl := (Token.surplus_nil_iff rest).mp surplus
    refine ⟨[], right, rfl, closes, ?_⟩
    cases first with
    | true => exact Parameters.none
    | false => exact Sequence.nil
  | case3 last name rest _ word others errors later ih =>
    obtain ⟨rfl, rfl⟩ := Prod.mk.inj parsed
    obtain ⟨listed, right, rfl, closes, further⟩ := ih others later
    exact ⟨name :: listed, right, rfl, closes, .some (Token.name_of_word word) further⟩
  | case6 last first comma _ notFirst isComma name rest word others errors later ih =>
    obtain ⟨rfl, rfl⟩ := Prod.mk.inj parsed
    obtain ⟨listed, right, rfl, closes, further⟩ := ih others later
    refine ⟨comma :: name :: listed, right, rfl, closes, ?_⟩
    rw [Bool.not_eq_true] at notFirst
    subst notFirst
    exact .cons (.mk isComma (Token.name_of_word word)) further

/-- Parameters behind another one are read up to the parenthesis. The induction is on the sequence, each piece of
which is a comma and a name. -/
theorem further_read {tokens : List Token} {params : List Ident} (further : Sequence Further tokens params)
    (plain : ∀ token ∈ tokens, token.Plain) {right : Token} (closes : right.kind = .mark ')') (last : Token) :
    parseParams last false (tokens ++ [right]) = (params, []) := by
  induction further generalizing last with
  | nil =>
    rw [List.nil_append, parseParams, if_pos closes]
    rfl
  | cons first others ih =>
    cases first with
    | mk isComma named =>
      rename_i comma name
      simp only [List.cons_append, List.nil_append, List.forall_mem_cons] at plain ⊢
      have word := plain.2.1.is_name_word named
      rw [parseParams, if_neg (by simp [isComma]), if_neg (by simp), if_pos isComma]
      simp only [word, if_true, ih plain.2.2 name]

/-- Parameters are read up to the parenthesis, also if there are none between the two parentheses. -/
theorem params_read {tokens : List Token} {params : List Ident} (listed : Parameters tokens params)
    (plain : ∀ token ∈ tokens, token.Plain) {right : Token} (closes : right.kind = .mark ')') (last : Token) :
    parseParams last true (tokens ++ [right]) = (params, []) := by
  cases listed with
  | none =>
    rw [List.nil_append, parseParams, if_pos closes]
    rfl
  | some named further =>
    rename_i name rest idents
    rw [List.forall_mem_cons] at plain
    have word := plain.1.is_name_word named
    have notRight : ¬ name.kind = .mark ')' := by simp [plain.1 named]
    rw [List.cons_append]
    unfold parseParams
    rw [if_neg notRight, if_pos rfl]
    simp only [word, if_true, further_read further plain.2 closes name]

/-- The line of a method that is read without errors is a heading. There are two forms, with and without a list of
parameters. -/
theorem method_sound {opening : Token} {rest : List Token} {block : Block} (opens : IsDirective ".method" opening)
    (parsed : parseMethod opening rest = (block, [])) : Heading (opening :: rest) block := by
  cases rest with
  | nil => cases parsed
  | cons name rest =>
    rw [parseMethod] at parsed
    split at parsed
    · cases parsed
    · rename_i named
      have isNamed : isName name.text = true := by simpa using named
      cases rest with
      | nil =>
        cases parsed
        exact .plain opens isNamed
      | cons left rest =>
        dsimp only at parsed
        split at parsed
        · rename_i isLeft
          obtain ⟨rfl, faultless⟩ := Prod.mk.inj parsed
          obtain ⟨tokens, right, rfl, isRight, listed⟩ := params_sound left true rest _ (Prod.ext rfl faultless)
          exact .withParams opens isNamed isLeft isRight listed
        · cases parsed

/-- A heading is read without errors, and gives the block that the grammar gives. -/
theorem method_read {opening : Token} {rest : List Token} {block : Block} (heading : Heading (opening :: rest) block)
    (plain : ∀ token ∈ rest, token.Plain) : parseMethod opening rest = (block, []) := by
  cases heading with
  | plain opens named => simp [parseMethod, named]
  | withParams opens named isLeft isRight listed =>
    rename_i name left right tokens params
    simp only [List.forall_mem_cons, List.forall_mem_append] at plain
    simp [parseMethod, named, isLeft, params_read listed plain.2.2.1 isRight left]

/-! ## Lines of a body -/

/-- The directive that closes a block. -/
def closingDirective (block : Block) : Text := if block.isMain then ".end-main" else ".end-method"

/-- What a line of a body does. -/
inductive BodyStep (progress : Progress) (block : Block) : Line → Progress → Prop where
  | statements {line : Line} {statements : List Statement} (reads : StatementLine line statements) :
      BodyStep progress block line { progress with part := .body (block.extend [] statements) }
  | openVariables {line : Line} {labels : List Statement} {position : Position}
      (opens : DirectiveLine ".var" line labels position) :
      BodyStep progress block line { progress with part := .variables (block.extend [] labels) { position } }
  | close {line : Line} {labels : List Statement} {position : Position}
      (closes : DirectiveLine (closingDirective block) line labels position) :
      BodyStep progress block line
        { progress with part := .top, tree := closeBlock progress.tree (block.extend [] labels) }

/-- A statement is added at the end of those of the block, and nothing else of the block changes. -/
theorem add_statement (block : Block) (statement : Statement) :
    addStatement block statement = block.extend [] [statement] := by
  simp [addStatement, Block.extend]

/-- A label in front of a line goes to the statements of the block first. The line behind it then does to the larger
block what it would have done to the block. -/
theorem BodyStep.labelled {progress next : Progress} {block : Block} {label rest : Line} {statement : Statement}
    (isLabel : Label label statement) (step : BodyStep progress (addStatement block statement) rest next) :
    BodyStep progress block (label ++ rest) next := by
  rw [add_statement] at step
  cases step with
  | statements reads =>
    rw [Block.extend_extend]
    apply BodyStep.statements
    cases reads with
    | labels labelled => exact .labels (.cons isLabel labelled)
    | command labelled instructs =>
      rw [← List.append_assoc]
      exact .command (.cons isLabel labelled) instructs
  | openVariables opens =>
    rw [Block.extend_extend]
    cases opens with
    | mk labelled isDirective =>
      rw [← List.append_assoc]
      exact .openVariables (.mk (.cons isLabel labelled) isDirective)
  | close closes =>
    rw [Block.extend_extend]
    cases closes with
    | mk labelled isDirective =>
      rw [← List.append_assoc]
      exact .close (.mk (.cons isLabel labelled) isDirective)

/-- An operand that should be a literal is accepted if it is one. Whether the literal has a value is left to
analysis. -/
theorem literal_accepted_iff {opcode : Opcode} {index : Nat} (token : Token)
    (kind : operandKind opcode index = .literal) :
    checkOperand opcode index token = none ↔ token.isLiteral = true := by
  rw [checkOperand, if_pos kind]
  cases token.isLiteral with
  | true => simp
  | false => simp

/-- Any other operand is accepted if it is a name. Here it matters that the token is plain. -/
theorem name_accepted_iff {opcode : Opcode} {index : Nat} {token : Token} (plain : token.Plain)
    (kind : operandKind opcode index ≠ .literal) :
    checkOperand opcode index token = none ↔ isName token.text = true := by
  rw [checkOperand, if_neg kind]
  cases word : token.isNameWord with
  | true => simp [Token.name_of_word word]
  | false =>
    have unnamed : isName token.text ≠ true := fun named => by simp [plain.is_name_word named] at word
    simp [unnamed]

/-- Operands are accepted one by one, each at its index. The first error would end the check. -/
theorem operands_accepted_cons (opcode : Opcode) (index : Nat) (token : Token) (rest : List Token) :
    checkOperands opcode index (token :: rest) = none ↔
      checkOperand opcode index token = none ∧ checkOperands opcode (index + 1) rest = none := by
  rw [checkOperands]
  cases checkOperand opcode index token with
  | none => simp
  | some error => simp

/-- Operands are accepted exactly if there are as many as the opcode wants and each one passes its test. -/
theorem operands_accepted_iff (opcode : Opcode) (operands : List Token) (plain : ∀ token ∈ operands, token.Plain) :
    operands.length = opcode.operands.count ∧ checkOperands opcode 0 operands = none ↔
      List.Forall₂ (fun test operand => test operand = true) (operandTests opcode.operands) operands := by
  -- No opcode wants more than two operands. Where the number is wrong both sides are false.
  rcases operands with _ | ⟨first, _ | ⟨second, _ | ⟨third, rest⟩⟩⟩
  · cases opcode.operands <;> simp [operandTests, Operands.count, checkOperands]
  · rw [List.forall_mem_singleton] at plain
    rw [operands_accepted_cons]
    cases kind : opcode.operands with
    | nothing => simp [operandTests, Operands.count]
    | localAndLiteral => simp [operandTests, Operands.count]
    | literal =>
      rw [literal_accepted_iff first (by simp [operandKind, kind])]
      simp [operandTests, Operands.count, checkOperands]
    | localVariable | constant | method | target =>
      rw [name_accepted_iff plain (by simp [operandKind, kind])]
      simp [operandTests, Operands.count, checkOperands]
  · rw [List.forall_mem_cons, List.forall_mem_singleton] at plain
    rw [operands_accepted_cons, operands_accepted_cons]
    cases kind : opcode.operands with
    | localAndLiteral =>
      rw [name_accepted_iff plain.1 (by simp [operandKind, kind]),
        literal_accepted_iff second (by simp [operandKind, kind])]
      simp [operandTests, Operands.count, checkOperands]
    | nothing | literal | localVariable | constant | method | target => simp [operandTests, Operands.count]
  · cases opcode.operands <;> simp [operandTests, Operands.count]

/-- An instruction is read exactly if it is one, and gives the same statement in both readings. -/
theorem instruction_iff {first : Token} {rest : List Token} (plain : ∀ token ∈ rest, token.Plain)
    (statement : Statement) : parseInstruction first rest = .ok statement ↔ Command (first :: rest) statement := by
  constructor
  · intro parsed
    unfold parseInstruction at parsed
    split at parsed
    · cases parsed
    · rename_i isWord
      split at parsed
      · cases parsed
      · rename_i opcode known
        split at parsed
        · cases parsed
        · rename_i count
          split at parsed
          · cases parsed
          · rename_i accepted
            cases parsed
            exact .mk (not_not.mp isWord) known
              ((operands_accepted_iff opcode rest plain).mp ⟨not_not.mp count, accepted⟩)
  · intro command
    cases command with
    | mk isWord known fit =>
      obtain ⟨count, accepted⟩ := (operands_accepted_iff _ rest plain).mpr fit
      rw [parseInstruction, if_neg (not_not.mpr isWord), known]
      dsimp only
      rw [if_neg (not_not.mpr count), accepted]

/-- An operand of an instruction is no colon, so that the mnemonic is not taken for a label. -/
theorem operand_no_colon {kinds : Operands} {operand : Token} {rest : List Token} (plain : operand.Plain)
    (fit : List.Forall₂ (fun test token => test token = true) (operandTests kinds) (operand :: rest)) :
    operand.kind ≠ .mark ':' := by
  have passes : operand.isLiteral = true ∨ isName operand.text = true := by
    cases kinds <;> simp [operandTests] at fit <;> simp [fit]
  intro isColon
  rcases passes with literal | named
  · simp [Token.isLiteral, isColon] at literal
  · simp [plain named] at isColon

/-- The directive that closes a block is not the one that opens declarations, so the order in which the parser
compares does not matter. -/
theorem closing_not_var (block : Block) : closingDirective block ≠ (".var" : Text) := by
  unfold closingDirective
  split
  · decide
  · decide

/-- A directive in a body is alone, and opens declarations or closes the block. Any other one would have been
complained about. -/
theorem directive_sound {progress next : Progress} {block : Block} {first : Token} {directive : Text}
    {rest : List Token} (isDirective : first.directive? = some directive)
    (parsed : parseDirective progress block directive first rest = (next, [])) :
    rest = [] ∧ BodyStep progress block [first] next := by
  change (if directive = (".var" : Text) then _ else if directive = closingDirective block then _ else _) = _ at parsed
  split at parsed
  · rename_i isVar
    obtain ⟨rfl, surplus⟩ := Prod.mk.inj parsed
    subst isVar
    have opens : BodyStep progress block [first] _ := .openVariables (.mk .nil isDirective)
    rw [Block.extend_nil] at opens
    exact ⟨(Token.surplus_nil_iff rest).mp surplus, opens⟩
  · split at parsed
    · rename_i isClosing
      obtain ⟨rfl, surplus⟩ := Prod.mk.inj parsed
      subst isClosing
      have closes : BodyStep progress block [first] _ := .close (.mk .nil isDirective)
      rw [Block.extend_nil] at closes
      exact ⟨(Token.surplus_nil_iff rest).mp surplus, closes⟩
    · cases parsed

/-- A line of a body that is read without errors is one of the grammar. The induction is on the labels in front. -/
theorem statement_sound (progress : Progress) (block : Block) (tokens : List Token) (next : Progress)
    (plain : ∀ token ∈ tokens, token.Plain) (parsed : parseStatement progress block tokens = (next, [])) :
    BodyStep progress block tokens next := by
  fun_induction parseStatement progress block tokens with
  | case1 block =>
    cases parsed
    have unchanged : BodyStep progress block [] _ := .statements (.labels .nil)
    rwa [Block.extend_nil] at unchanged
  | case2 block first directive isDirective =>
    exact (directive_sound isDirective parsed).2
  | case3 block first noDirective statement instructs =>
    cases parsed
    rw [add_statement]
    exact .statements (.command .nil ((instruction_iff (by simp) statement).mp instructs))
  | case4 | case7 | case9 => cases parsed
  | case5 block first second rest directive isDirective =>
    obtain ⟨impossible, _⟩ := directive_sound isDirective parsed
    cases impossible
  | case6 block first second rest _ isColon named ih =>
    rw [List.forall_mem_cons, List.forall_mem_cons] at plain
    exact (ih plain.2.2 parsed).labelled (.mk named isColon)
  | case8 block first second rest _ _ statement instructs =>
    cases parsed
    rw [add_statement]
    exact .statements (.command .nil ((instruction_iff (List.forall_mem_cons.mp plain).2 statement).mp instructs))

/-- Labels are read one after the other, whatever follows them, and even if nothing does. -/
theorem labels_read {prefixes : List Token} {labels : List Statement} (labelled : Sequence Label prefixes labels)
    (progress : Progress) (block : Block) (tokens : List Token) :
    parseStatement progress block (prefixes ++ tokens) = parseStatement progress (block.extend [] labels) tokens := by
  induction labelled generalizing block with
  | nil => rw [Block.extend_nil, List.nil_append]
  | cons first others ih =>
    cases first with
    | mk named isColon =>
      rename_i rest labels name colon
      have later := ih (addStatement block (.label name.position name.text))
      rw [add_statement, Block.extend_extend] at later
      simp only [List.cons_append, List.nil_append, parseStatement, Token.name_no_directive named, isColon, named,
        if_true, add_statement, later]

/-- An instruction alone is read as one statement at the end of the block. -/
theorem command_read {tokens : List Token} {statement : Statement} (command : Command tokens statement)
    (plain : ∀ token ∈ tokens, token.Plain) (progress : Progress) (block : Block) :
    parseStatement progress block tokens = ({ progress with part := .body (block.extend [] [statement]) }, []) := by
  have instructs := command
  cases command with
  | mk isWord known fit =>
    rename_i mnemonic opcode operands
    rw [List.forall_mem_cons] at plain
    rw [← instruction_iff plain.2] at instructs
    have noDirective := Token.mnemonic_no_directive known
    cases operands with
    | nil => simp only [parseStatement, noDirective, instructs, add_statement]
    | cons second rest =>
      have noColon := operand_no_colon (plain.2 second List.mem_cons_self) fit
      simp only [parseStatement, noDirective, instructs, noColon, if_false, add_statement]

/-- A line of a body that the grammar has is read without errors. It is taken apart into its labels and the rest. -/
theorem statement_read {progress next : Progress} {block : Block} {tokens : List Token}
    (step : BodyStep progress block tokens next) (plain : ∀ token ∈ tokens, token.Plain) :
    parseStatement progress block tokens = (next, []) := by
  cases step with
  | statements reads =>
    cases reads with
    | labels labelled =>
      have read := labels_read labelled progress block []
      rw [List.append_nil] at read
      rw [read, parseStatement]
    | command labelled instructs =>
      rw [labels_read labelled, command_read instructs (List.forall_mem_append.mp plain).2, Block.extend_extend,
        List.nil_append]
  | openVariables opens =>
    cases opens with
    | mk labelled isDirective =>
      rw [labels_read labelled, parseStatement, isDirective]
      rfl
  | close closes =>
    cases closes with
    | mk labelled isDirective =>
      rw [labels_read labelled, parseStatement, isDirective]
      dsimp only
      rw [parseDirective, if_neg (closing_not_var block)]
      exact if_pos rfl

/-! ## Declarations -/

/-- The declarations with the names of a line. -/
def declaring (declared : VarBlock) (line : Line) : VarBlock :=
  { declared with names := declared.names ++ names line }

/-- A name in a line of declarations is declared before those behind it. -/
theorem declaring_name {token : Token} (named : isName token.text = true) (declared : VarBlock) (rest : Line) :
    declaring declared (token :: rest) = declaring { declared with names := declared.names ++ [token.ident] } rest := by
  simp [declaring, names, named]

/-- A comma declares nothing. -/
theorem declaring_comma {token : Token} (plain : token.Plain) (isComma : token.kind = .mark ',') (declared : VarBlock)
    (rest : Line) : declaring declared (token :: rest) = declaring declared rest := by
  have unnamed : isName token.text ≠ true := fun named => by simp [plain named] at isComma
  simp [declaring, names, unnamed]

/-- Declarations that are read without errors are names and commas, if the line is not the closing directive alone. In
a longer line the closing directive brings about a complaint, which is about the second token of the line. -/
theorem vars_sound (progress : Progress) (block : Block) (line : TokenLine) (declared : VarBlock) (tokens : List Token)
    (next : Progress) (plain : ∀ token ∈ tokens, token.Plain)
    (more : ∀ token ∈ tokens, IsDirective ".end-var" token → line.rest ≠ [])
    (parsed : parseVars progress block line declared tokens = (next, [])) :
    Declares tokens ∧ next = { progress with part := .variables block (declaring declared tokens) } := by
  fun_induction parseVars progress block line declared tokens with
  | case1 declared =>
    cases parsed
    simp [Declares, declaring, names]
  | case2 declared token rest isDirective =>
    have alone := (Token.surplus_nil_iff line.rest).mp (Prod.mk.inj parsed).2
    exact absurd alone (more token List.mem_cons_self isDirective)
  | case3 | case6 => cases parsed
  | case4 declared token rest _ isComma ih =>
    rw [List.forall_mem_cons] at plain more
    obtain ⟨declares, rfl⟩ := ih plain.2 more.2 parsed
    rw [declaring_comma plain.1 isComma]
    exact ⟨List.forall_mem_cons.mpr ⟨.inr isComma, declares⟩, rfl⟩
  | case5 declared token rest _ _ word ih =>
    rw [List.forall_mem_cons] at plain more
    obtain ⟨declares, rfl⟩ := ih plain.2 more.2 parsed
    have named := Token.name_of_word word
    rw [declaring_name named]
    exact ⟨List.forall_mem_cons.mpr ⟨.inl named, declares⟩, rfl⟩

/-- A line of names and commas is read, and its names are declared in their order. -/
theorem vars_read (progress : Progress) (block : Block) (line : TokenLine) (declared : VarBlock) {tokens : List Token}
    (declares : Declares tokens) (plain : ∀ token ∈ tokens, token.Plain) :
    parseVars progress block line declared tokens =
      ({ progress with part := .variables block (declaring declared tokens) }, []) := by
  induction tokens generalizing declared with
  | nil => simp [parseVars, declaring, names]
  | cons token rest ih =>
    rw [Declares, List.forall_mem_cons] at declares
    rw [List.forall_mem_cons] at plain
    rcases declares.1 with named | isComma
    · have word := plain.1.is_name_word named
      have noComma : token.kind ≠ .mark ',' := by simp [plain.1 named]
      simp only [parseVars, Token.name_no_directive named, noComma, if_false, word, if_true, declaring_name named,
        ih _ declares.2 plain.2]
    · have noDirective : token.directive? = none := by simp [Token.directive?, isComma]
      simp only [parseVars, noDirective, isComma, if_true, declaring_comma plain.1 isComma, ih _ declares.2 plain.2]

/-! ## All lines -/

/-- What a line does that is read without errors. -/
inductive Step (progress : Progress) : Line → Progress → Prop where
  | openConstants {opening : Token} (outside : progress.part = .top) (opens : IsDirective ".constant" opening)
      (isFirst : progress.hasConstants = false) :
      Step progress [opening] { progress with part := .constants, hasConstants := true }
  | openMain {opening : Token} (outside : progress.part = .top) (opens : IsDirective ".main" opening)
      (isFirst : progress.tree.main = none) :
      Step progress [opening] { progress with part := .body (emptyMain opening.position) }
  | openMethod {line : Line} {block : Block} (outside : progress.part = .top) (opens : Heading line block) :
      Step progress line { progress with part := .body block }
  | constant {line : Line} {constant : ConstantDecl} (inside : progress.part = .constants)
      (reads : ConstantLine line constant) :
      Step progress line
        { progress with tree := { progress.tree with constants := progress.tree.constants ++ [constant] } }
  | closeConstants {closing : Token} (inside : progress.part = .constants)
      (closes : IsDirective ".end-constant" closing) : Step progress [closing] { progress with part := .top }
  | body {block : Block} {line : Line} {next : Progress} (inside : progress.part = .body block)
      (reads : BodyStep progress block line next) : Step progress line next
  | declare {block : Block} {declared : VarBlock} {line : Line} (inside : progress.part = .variables block declared)
      (declares : Declares line) :
      Step progress line { progress with part := .variables block (declaring declared line) }
  | closeVariables {block : Block} {declared : VarBlock} {closing : Token}
      (inside : progress.part = .variables block declared) (closes : IsDirective ".end-var" closing) :
      Step progress [closing] { progress with part := .body (block.extend [declared] []) }

/-- A line between blocks opens a section. That there are no errors means that no constants and no main block were
there before, if it opens such. -/
theorem top_sound {progress next : Progress} {first : Token} {rest : List Token} (outside : progress.part = .top)
    (parsed : parseTop progress first rest = (next, [])) : Step progress (first :: rest) next := by
  unfold parseTop at parsed
  cases isDirective : first.directive? with
  | none =>
    rw [isDirective] at parsed
    cases parsed
  | some directive =>
    rw [isDirective] at parsed
    dsimp only at parsed
    split at parsed
    · rename_i same
      subst same
      obtain ⟨rfl, errors⟩ := Prod.mk.inj parsed
      obtain ⟨duplicate, surplus⟩ := List.append_eq_nil_iff.mp errors
      obtain rfl := (Token.surplus_nil_iff rest).mp surplus
      exact .openConstants outside isDirective (by simpa using duplicate)
    · split at parsed
      · rename_i same
        subst same
        obtain ⟨rfl, errors⟩ := Prod.mk.inj parsed
        obtain ⟨duplicate, surplus⟩ := List.append_eq_nil_iff.mp errors
        obtain rfl := (Token.surplus_nil_iff rest).mp surplus
        refine .openMain outside isDirective ?_
        cases known : progress.tree.main with
        | none => rfl
        | some main => simp [known] at duplicate
      · split at parsed
        · rename_i same
          subst same
          obtain ⟨rfl, errors⟩ := Prod.mk.inj parsed
          exact .openMethod outside (method_sound isDirective (Prod.ext rfl errors))
        · cases parsed

/-- A line among constants is a constant, or closes the section. It has two tokens in the first case and one in the
second. -/
theorem constant_sound {progress next : Progress} {first : Token} {rest : List Token}
    (inside : progress.part = .constants) (parsed : parseConstant progress first rest = (next, [])) : Step progress (first :: rest) next := by
  unfold parseConstant at parsed
  cases isDirective : first.directive? with
  | some directive =>
    rw [isDirective] at parsed
    dsimp only at parsed
    split at parsed
    · rename_i same
      subst same
      obtain ⟨rfl, surplus⟩ := Prod.mk.inj parsed
      obtain rfl := (Token.surplus_nil_iff rest).mp surplus
      exact .closeConstants inside isDirective
    · cases parsed
  | none =>
    rw [isDirective] at parsed
    dsimp only at parsed
    split at parsed
    · cases parsed
    · rename_i named
      rcases rest with _ | ⟨value, rest⟩
      · cases parsed
      · dsimp only at parsed
        split at parsed
        · cases parsed
        · rename_i literal
          cases rest with
          | nil =>
            cases parsed
            exact .constant inside (.mk (by simpa using named) (by simpa using literal))
          | cons surplus others => cases parsed

/-- A line of declarations adds to them or closes them. Only a line with nothing but the directive can close them
without an error. -/
theorem variables_sound {progress next : Progress} {block : Block} {declared : VarBlock} {line : TokenLine}
    (plain : ∀ token ∈ line.tokens, token.Plain) (inside : progress.part = .variables block declared)
    (parsed : parseVars progress block line declared line.tokens = (next, [])) : Step progress line.tokens next := by
  by_cases closes : IsDirective ".end-var" line.first ∧ line.rest = []
  · obtain ⟨complaints, first, rest⟩ := line
    obtain ⟨isDirective, rfl⟩ := closes
    have closed : block.extend [declared] [] = { block with vars := block.vars ++ [declared] } := by
      simp [Block.extend]
    rw [TokenLine.tokens, parseVars, show first.directive? = _ from isDirective] at parsed
    cases parsed
    rw [← closed]
    exact .closeVariables inside isDirective
  · have more : ∀ token ∈ line.tokens, IsDirective ".end-var" token → line.rest ≠ [] := by
      intro token member isDirective alone
      rw [TokenLine.tokens, alone, List.mem_singleton] at member
      exact closes ⟨member ▸ isDirective, alone⟩
    obtain ⟨declares, rfl⟩ := vars_sound progress block line declared line.tokens next plain more parsed
    exact .declare inside declares

/-- A line that is read without errors does one of the things that lines do. Which of them are possible depends on
what is being read. -/
theorem line_sound {progress next : Progress} {line : TokenLine} (plain : ∀ token ∈ line.tokens, token.Plain)
    (parsed : parseLine progress line = (next, [])) : Step progress line.tokens next := by
  unfold parseLine at parsed
  cases part : progress.part with
  | top =>
    rw [part] at parsed
    exact top_sound part parsed
  | constants =>
    rw [part] at parsed
    exact constant_sound part parsed
  | body block =>
    rw [part] at parsed
    exact .body part (statement_sound progress block line.tokens next plain parsed)
  | «variables» block declared =>
    rw [part] at parsed
    exact variables_sound plain part parsed

/-- A line that does one of the things that lines do is read without errors, and takes the parser to the same
state. -/
theorem line_read {progress next : Progress} {line : TokenLine} (step : Step progress line.tokens next)
    (plain : ∀ token ∈ line.tokens, token.Plain) : parseLine progress line = (next, []) := by
  obtain ⟨complaints, first, rest⟩ := line
  change Step progress (first :: rest) next at step
  unfold parseLine
  cases step with
  | openConstants outside opens isFirst =>
    rw [outside]
    dsimp only
    rw [parseTop, opens]
    simp [isFirst, Token.surplus]
  | openMain outside opens isFirst =>
    rw [outside]
    dsimp only
    rw [parseTop, opens]
    dsimp only
    rw [if_neg (by decide), if_pos rfl, isFirst]
    rfl
  | openMethod outside opens =>
    have isMethod : first.directive? = some (".method" : Text) := by
      cases opens with
      | plain opens => exact opens
      | withParams opens => exact opens
    rw [outside]
    dsimp only
    rw [parseTop, isMethod]
    dsimp only
    rw [if_neg (by decide), if_neg (by decide), if_pos rfl, method_read opens (List.forall_mem_cons.mp plain).2]
  | constant inside reads =>
    cases reads with
    | mk named isLiteral =>
      rw [inside]
      simp [parseConstant, Token.name_no_directive named, named, isLiteral, inside]
  | closeConstants inside closes =>
    rw [inside]
    simp [parseConstant, show first.directive? = _ from closes, Token.surplus]
  | body inside reads =>
    rw [inside]
    exact statement_read reads plain
  | declare inside declares =>
    rw [inside]
    exact vars_read progress _ _ _ declares plain
  | closeVariables inside closes =>
    rw [inside]
    simp [TokenLine.tokens, parseVars, show first.directive? = _ from closes, Token.surplus, Block.extend]

end Source

end IntegerMachine
