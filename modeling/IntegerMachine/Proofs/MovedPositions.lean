import IntegerMachine.Proofs.Grammar

/-!
# Moved positions

Nothing in the grammar looks at positions: they are only handed on to the tree. When all tokens of a source are moved
to other places, the grammar gives the same tree with its places moved likewise.
-/
namespace IntegerMachine

variable (move : Position → Position)

/-! ## Tokens and trees -/

/-- A token at another place. -/
def Token.moved (token : Token) : Token := { token with position := move token.position }

/-- A name or a literal at another place. -/
def Ident.moved (ident : Ident) : Ident := { ident with position := move ident.position }

/-- A constant at another place. -/
def ConstantDecl.moved (constant : ConstantDecl) : ConstantDecl := { constant with position := move constant.position }

/-- Declarations at other places. -/
def VarBlock.moved (declared : VarBlock) : VarBlock :=
  { position := move declared.position, names := declared.names.map (Ident.moved move) }

/-- A statement at another place. -/
def Statement.moved : Statement → Statement
  | .label position name => .label (move position) name
  | .instruction position opcode operands => .instruction (move position) opcode (operands.map (Ident.moved move))

/-- A block with its contents at other places. -/
def Block.moved (block : Block) : Block :=
  { block with
    position := move block.position
    params := block.params.map (Ident.moved move)
    vars := block.vars.map (VarBlock.moved move)
    statements := block.statements.map (Statement.moved move) }

/-- A tree with its contents at other places. -/
def Tree.moved (tree : Tree) : Tree :=
  { tree with
    constants := tree.constants.map (ConstantDecl.moved move)
    main := tree.main.map (Block.moved move)
    methods := tree.methods.map (Block.moved move) }

namespace Grammar

/-! ## Lines -/

/-- A line whose tokens are at other places. -/
abbrev Line.moved (line : Line) : Line := line.map (Token.moved move)

/-- A sequence of pieces is carried over piece by piece, if each piece is. This is the induction that all sequences of
the grammar share: labels of a line, parameters, parts of a body and sections. -/
theorem Sequence.map {Symbol Value Other Result : Type} {One : List Symbol → Value → Prop}
    {Two : List Other → Result → Prop} (onSymbol : Symbol → Other) (onValue : Value → Result)
    (carry : ∀ {piece : List Symbol} {value : Value}, One piece value → Two (piece.map onSymbol) (onValue value))
    {symbols : List Symbol} {values : List Value} (sequence : Sequence One symbols values) :
    Sequence Two (symbols.map onSymbol) (values.map onValue) := by
  induction sequence with
  | nil => exact .nil
  | cons first _ ih =>
    rw [List.map_append]
    exact .cons (carry first) ih

/-- A label is a name and a colon, wherever they stand. -/
theorem Label.moved {tokens : List Token} {statement : Statement} (label : Label tokens statement) :
    Label (Line.moved move tokens) (statement.moved move) := by
  cases label with
  | mk named isColon => exact .mk named isColon

/-- Whether an operand is the right one does not depend on its place. The tests look at the kind and at the text of a
token. -/
theorem operand_test_moved (kinds : Operands) :
    ∀ test ∈ operandTests kinds, ∀ token, test (Token.moved move token) = test token := by
  intro test listed token
  cases kinds with
  | nothing => cases listed
  | localAndLiteral =>
    rcases List.mem_pair.mp listed with rfl | rfl
    · rfl
    · rfl
  | literal | localVariable | constant | method | target =>
    obtain rfl := List.mem_singleton.mp listed
    rfl

/-- Operands pass their tests wherever they are, as long as no test looks at the place of a token. -/
theorem fit_moved {tests : List (Token → Bool)}
    (blind : ∀ test ∈ tests, ∀ token, test (Token.moved move token) = test token) {operands : List Token}
    (fit : List.Forall₂ (fun test operand => test operand = true) tests operands) :
    List.Forall₂ (fun test operand => test operand = true) tests (operands.map (Token.moved move)) := by
  induction fit with
  | nil => exact .nil
  | cons passes _ ih =>
    rw [List.forall_mem_cons] at blind
    exact .cons (by rw [blind.1, passes]) (ih blind.2)

/-- An instruction is known by its mnemonic, and its operands by their tests. The statement is placed at the
mnemonic. -/
theorem Command.moved {tokens : List Token} {statement : Statement} (command : Command tokens statement) :
    Command (Line.moved move tokens) (statement.moved move) := by
  cases command with
  | @mk mnemonic opcode operands isWord known fit =>
    have idents : (operands.map Token.ident).map (Ident.moved move) =
        (operands.map (Token.moved move)).map Token.ident := by
      rw [List.map_map, List.map_map]
      rfl
    rw [Statement.moved, idents]
    exact .mk isWord known (fit_moved move (operand_test_moved move opcode.operands) fit)

/-- A line of labels, with or without an instruction behind them, is carried over with all that stands in it. -/
theorem StatementLine.moved {line : Line} {statements : List Statement} (reads : StatementLine line statements) :
    StatementLine (line.moved move) (statements.map (Statement.moved move)) := by
  cases reads with
  | labels labelled => exact .labels (labelled.map (Token.moved move) (Statement.moved move) (Label.moved move))
  | command labelled instructs =>
    rw [Line.moved, List.map_append, List.map_append]
    exact .command (labelled.map (Token.moved move) (Statement.moved move) (Label.moved move)) (instructs.moved move)

/-- The same for a line of labels that ends in a directive, whose own place is part of what the line says. -/
theorem DirectiveLine.moved {directive : Text} {line : Line} {labels : List Statement} {position : Position}
    (reads : DirectiveLine directive line labels position) :
    DirectiveLine directive (line.moved move) (labels.map (Statement.moved move)) (move position) := by
  cases reads with
  | mk labelled isDirective =>
    rw [Line.moved, List.map_append]
    exact .mk (labelled.map (Token.moved move) (Statement.moved move) (Label.moved move)) isDirective

/-- A line of declarations has names and commas only, and it has them at other places too. -/
theorem declares_moved {line : Line} (declares : Declares line) : Declares (line.moved move) :=
  List.forall_mem_map.mpr declares

/-- The names among moved tokens are the names among the tokens, moved. -/
theorem names_moved (tokens : List Token) : names (Line.moved move tokens) = (names tokens).map (Ident.moved move) := by
  rw [names, names, Line.moved, List.filter_map, List.map_map, List.map_map]
  rfl

/-- A constant is placed at its name. -/
theorem ConstantLine.moved {line : Line} {constant : ConstantDecl} (reads : ConstantLine line constant) :
    ConstantLine (line.moved move) (constant.moved move) := by
  cases reads with
  | mk named isLiteral => exact .mk named isLiteral

/-- A comma and a name behind it make a further parameter, which is placed at the name. -/
theorem Further.moved {tokens : List Token} {ident : Ident} (further : Further tokens ident) :
    Further (Line.moved move tokens) (ident.moved move) := by
  cases further with
  | mk isComma named => exact .mk isComma named

/-- Parameters are a first name and further ones, so that their law is that of a sequence. -/
theorem Parameters.moved {tokens : List Token} {idents : List Ident} (listed : Parameters tokens idents) :
    Parameters (Line.moved move tokens) (idents.map (Ident.moved move)) := by
  cases listed with
  | none => exact .none
  | some named others => exact .some named (others.map (Token.moved move) (Ident.moved move) (Further.moved move))

/-- The line that opens a method, without parameters or with a list of them in parentheses. The block is placed at the
directive. -/
theorem Heading.moved {line : Line} {block : Block} (heading : Heading line block) :
    Heading (line.moved move) (block.moved move) := by
  cases heading with
  | plain opens named => exact .plain opens named
  | withParams opens named isLeft isRight listed =>
    rw [Line.moved, List.map_cons, List.map_cons, List.map_cons, List.map_append]
    exact .withParams opens named isLeft isRight (listed.moved move)

/-! ## Sections -/

/-- A part of a body at another place. -/
def Contribution.moved (part : Contribution) : Contribution :=
  { vars := part.vars.map (VarBlock.moved move), statements := part.statements.map (Statement.moved move) }

/-- A part of a body is a line of statements or a block of declarations, and each of them has its law. -/
theorem BodyPart.moved {lines : List Line} {part : Contribution} (isPart : BodyPart lines part) :
    BodyPart (lines.map (Line.moved move)) (part.moved move) := by
  cases isPart with
  | statements reads => exact .statements (reads.moved move)
  | @variableBlock opening labels position declarations closing opens declares closes =>
    have others : ∀ line ∈ declarations.map (Line.moved move), Declares line :=
      List.forall_mem_map.mpr fun line listed => declares_moved move (declares line listed)
    have closed : IsDirective ".end-var" (closing.moved move) := closes
    have part := BodyPart.variableBlock (opens.moved move) others closed
    rw [← List.map_flatten, names_moved] at part
    rw [List.map_cons, List.map_append]
    exact part

/-- A completed block is moved with its parts: to put together and to move can be done in either order. -/
theorem complete_moved (block : Block) (parts : List Contribution) (labels : List Statement) :
    (complete block parts labels).moved move =
      complete (block.moved move) (parts.map (Contribution.moved move)) (labels.map (Statement.moved move)) := by
  simp only [complete, Block.extend, Block.moved, List.map_append, List.map_flatMap, List.flatMap_map]
  rfl

/-- A member of a tree at another place. -/
def Member.moved : Member → Member
  | .constants listed => .constants (listed.map (ConstantDecl.moved move))
  | .main block => .main (block.moved move)
  | .method block => .method (block.moved move)

/-- A section is moved as a whole: constants line by line, a block with its heading, its body and the labels of its
last line. -/
theorem Section.moved {lines : List Line} {member : Member} (isSection : Section lines member) :
    Section (lines.map (Line.moved move)) (member.moved move) := by
  cases isSection with
  | constants opens declares closes =>
    rw [List.map_cons, List.map_append]
    have moved := declares.imp fun line constant => ConstantLine.moved move
    exact .constants opens (List.forall₂_map_left_iff.mpr (List.forall₂_map_right_iff.mpr moved)) closes
  | main opens body closes =>
    rw [List.map_cons, List.map_append, Member.moved, complete_moved]
    exact .main opens (body.map (Line.moved move) (Contribution.moved move) (BodyPart.moved move)) (closes.moved move)
  | method opens body closes =>
    rw [List.map_cons, List.map_append, Member.moved, complete_moved]
    exact .method (opens.moved move) (body.map (Line.moved move) (Contribution.moved move) (BodyPart.moved move))
      (closes.moved move)

/-- The tree of moved members is the tree of the members, moved. Which member is the main block and which are methods
does not depend on places. -/
theorem assemble_moved (file : Text) (members : List Member) :
    assemble file (members.map (Member.moved move)) = (assemble file members).moved move := by
  have decls (member : Member) : (member.moved move).decls = member.decls.map (ConstantDecl.moved move) := by
    cases member with
    | constants | main | method => rfl
  have main (member : Member) : (member.moved move).main? = member.main?.map (Block.moved move) := by
    cases member with
    | constants | main | method => rfl
  have method (member : Member) : (member.moved move).method? = member.method?.map (Block.moved move) := by
    cases member with
    | constants | main | method => rfl
  simp only [assemble, Tree.moved, List.flatMap_map, List.map_flatMap, List.findSome?_map, List.map_findSome?,
    List.filterMap_map, List.map_filterMap, Function.comp_def, decls, main, method]

/-- Lines at other places make up the same tree at other places. No condition is needed on how tokens are moved; the
new places need not be in order. -/
theorem derives_moved {file : Text} {lines : List Line} {tree : Tree} (derives : Derives file lines tree) :
    Derives file (lines.map (Line.moved move)) (tree.moved move) := by
  obtain ⟨members, sections, constants, main, rfl⟩ := derives
  have sameConstants : Member.isConstants ∘ Member.moved move = Member.isConstants := by
    funext member
    cases member with
    | constants | main | method => rfl
  have sameMain : Member.isMain ∘ Member.moved move = Member.isMain := by
    funext member
    cases member with
    | constants | main | method => rfl
  refine ⟨members.map (Member.moved move), ?_, ?_, ?_, ?_⟩
  · exact sections.map (Line.moved move) (Member.moved move) (Section.moved move)
  · rw [List.countP_map, sameConstants]
    exact constants
  · rw [List.countP_map, sameMain]
    exact main
  · rw [assemble_moved]

end Grammar

end IntegerMachine
