import IntegerMachine.Source.Parse

/-!
# The shape of parse trees

Everything in a parse tree was a token of its source: names are tokens that are names, operands are of the kind
that the opcode wants and there are as many as it wants, and the main block is the only one marked as such. This
holds of every tree, also of a tree with syntax errors, because a line with an error adds only what was read
before it.

Without syntax errors there is a main block, every method has a name, and nothing was complained about while
tokens were read. What the tokens themselves look like is left to the predicate `given`, which stands for any
property that all tokens of the lines have; `clean` stands for the absence of errors, so that one induction over
the lines serves trees with and without them.
-/
namespace IntegerMachine

/-- An opcode with a mnemonic is assigned and not the label. Labels have an opcode, but are not among the
instructions. -/
theorem Opcode.valid_of_instruction {opcode : Opcode} (assigned : opcode ∈ Opcode.instructions) :
    opcode.valid = true ∧ opcode ≠ .label := by
  cases opcode with
  | label => exact absurd assigned (by decide)
  | unassigned code => exact absurd assigned (by simp [Opcode.instructions, Opcode.all])
  | _ => exact ⟨rfl, by decide⟩

namespace Source

variable (given : Token → Prop) (clean : Prop)

/-- A name that was a token. -/
def NameFrom (ident : Ident) : Prop :=
  ∃ token, given token ∧ token.ident = ident ∧ isName token.text = true

/-- A literal that was a token. -/
def LiteralFrom (ident : Ident) : Prop :=
  ∃ token, given token ∧ token.ident = ident ∧ token.isLiteral = true

/-- An operand that was a token of the kind that the opcode wants at its index. -/
def OperandFrom (opcode : Opcode) (index : Nat) (ident : Ident) : Prop :=
  if operandKind opcode index = .literal then LiteralFrom given ident else NameFrom given ident

/-- A statement that was read from tokens: a name, or an opcode that has a mnemonic with its operands. -/
inductive StatementFrom : Statement → Prop where
  | label (token : Token) (available : given token) (named : isName token.text = true) :
      StatementFrom (.label token.position token.text)
  | instruction (token : Token) (opcode : Opcode) (operands : List Ident) (available : given token)
      (assigned : opcode ∈ Opcode.instructions) (count : operands.length = opcode.operands.count)
      (kinds : ∀ index ident, operands[index]? = some ident → OperandFrom given opcode index ident) :
      StatementFrom (.instruction token.position opcode operands)

/-- A constant whose name and value were tokens. -/
def ConstantFrom (constant : ConstantDecl) : Prop :=
  NameFrom given { position := constant.position, name := constant.name } ∧
    ∃ token, given token ∧ token.text = constant.value ∧ token.isLiteral = true

/-- A block whose contents were read from tokens. The main block has its own name and no parameters, and a method
has a name unless there were errors. -/
structure BlockFrom (block : Block) : Prop where
  params : ∀ param ∈ block.params, NameFrom given param
  vars : ∀ declared ∈ block.vars, ∀ name ∈ declared.names, NameFrom given name
  statements : ∀ statement ∈ block.statements, StatementFrom given statement
  main : block.isMain = true → block.params = [] ∧ block.name = mainName
  named : clean → block.isMain = false → isName block.name = true

/-- A tree whose contents were read from tokens. -/
structure TreeFrom (tree : Tree) : Prop where
  constants : ∀ constant ∈ tree.constants, ConstantFrom given constant
  main : ∀ block, tree.main = some block → block.isMain = true ∧ BlockFrom given clean block
  methods : ∀ block ∈ tree.methods, block.isMain = false ∧ BlockFrom given clean block

/-- The part that is being read consists of tokens. -/
def PartFrom : Part → Prop
  | .top | .constants => True
  | .body block => BlockFrom given clean block
  | .variables block declared => BlockFrom given clean block ∧ ∀ name ∈ declared.names, NameFrom given name

/-- What was read so far consists of tokens. -/
structure ProgressFrom (progress : Progress) : Prop where
  tree : TreeFrom given clean progress.tree
  part : PartFrom given clean progress.part

variable {given clean}

/-- A block stays one of tokens when a statement is added that was read from tokens. -/
theorem BlockFrom.add {block : Block} (sound : BlockFrom given clean block) (statement : Statement)
    (added : StatementFrom given statement) : BlockFrom given clean (addStatement block statement) := by
  refine ⟨sound.params, sound.vars, ?_, sound.main, sound.named⟩
  intro member position
  rcases List.mem_append.mp position with before | last
  · exact sound.statements member before
  · exact List.mem_singleton.mp last ▸ added

/-- A word that is a name gives a name at its place. -/
theorem name_from (token : Token) (available : given token) (word : token.isNameWord = true) :
    NameFrom given token.ident :=
  ⟨token, available, rfl, (Bool.and_eq_true_iff.mp word).2⟩

/-- Parameters are tokens of the line, and each one is a name. This holds also of the parameters in front of an
error. -/
theorem params_from (last : Token) (first : Bool) (tokens : List Token)
    (available : ∀ token ∈ tokens, given token) :
    ∀ param ∈ (parseParams last first tokens).1, NameFrom given param := by
  fun_induction parseParams last first tokens with
  | case1 | case2 | case4 | case5 | case7 | case8 => simp
  | case3 last token rest _ word params errors parsed ih =>
    rw [List.forall_mem_cons] at available
    rw [parsed] at ih
    exact List.forall_mem_cons.mpr ⟨name_from token available.1 word, ih available.2⟩
  | case6 last first comma _ _ _ token rest word params errors parsed ih =>
    rw [List.forall_mem_cons, List.forall_mem_cons] at available
    rw [parsed] at ih
    exact List.forall_mem_cons.mpr ⟨name_from token available.2.1 word, ih available.2.2⟩

/-- The method that a line opens has tokens of the line for its parameters and nothing else yet. If there was nothing
wrong with the line it has a name. -/
theorem method_from (directive : Token) (rest : List Token) (available : ∀ token ∈ rest, given token)
    (faultless : clean → (parseMethod directive rest).2 = []) :
    BlockFrom given clean (parseMethod directive rest).1 := by
  have bare (name : Text) (named : clean → isName name = true) :
      BlockFrom given clean { position := directive.position, name, isMain := false } :=
    ⟨by simp, by simp, by simp, nofun, fun faultless _ => named faultless⟩
  fun_cases parseMethod directive rest with
  | case1 => exact bare [] (fun wanted => by simpa [parseMethod] using faultless wanted)
  | case2 _ name rest unnamed =>
    exact bare [] (fun wanted => by simpa [parseMethod, unnamed] using faultless wanted)
  | case3 _ name named => exact bare name.text (fun _ => by simpa using named)
  | case4 _ name named _ opening rest _ params errors parsed =>
    have block := bare name.text (fun _ => by simpa using named)
    refine ⟨?_, block.vars, block.statements, nofun, block.named⟩
    have tail : ∀ token ∈ rest, given token :=
      fun token member => available token (List.mem_cons_of_mem _ (List.mem_cons_of_mem _ member))
    have names := params_from opening true rest tail
    rwa [parsed] at names
  | case5 _ name named => exact bare name.text (fun _ => by simpa using named)

/-- A line between blocks opens a part of tokens, and leaves the tree alone. Constants and the main block have nothing
from tokens when they are opened. -/
theorem top_from (progress : Progress) (first : Token) (rest : List Token)
    (sound : ProgressFrom given clean progress) (available : ∀ token ∈ rest, given token)
    (faultless : clean → (parseTop progress first rest).2 = []) :
    ProgressFrom given clean (parseTop progress first rest).1 := by
  fun_cases parseTop progress first rest with
  | case1 => exact sound
  | case2 => exact ⟨sound.tree, trivial⟩
  | case3 =>
    refine ⟨sound.tree, ?_⟩
    constructor <;> simp
  | case4 block errors parsed =>
    refine ⟨sound.tree, ?_⟩
    have opened := @method_from given clean first rest available
    rw [parsed] at opened
    refine opened (fun wanted => ?_)
    simpa [parseTop, *] using faultless wanted
  | case5 => exact sound

/-- A line of the block of constants adds at most one constant, whose name and value are tokens of the line. A line
with an error adds none. -/
theorem constant_from (progress : Progress) (first : Token) (rest : List Token)
    (sound : ProgressFrom given clean progress) (availableFirst : given first)
    (available : ∀ token ∈ rest, given token) : ProgressFrom given clean (parseConstant progress first rest).1 := by
  fun_cases parseConstant progress first rest with
  | case1 => exact ⟨sound.tree, trivial⟩
  | case2 | case3 | case4 | case5 | case7 => exact sound
  | case6 _ named value literal constant tree =>
    refine ⟨⟨?_, sound.tree.main, sound.tree.methods⟩, sound.part⟩
    intro declared member
    rcases List.mem_append.mp member with before | last
    · exact sound.tree.constants declared before
    · rw [List.mem_singleton.mp last]
      refine ⟨⟨first, availableFirst, rfl, by simpa using named⟩, ?_⟩
      exact ⟨value, available value List.mem_cons_self, rfl, by simpa using literal⟩

/-- A line of declarations adds names that are tokens of the line to the open block of declarations, or closes it.
Tokens that are no names are complained about and left out. -/
theorem vars_from (progress : Progress) (block : Block) (line : TokenLine) (declared : VarBlock)
    (tokens : List Token) (tree : TreeFrom given clean progress.tree) (sound : BlockFrom given clean block)
    (names : ∀ name ∈ declared.names, NameFrom given name) (available : ∀ token ∈ tokens, given token) :
    ProgressFrom given clean (parseVars progress block line declared tokens).1 := by
  fun_induction parseVars progress block line declared tokens with
  | case1 => exact ⟨tree, sound, names⟩
  | case2 declared =>
    refine ⟨tree, sound.params, ?_, sound.statements, sound.main, sound.named⟩
    intro closed member
    rcases List.mem_append.mp member with before | last
    · exact sound.vars closed before
    · exact List.mem_singleton.mp last ▸ names
  | case3 _ _ _ _ _ _ _ _ parsed ih | case6 _ _ _ _ _ _ _ _ parsed ih =>
    have later := ih names (List.forall_mem_cons.mp available).2
    rwa [parsed] at later
  | case4 _ _ _ _ _ ih => exact ih names (List.forall_mem_cons.mp available).2
  | case5 declared token _ _ _ word ih =>
    rw [List.forall_mem_cons] at available
    refine ih ?_ available.2
    intro name member
    rcases List.mem_append.mp member with before | last
    · exact names name before
    · exact List.mem_singleton.mp last ▸ name_from token available.1 word

/-- A token that is not complained about is of the kind that the opcode wants at its index: a literal, or else a
name. -/
theorem operand_from (opcode : Opcode) (index : Nat) (token : Token) (available : given token)
    (accepted : checkOperand opcode index token = none) : OperandFrom given opcode index token.ident := by
  by_cases kind : operandKind opcode index = .literal
  · rw [OperandFrom, if_pos kind]
    rw [checkOperand, if_pos kind] at accepted
    cases literal : token.isLiteral with
    | true => exact ⟨token, available, rfl, literal⟩
    | false => simp [literal] at accepted
  · rw [OperandFrom, if_neg kind]
    rw [checkOperand, if_neg kind] at accepted
    cases word : token.isNameWord with
    | true => exact name_from token available word
    | false => simp [word] at accepted

/-- The operands of an instruction are of the kind that its opcode wants, from an index on. The induction is on the
tokens, with the index running along. -/
theorem operands_from (opcode : Opcode) (index : Nat) (tokens : List Token)
    (available : ∀ token ∈ tokens, given token) (accepted : checkOperands opcode index tokens = none) :
    ∀ place ident, (tokens.map Token.ident)[place]? = some ident →
      OperandFrom given opcode (index + place) ident := by
  induction tokens generalizing index with
  | nil => simp
  | cons token rest ih =>
    rw [List.forall_mem_cons] at available
    cases checked : checkOperand opcode index token with
    | some error => simp [checkOperands, checked] at accepted
    | none =>
      simp only [checkOperands, checked] at accepted
      intro place ident found
      cases place with
      | zero =>
        obtain rfl : token.ident = ident := by simpa using found
        exact operand_from opcode index token available.1 checked
      | succ place =>
        have later := ih (index + 1) available.2 accepted place ident (by simpa using found)
        rwa [show index + 1 + place = index + (place + 1) by omega] at later

/-- An instruction has an opcode with a mnemonic, and operands of the number and kinds that it wants. Otherwise it
would be an error and no statement. -/
theorem instruction_from (first : Token) (rest : List Token) (statement : Statement) (availableFirst : given first)
    (available : ∀ token ∈ rest, given token) (parsed : parseInstruction first rest = .ok statement) :
    StatementFrom given statement := by
  unfold parseInstruction at parsed
  split at parsed
  · cases parsed
  · split at parsed
    · cases parsed
    · rename_i opcode known
      split at parsed
      · cases parsed
      · rename_i count
        split at parsed
        · cases parsed
        · rename_i accepted
          cases parsed
          have kinds := operands_from opcode 0 rest available accepted
          simp only [Nat.zero_add] at kinds
          exact .instruction first opcode _ availableFirst (List.mem_of_find?_eq_some known)
            (by simpa using count) kinds

/-- A closed block goes to its place in the tree, a second main block to none. So the tree consists of tokens as
before. -/
theorem close_block_from (tree : Tree) (block : Block) (sound : TreeFrom given clean tree)
    (closed : BlockFrom given clean block) : TreeFrom given clean (closeBlock tree block) := by
  unfold closeBlock
  split
  · rename_i isMain
    refine ⟨sound.constants, ?_, sound.methods⟩
    intro main found
    cases known : tree.main with
    | some earlier =>
      obtain rfl : earlier = main := by simpa [known] using found
      exact sound.main earlier known
    | none =>
      obtain rfl : block = main := by simpa [known] using found
      exact ⟨isMain, closed⟩
  · rename_i notMain
    refine ⟨sound.constants, sound.main, ?_⟩
    intro method member
    rcases List.mem_append.mp member with before | last
    · exact sound.methods method before
    · rw [List.mem_singleton.mp last]
      exact ⟨by simpa using notMain, closed⟩

/-- A directive in a body opens declarations, closes the block, or changes nothing but the list of errors. -/
theorem directive_from (progress : Progress) (block : Block) (directive : Text) (first : Token)
    (rest : List Token) (tree : TreeFrom given clean progress.tree) (sound : BlockFrom given clean block) :
    ProgressFrom given clean (parseDirective progress block directive first rest).1 := by
  by_cases opening : directive = (".var" : Text)
  · rw [parseDirective, if_pos opening]
    exact ⟨tree, sound, by simp⟩
  · rw [parseDirective, if_neg opening]
    by_cases closing : directive = (if block.isMain then ".end-main" else ".end-method" : Text)
    · rw [if_pos closing]
      exact ⟨close_block_from progress.tree block tree sound, trivial⟩
    · rw [if_neg closing]
      exact ⟨tree, sound⟩

/-- A line of a body adds statements that were tokens of the line: the induction is on the labels in front. -/
theorem statement_from (progress : Progress) (block : Block) (tokens : List Token)
    (tree : TreeFrom given clean progress.tree) (sound : BlockFrom given clean block)
    (available : ∀ token ∈ tokens, given token) :
    ProgressFrom given clean (parseStatement progress block tokens).1 := by
  fun_induction parseStatement progress block tokens with
  | case1 | case4 | case7 | case9 => exact ⟨tree, sound⟩
  | case2 block first directive =>
    exact directive_from progress block directive first [] tree sound
  | case3 block first _ statement parsed =>
    rw [List.forall_mem_cons] at available
    exact ⟨tree, sound.add statement (instruction_from first [] statement available.1 available.2 parsed)⟩
  | case5 block first second rest directive =>
    exact directive_from progress block directive first (second :: rest) tree sound
  | case6 block first second rest _ _ named ih =>
    rw [List.forall_mem_cons, List.forall_mem_cons] at available
    exact ih (sound.add _ (.label first available.1 named)) available.2.2
  | case8 block first second rest _ _ statement parsed =>
    rw [List.forall_mem_cons] at available
    exact ⟨tree, sound.add statement
      (instruction_from first (second :: rest) statement available.1 available.2 parsed)⟩

/-- What was read after a line consists of tokens if what was read before it does. The cases are those of the part
that is being read. -/
theorem line_from (progress : Progress) (line : TokenLine) (sound : ProgressFrom given clean progress)
    (available : ∀ token ∈ line.tokens, given token) (faultless : clean → (parseLine progress line).2 = []) :
    ProgressFrom given clean (parseLine progress line).1 := by
  have first : given line.first := available line.first List.mem_cons_self
  have rest : ∀ token ∈ line.rest, given token :=
    fun token member => available token (List.mem_cons_of_mem _ member)
  have part := sound.part
  unfold parseLine at faultless ⊢
  cases reading : progress.part with
  | top =>
    rw [reading] at faultless
    exact top_from progress line.first line.rest sound rest faultless
  | constants => exact constant_from progress line.first line.rest sound first rest
  | body block =>
    rw [reading] at part
    exact statement_from progress block line.tokens sound.tree part available
  | «variables» block declared =>
    rw [reading] at part
    exact vars_from progress block line declared line.tokens sound.tree part.1 part.2 available

/-- The errors of lines are those of the first line and those of the others. Of a line the complaints of the reader
come before the errors of the parser. -/
theorem parse_lines_cons (progress : Progress) (complaints : List SyntaxError) (line : TokenLine)
    (rest : List TokenLine) :
    parseLines progress complaints (line :: rest) =
      ((parseLines (parseLine progress line).1 complaints rest).1,
        line.complaints ++ (parseLine progress line).2 ++
          (parseLines (parseLine progress line).1 complaints rest).2) := rfl

/-- What was read after all lines consists of tokens of the lines, by induction on the lines. -/
theorem lines_from (progress : Progress) (complaints : List SyntaxError) (lines : List TokenLine)
    (sound : ProgressFrom given clean progress) (available : ∀ line ∈ lines, ∀ token ∈ line.tokens, given token)
    (faultless : clean → (parseLines progress complaints lines).2 = []) :
    ProgressFrom given clean (parseLines progress complaints lines).1 := by
  induction lines generalizing progress with
  | nil => exact sound
  | cons line rest ih =>
    rw [List.forall_mem_cons] at available
    simp only [parse_lines_cons, List.append_eq_nil_iff] at faultless
    exact ih _ (line_from progress line sound available.1 (fun wanted => (faultless wanted).1.2)) available.2
      (fun wanted => (faultless wanted).2)

/-- A line, or the end of the source, that was complained about makes an error. So there were no complaints if there
are no errors. -/
theorem complaints_of_lines (progress : Progress) (complaints : List SyntaxError) (lines : List TokenLine)
    (faultless : (parseLines progress complaints lines).2 = []) :
    complaints = [] ∧ ∀ line ∈ lines, line.complaints = [] := by
  induction lines generalizing progress with
  | nil => exact ⟨faultless, by simp⟩
  | cons line rest ih =>
    simp only [parse_lines_cons, List.append_eq_nil_iff] at faultless
    obtain ⟨⟨own, _⟩, later⟩ := faultless
    exact ⟨(ih _ later).1, List.forall_mem_cons.mpr ⟨own, (ih _ later).2⟩⟩

/-- A token of the lines of a source. -/
def Supplies (source : Source) (token : Token) : Prop := ∃ line ∈ source.lines.lines, token ∈ line.tokens

/-- The state of a parser behind the last line. -/
def outcome (file : Text) (source : Source) : Parsed :=
  parseLines { tree := { file } } source.lines.complaints source.lines.lines

/-- The tree is what was read behind the last line. -/
theorem parse_tree (file : Text) (source : Source) : (source.parse file).1 = (source.outcome file).1.tree := rfl

/-- There are no syntax errors exactly if there were none in the lines and nothing is missing behind them: cutting
the list of errors leaves at least one. -/
theorem parse_faultless_iff (file : Text) (source : Source) :
    (source.parse file).2 = [] ↔
      (source.outcome file).2 = [] ∧ missing (source.outcome file).1 source.stop = [] := by
  change List.take 10 ((source.outcome file).2 ++ missing (source.outcome file).1 source.stop) = [] ↔ _
  simp [List.take_eq_nil_iff]

/-- Without syntax errors there is only the tree, and parsing is determined by it. -/
theorem parse_eq (file : Text) (source : Source) (faultless : (source.parse file).2 = []) :
    source.parse file = ((source.parse file).1, []) :=
  Prod.ext rfl faultless

/-- Every tree consists of tokens of its source. Methods have names unless there are syntax errors, which is where the
absence of errors is put in for `clean`. -/
theorem parse_from (file : Text) (source : Source) :
    TreeFrom source.Supplies ((source.parse file).2 = []) (source.parse file).1 := by
  have empty : ProgressFrom source.Supplies ((source.parse file).2 = []) { tree := { file } } :=
    ⟨⟨by simp, by simp, by simp⟩, trivial⟩
  have available : ∀ line ∈ source.lines.lines, ∀ token ∈ line.tokens, source.Supplies token :=
    fun line member token inLine => ⟨line, member, inLine⟩
  have faultless : (source.parse file).2 = [] → (source.outcome file).2 = [] :=
    fun wanted => ((source.parse_faultless_iff file).mp wanted).1
  exact (lines_from _ source.lines.complaints source.lines.lines empty available faultless).tree

/-- Nothing is missing behind the last line exactly between blocks, and after a main block. The end of the source
plays no part, as it only says where to complain. -/
theorem missing_nil_iff (progress : Progress) (stop : Position) :
    missing progress stop = [] ↔ progress.part = .top ∧ progress.tree.main ≠ none := by
  unfold missing
  cases progress.part with
  | top =>
    cases progress.tree.main with
    | none => simp
    | some main => simp
  | constants => simp
  | body block => simp
  | «variables» block declared => simp

/-- A tree without syntax errors: it consists of tokens, its methods have names, and it has a main block. -/
structure Grammatical (given : Token → Prop) (tree : Tree) : Prop where
  contents : TreeFrom given True tree
  hasMain : ∃ main, tree.main = some main

/-- Parsing without syntax errors gives such a tree. That it has a main block is known from what is missing at the
end. -/
theorem parse_grammatical (file : Text) (source : Source) (tree : Tree) (parsed : source.parse file = (tree, [])) :
    Grammatical source.Supplies tree := by
  have faultless : (source.parse file).2 = [] := by rw [parsed]
  have contents := source.parse_from file
  rw [eq_true faultless, parsed] at contents
  obtain ⟨_, hasMain⟩ := (missing_nil_iff _ _).mp ((source.parse_faultless_iff file).mp faultless).2
  obtain ⟨main, known⟩ := Option.ne_none_iff_exists'.mp hasMain
  rw [← parse_tree, parsed] at known
  exact ⟨contents, main, known⟩

namespace Grammatical

variable {tree : Tree} (grammatical : Grammatical given tree)

include grammatical

/-- The main block comes first among the blocks, wherever it stands in the source. -/
theorem blocks_eq : ∃ main, tree.main = some main ∧ tree.blocks = main :: tree.methods := by
  obtain ⟨main, known⟩ := grammatical.hasMain
  exact ⟨main, known, by rw [Tree.blocks, known]; rfl⟩

/-- Every block consists of tokens, the main block and the methods alike. -/
theorem block_from (block : Block) (member : block ∈ tree.blocks) : BlockFrom given True block := by
  rcases List.mem_append.mp member with main | method
  · exact (grammatical.contents.main block (Option.mem_toList.mp main)).2
  · exact (grammatical.contents.methods block method).2

/-- The methods are the blocks that are not marked as main. Passes that go through all blocks can tell them apart by
the mark. -/
theorem methods_eq : tree.blocks.filter (fun block => !block.isMain) = tree.methods := by
  obtain ⟨main, known, blocks⟩ := grammatical.blocks_eq
  have marked := (grammatical.contents.main main known).1
  have unmarked : ∀ block ∈ tree.methods, (!block.isMain) = true := by
    intro block member
    rw [(grammatical.contents.methods block member).1]
    rfl
  rw [blocks, List.filter_cons_of_neg (by simp [marked]), List.filter_eq_self.mpr unmarked]

/-- An instruction of a block has an opcode with a mnemonic and as many operands as it wants. -/
theorem instruction_shape (block : Block) (member : block ∈ tree.blocks) (position : Position) (opcode : Opcode)
    (operands : List Ident) (listed : .instruction position opcode operands ∈ block.statements) :
    opcode ∈ Opcode.instructions ∧ operands.length = opcode.operands.count := by
  have sound := (grammatical.block_from block member).statements _ listed
  cases sound with
  | instruction token _ _ _ assigned count => exact ⟨assigned, count⟩

end Grammatical

end Source

end IntegerMachine
