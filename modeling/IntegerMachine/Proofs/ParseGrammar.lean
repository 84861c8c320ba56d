import IntegerMachine.Proofs.LineSteps
import IntegerMachine.Proofs.TokenTexts

/-!
# The parser accepts the grammar

A source that is read without complaints has no syntax errors exactly if its lines are those of the grammar, and its
tree is the one of the grammar then.

Both directions are about runs of steps, one for each line. A section of the grammar takes the parser from between two
blocks to between two blocks again. Conversely, what the parser has read up to a line is a number of sections and the
beginning of another one, and each step makes it longer by its line.
-/
namespace IntegerMachine

namespace Source

open Grammar

/-! ## Runs -/

/-- The steps of lines that are read without errors. -/
inductive Steps : Progress → List Line → Progress → Prop where
  | nil {progress : Progress} : Steps progress [] progress
  | cons {progress next last : Progress} {line : Line} {lines : List Line} (first : Step progress line next)
      (others : Steps next lines last) : Steps progress (line :: lines) last

namespace Steps

/-- Steps can be put one behind the other, if the first ones end where the second ones start. -/
theorem append {progress next last : Progress} {before after : List Line} (first : Steps progress before next)
    (second : Steps next after last) : Steps progress (before ++ after) last := by
  induction first with
  | nil => exact second
  | cons step _ ih => exact .cons step (ih second)

/-- The step of one line. -/
theorem single {progress next : Progress} {line : Line} (step : Step progress line next) : Steps progress [line] next :=
  .cons step .nil

end Steps

/-- Lines without complaints are read without errors exactly if there are steps for them. The induction is on the
lines, each of which is a step by the laws for one line. -/
theorem parse_lines_iff {lines : List TokenLine} (quiet : ∀ line ∈ lines, line.complaints = [])
    (plain : ∀ line ∈ lines, ∀ token ∈ line.tokens, token.Plain) (progress last : Progress) :
    parseLines progress [] lines = (last, []) ↔ Steps progress (lines.map TokenLine.tokens) last := by
  induction lines generalizing progress with
  | nil =>
    constructor
    · intro parsed
      cases parsed
      exact .nil
    · intro steps
      cases steps
      rfl
  | cons line rest ih =>
    rw [List.forall_mem_cons] at quiet plain
    have later := ih quiet.2 plain.2
    rw [parse_lines_cons, quiet.1, List.nil_append, List.map_cons]
    constructor
    · intro parsed
      obtain ⟨reached, errors⟩ := Prod.mk.inj parsed
      obtain ⟨own, others⟩ := List.append_eq_nil_iff.mp errors
      exact .cons (line_sound plain.1 (Prod.ext rfl own)) ((later _).mp (Prod.ext reached others))
    · intro steps
      cases steps with
      | cons first others =>
        have read := line_read first plain.1
        rw [read, (later _).mpr others, List.append_nil]

/-- What was read after sections, while something else is being read. -/
def reached (file : Text) (members : List Member) (part : Part) : Progress :=
  { tree := assemble file members, part, hasConstants := members.any Member.isConstants }

variable {file : Text} {members : List Member}

/-! ## What the grammar derives is read -/

/-- The names of two lines are declared one after the other, just like the names of one line. -/
theorem declaring_append (declared : VarBlock) (before after : List Token) :
    declaring declared (before ++ after) = declaring (declaring declared before) after := by
  simp [declaring, names]

/-- Lines of declarations add their names, and leave the parser among declarations. -/
theorem declarations_run {block : Block} {lines : List Line} (declares : ∀ line ∈ lines, Declares line)
    (declared : VarBlock) :
    Steps (reached file members (.variables block declared)) lines
      (reached file members (.variables block (declaring declared lines.flatten))) := by
  induction lines generalizing declared with
  | nil =>
    rw [List.flatten_nil, declaring, names, List.filter_nil, List.map_nil, List.append_nil]
    exact .nil
  | cons line rest ih =>
    rw [List.forall_mem_cons] at declares
    rw [List.flatten_cons, declaring_append]
    exact .cons (.declare rfl declares.1) (ih declares.2 (declaring declared line))

/-- A part of a body adds what it contributes, and leaves the parser in the body. A block of declarations passes
through another part on the way. -/
theorem part_run {lines : List Line} {part : Contribution} (isPart : BodyPart lines part) (block : Block) :
    Steps (reached file members (.body block)) lines
      (reached file members (.body (block.extend part.vars part.statements))) := by
  cases isPart with
  | statements reads => exact .single (.body rfl (.statements reads))
  | variableBlock opens declares closes =>
    rename_i opening labels position declarations closing
    refine .cons (.body rfl (.openVariables opens)) ((declarations_run declares _).append (.single ?_))
    have closed : Step (reached file members (.variables (block.extend [] labels)
        (declaring { position } declarations.flatten))) [closing] _ := .closeVariables rfl closes
    rw [Block.extend_extend, List.append_nil] at closed
    exact closed

/-- A body adds what its parts contribute. The induction is on the parts and carries the block. -/
theorem body_run {lines : List Line} {parts : List Contribution} (body : Sequence BodyPart lines parts)
    (block : Block) :
    Steps (reached file members (.body block)) lines (reached file members (.body (complete block parts []))) := by
  induction body generalizing block with
  | nil =>
    rw [complete, List.flatMap_nil, List.flatMap_nil, List.append_nil, Block.extend_nil]
    exact .nil
  | cons first others ih =>
    rename_i piece rest part parts
    have both : complete (block.extend part.vars part.statements) parts [] = complete block (part :: parts) [] := by
      rw [complete, complete, Block.extend_extend, List.flatMap_cons, List.flatMap_cons, List.append_assoc]
    rw [← both]
    exact (part_run first block).append (ih _)

/-- Constants behind sections are behind the constants of these in the tree, and the parser knows that there are
some. -/
theorem reached_constants (constants : List ConstantDecl) (part : Part) :
    reached file (members ++ [.constants constants]) part =
      { tree := { assemble file members with constants := (assemble file members).constants ++ constants }
        part
        hasConstants := true } := by
  rw [reached, assemble_constants, List.any_append]
  simp [Member.isConstants]

/-- A section of constants that was just opened has none yet, but no second one may follow. -/
theorem reached_no_constants : reached file (members ++ [.constants []]) .constants =
    { reached file members .top with part := .constants, hasConstants := true } := by
  rw [reached_constants, List.append_nil]
  rfl

/-- One more constant goes to the end of the tree's constants, as a line of its section puts it there. -/
theorem reached_constant (listed : List ConstantDecl) (constant : ConstantDecl) :
    reached file (members ++ [.constants (listed ++ [constant])]) .constants =
      { reached file (members ++ [.constants listed]) .constants with
        tree := { assemble file (members ++ [.constants listed]) with
          constants := (assemble file (members ++ [.constants listed])).constants ++ [constant] } } := by
  rw [reached_constants, reached_constants, assemble_constants, List.append_assoc]

/-- A main block that is closed becomes that of the tree. It has to be the first one, as a later one is not kept. -/
theorem reached_main {block : Block} (isMain : block.isMain = true) (isFirst : (assemble file members).main = none) :
    reached file (members ++ [.main block]) .top =
      { reached file members .top with tree := closeBlock (assemble file members) block } := by
  have closed : closeBlock (assemble file members) block = assemble file (members ++ [.main block]) := by
    rw [assemble_main file members block isFirst, closeBlock, if_pos isMain, isFirst]
    rfl
  rw [closed, reached, List.any_append]
  simp [Member.isConstants, reached]

/-- A method that is closed is added to those of the tree. -/
theorem reached_method {block : Block} (isMethod : block.isMain = false) :
    reached file (members ++ [.method block]) .top =
      { reached file members .top with tree := closeBlock (assemble file members) block } := by
  have closed : closeBlock (assemble file members) block = assemble file (members ++ [.method block]) := by
    rw [assemble_method, closeBlock, if_neg (by simp [isMethod])]
  rw [closed, reached, List.any_append]
  simp [Member.isConstants, reached]

/-- The last line of a block closes it. -/
theorem close_step {block : Block} {parts : List Contribution} {closing : Line} {labels : List Statement}
    {position : Position} (closes : DirectiveLine (closingDirective block) closing labels position) :
    Step (reached file members (.body (complete block parts []))) closing
      { reached file members .top with tree := closeBlock (assemble file members) (complete block parts labels) } := by
  have closed : Step (reached file members (.body (complete block parts []))) closing _ := .body rfl (.close closes)
  rw [complete_extend] at closed
  exact closed

/-- Lines of constants add them, one in each line. -/
theorem constants_run {lines : List Line} {constants : List ConstantDecl}
    (declares : List.Forall₂ ConstantLine lines constants) (before : List ConstantDecl) :
    Steps (reached file (members ++ [.constants before]) .constants) lines
      (reached file (members ++ [.constants (before ++ constants)]) .constants) := by
  induction declares generalizing before with
  | nil =>
    rw [List.append_nil]
    exact .nil
  | cons reads others ih =>
    rename_i line constant lines constants
    have later := ih (before ++ [constant])
    rw [List.append_assoc, List.singleton_append] at later
    refine .cons ?_ later
    rw [reached_constant]
    exact .constant rfl reads

/-- A section takes the parser from between two blocks to between two blocks. The counts say that it may stand where
it does. -/
theorem section_run {lines : List Line} {member : Member} (isSection : Section lines member)
    (constants : (members ++ [member]).countP Member.isConstants ≤ 1)
    (mains : (members ++ [member]).countP Member.isMain ≤ 1) :
    Steps (reached file members .top) lines (reached file (members ++ [member]) .top) := by
  cases isSection with
  | constants opens declares closes =>
    have isFirst := (any_false_iff members Member.isConstants).mpr (none_before constants rfl)
    refine .cons (.openConstants rfl opens isFirst) ?_
    rw [← reached_no_constants]
    exact (constants_run declares []).append (.single (.closeConstants rfl closes))
  | main opens body closes =>
    have isFirst := (assemble_main_none_iff file members).mpr (none_before mains rfl)
    refine .cons (.openMain rfl opens isFirst) ((body_run body _).append (.single ?_))
    rw [reached_main rfl isFirst]
    exact close_step closes
  | method opens body closes =>
    have isMethod := heading_is_method opens
    refine .cons (.openMethod rfl opens) ((body_run body _).append (.single ?_))
    rw [reached_method (show (complete _ _ _).isMain = false from isMethod)]
    apply close_step
    rw [closingDirective, if_neg (by simp [isMethod])]
    exact closes

/-- Sections one after the other, by induction. The counts are those of all sections together, so that each may stand
behind the ones before it. -/
theorem sections_run {lines : List Line} {others : List Member} (sections : Sequence Section lines others)
    (constants : (members ++ others).countP Member.isConstants ≤ 1)
    (mains : (members ++ others).countP Member.isMain ≤ 1) :
    Steps (reached file members .top) lines (reached file (members ++ others) .top) := by
  induction sections generalizing members with
  | nil =>
    rw [List.append_nil]
    exact .nil
  | cons first others ih =>
    rename_i piece rest member more
    rw [List.append_cons] at constants mains ⊢
    have fewer (test : Member → Bool) : (members ++ [member]).countP test ≤ (members ++ [member] ++ more).countP test :=
      (List.sublist_append_left _ _).countP_le
    have run : Steps (reached file members .top) piece (reached file (members ++ [member]) .top) :=
      section_run first (Nat.le_trans (fewer _) constants) (Nat.le_trans (fewer _) mains)
    exact run.append (ih constants mains)

/-! ## What is read is derived by the grammar -/

/-- The line that opens a block which may stand behind sections. -/
inductive Opens (members : List Member) : Line → Block → Prop where
  | main {opening : Token} (opens : IsDirective ".main" opening) (isFirst : members.countP Member.isMain = 0) :
      Opens members [opening] (emptyMain opening.position)
  | method {line : Line} {block : Block} (heading : Heading line block) : Opens members line block

/-- Lines are sections of which at most one has constants and at most one is a main block. -/
structure Complete (lines : List Line) (members : List Member) : Prop where
  sections : Sequence Section lines members
  constants : members.countP Member.isConstants ≤ 1
  mains : members.countP Member.isMain ≤ 1

/-- A section behind others, if they have no section of its kind in case there may be only one. -/
theorem Complete.snoc {lines piece : List Line} {members : List Member} {member : Member}
    (before : Complete lines members) (isSection : Section piece member)
    (constants : member.isConstants = true → members.countP Member.isConstants = 0)
    (mains : member.isMain = true → members.countP Member.isMain = 0) :
    Complete (lines ++ piece) (members ++ [member]) := by
  have once (test : Member → Bool) (few : members.countP test ≤ 1)
      (isFirst : test member = true → members.countP test = 0) : (members ++ [member]).countP test ≤ 1 := by
    rw [List.countP_append, List.countP_singleton]
    split
    · rename_i passes
      have none := isFirst passes
      omega
    · exact few
  exact ⟨before.sections.snoc isSection, once _ before.constants constants, once _ before.mains mains⟩

/-- What was read is a number of sections, and the beginning of another one unless the parser is between blocks. -/
inductive Begun (file : Text) : List Line → Progress → Prop where
  | top {lines : List Line} {members : List Member} (before : Complete lines members) :
      Begun file lines (reached file members .top)
  | constants {earlier lines : List Line} {members : List Member} {opening : Token} {listed : List ConstantDecl}
      (before : Complete earlier members) (isFirst : members.countP Member.isConstants = 0)
      (opens : IsDirective ".constant" opening) (declares : List.Forall₂ ConstantLine lines listed) :
      Begun file (earlier ++ [opening] :: lines) (reached file (members ++ [.constants listed]) .constants)
  | body {earlier lines : List Line} {members : List Member} {opening : Line} {block : Block}
      {parts : List Contribution} (before : Complete earlier members) (opens : Opens members opening block)
      (body : Sequence BodyPart lines parts) :
      Begun file (earlier ++ opening :: lines) (reached file members (.body (complete block parts [])))
  | declarations {earlier lines declarations : List Line} {members : List Member} {opening varLine : Line}
      {block : Block} {parts : List Contribution} {labels : List Statement} {position : Position} (before : Complete earlier members)
      (opens : Opens members opening block) (body : Sequence BodyPart lines parts)
      (opensVars : DirectiveLine ".var" varLine labels position) (declares : ∀ line ∈ declarations, Declares line) :
      Begun file (earlier ++ opening :: (lines ++ varLine :: declarations))
        (reached file members (.variables (complete block parts labels) (declaring { position } declarations.flatten)))

/-- The line that closes a block completes a section, and the parser is between blocks again. -/
theorem Begun.close {earlier lines : List Line} {opening closing : Line} {block : Block} {parts : List Contribution}
    {labels : List Statement} {position : Position} (before : Complete earlier members)
    (opens : Opens members opening block) (body : Sequence BodyPart lines parts)
    (closes : DirectiveLine (closingDirective block) closing labels position) :
    Begun file (earlier ++ opening :: (lines ++ [closing]))
      { reached file members .top with tree := closeBlock (assemble file members) (complete block parts labels) } := by
  cases opens with
  | main opens isFirst =>
    rw [← reached_main rfl ((assemble_main_none_iff file members).mpr isFirst)]
    exact .top (before.snoc (.main opens body closes) (fun impossible => by cases impossible) (fun _ => isFirst))
  | method heading =>
    have isMethod := heading_is_method heading
    rw [closingDirective, if_neg (by simp [isMethod])] at closes
    rw [← reached_method (show (complete block parts labels).isMain = false from isMethod)]
    exact .top (before.snoc (.method heading body closes) (fun impossible => by cases impossible)
      (fun impossible => by cases impossible))

/-- A step makes what was read longer by its line. This is the invariant of the parser; the cases are those of where
it is. -/
theorem Begun.step {lines : List Line} {line : Line} {progress next : Progress} (begun : Begun file lines progress)
    (step : Step progress line next) : Begun file (lines ++ [line]) next := by
  -- Where the parser is rules out all steps but those of that part.
  cases begun with
  | top before =>
    rename_i members
    cases step with
    | openConstants outside opens isFirst =>
      rw [← reached_no_constants]
      exact .constants before ((any_false_iff members Member.isConstants).mp isFirst) opens .nil
    | openMain outside opens isFirst =>
      have opened : Begun file _ _ :=
        .body before (.main opens ((assemble_main_none_iff file members).mp isFirst)) .nil
      rw [complete_nil] at opened
      exact opened
    | openMethod outside opens =>
      have opened : Begun file _ _ := .body before (.method opens) .nil
      rw [complete_nil] at opened
      exact opened
    | constant inside | closeConstants inside | body inside | declare inside | closeVariables inside => cases inside
  | constants before isFirst opens declares =>
    rw [List.append_assoc, List.cons_append]
    cases step with
    | constant inside reads =>
      have added : Begun file _ _ :=
        .constants before isFirst opens (List.rel_append declares (.cons reads .nil))
      rw [reached_constant] at added
      exact added
    | closeConstants inside closes =>
      exact .top (before.snoc (.constants opens declares closes) (fun _ => isFirst)
        (fun impossible => by cases impossible))
    | openConstants outside | openMain outside | openMethod outside => cases outside
    | body inside | declare inside | closeVariables inside => cases inside
  | body before opens body =>
    rw [List.append_assoc, List.cons_append]
    cases step with
    | body inside reads =>
      cases inside
      cases reads with
      | statements reads =>
        have longer : Begun file _ _ := .body before opens (body.snoc (.statements reads))
        rw [complete_snoc] at longer
        exact longer
      | openVariables opensVars =>
        rw [complete_extend]
        exact .declarations before opens body opensVars (by simp)
      | close closes =>
        rw [complete_extend]
        exact .close before opens body closes
    | openConstants outside | openMain outside | openMethod outside => cases outside
    | constant inside | closeConstants inside | declare inside | closeVariables inside => cases inside
  | declarations before opens body opensVars declares =>
    rw [List.append_assoc, List.cons_append, List.append_assoc, List.cons_append]
    cases step with
    | declare inside adds =>
      cases inside
      have longer : Begun file _ _ :=
        .declarations before opens body opensVars
          (List.forall_mem_append.mpr ⟨declares, List.forall_mem_singleton.mpr adds⟩)
      rw [List.flatten_concat, declaring_append] at longer
      exact longer
    | closeVariables inside closes =>
      cases inside
      have longer : Begun file _ _ := .body before opens (body.snoc (.variableBlock opensVars declares closes))
      rw [complete_snoc] at longer
      rw [← complete_extend, Block.extend_extend, List.nil_append, List.append_nil]
      exact longer
    | openConstants outside | openMain outside | openMethod outside => cases outside
    | constant inside | closeConstants inside | body inside => cases inside

/-- A run makes what was read longer by its lines, by induction on the steps. -/
theorem Begun.steps {lines more : List Line} {progress last : Progress} (begun : Begun file lines progress)
    (steps : Steps progress more last) : Begun file (lines ++ more) last := by
  induction steps generalizing lines with
  | nil =>
    rw [List.append_nil]
    exact begun
  | cons first others ih =>
    rw [List.append_cons]
    exact ih (begun.step first)

/-! ## Sources -/

/-- The lines of a source as lists of tokens. -/
def tokenLines (source : Source) : List Line := source.lines.lines.map TokenLine.tokens

/-- The lines of a source are those of the grammar exactly if there are steps for them to the end of a section, after
a main block. In one direction sections are run, in the other the invariant says that what was read is complete. -/
theorem derives_iff_steps (lines : List Line) (tree : Tree) :
    Derives file lines tree ↔
      ∃ last, Steps { tree := { file } } lines last ∧ last.part = .top ∧ last.tree.main ≠ none ∧ last.tree = tree := by
  constructor
  · rintro ⟨members, sections, constants, mains, rfl⟩
    have run : Steps (reached file [] .top) lines (reached file members .top) :=
      sections_run sections constants (Nat.le_of_eq mains)
    refine ⟨reached file members .top, run, rfl, ?_, rfl⟩
    intro none
    rw [(assemble_main_none_iff file members).mp none] at mains
    cases mains
  · rintro ⟨last, steps, atEnd, hasMain, rfl⟩
    have start : Begun file [] (reached file [] .top) := .top ⟨.nil, Nat.zero_le 1, Nat.zero_le 1⟩
    have begun := start.steps steps
    rw [List.nil_append] at begun
    cases begun with
    | top before =>
      rename_i members
      have some : members.countP Member.isMain ≠ 0 := mt (assemble_main_none_iff file members).mpr hasMain
      exact ⟨members, before.sections, before.constants, by have few := before.mains; omega, rfl⟩
    | constants | body | declarations => cases atEnd

/-- Reading a text without complaints and without errors gives the trees that the grammar gives. The tokens of a text
are plain, which is what the laws about lines ask for. -/
theorem parse_eq_iff_derives {text : Text} {failure : Option Text} (quiet : (ofText text failure).lines.Quiet)
    (file : Text) (tree : Tree) :
    (ofText text failure).parse file = (tree, []) ↔ Derives file (ofText text failure).tokenLines tree := by
  have plain : ∀ line ∈ (ofText text failure).lines.lines, ∀ token ∈ line.tokens, token.Plain :=
    fun line listed token member => supplied_name_word quiet token ⟨line, listed, member⟩
  have run (last : Progress) : (ofText text failure).outcome file = (last, []) ↔
      Steps { tree := { file } } (ofText text failure).tokenLines last := by
    rw [outcome, quiet.1]
    exact parse_lines_iff quiet.2 plain { tree := { file } } last
  rw [derives_iff_steps]
  constructor
  · intro parsed
    obtain ⟨errors, complete⟩ := ((ofText text failure).parse_faultless_iff file).mp (congrArg Prod.snd parsed)
    obtain ⟨atEnd, hasMain⟩ := (missing_nil_iff _ _).mp complete
    exact ⟨((ofText text failure).outcome file).1, (run _).mp (Prod.ext rfl errors), atEnd, hasMain,
      congrArg Prod.fst parsed⟩
  · rintro ⟨last, steps, atEnd, hasMain, rfl⟩
    have outcome := (run last).mpr steps
    have faultless := ((ofText text failure).parse_faultless_iff file).mpr
      ⟨by rw [outcome], by rw [outcome]; exact (missing_nil_iff last _).mpr ⟨atEnd, hasMain⟩⟩
    refine Prod.ext ?_ faultless
    rw [parse_tree, outcome]

/-- A text that is read without complaints has no syntax errors exactly if its lines are those of the grammar, and its
tree is the one that the grammar gives. The grammar therefore gives at most one tree. -/
theorem parse_accepts_grammar (text : Text) (failure : Option Text) (file : Text)
    (quiet : (ofText text failure).lines.Quiet) :
    (((ofText text failure).parse file).2 = [] ↔ ∃ tree, Derives file (ofText text failure).tokenLines tree) ∧
      ∀ tree, Derives file (ofText text failure).tokenLines tree → ((ofText text failure).parse file).1 = tree := by
  refine ⟨⟨?_, ?_⟩, ?_⟩
  · intro faultless
    exact ⟨_, (parse_eq_iff_derives quiet file _).mp (parse_eq file _ faultless)⟩
  · rintro ⟨tree, derives⟩
    rw [(parse_eq_iff_derives quiet file tree).mpr derives]
  · intro tree derives
    rw [(parse_eq_iff_derives quiet file tree).mpr derives]

/-- A text with a section of each kind, and with labels in front of statements and directives. -/
def patchwork : Text := ".METHOD f(a)
x: .var
b, , c
.end-var
y: z: IINC b -1
w: .end-method
.constant
k 'x'
.end-constant
.main
.end-main
"

/-- A text with two main blocks. -/
def twoMains : Text := ".main
.end-main
.main
.end-main
"

/-- One of the texts is derived by the grammar, and the other one is not. -/
theorem patchwork_derived : (ofText patchwork).lines.Quiet ∧ (ofText twoMains).lines.Quiet ∧
    (∃ tree, Derives "p" (ofText patchwork).tokenLines tree ∧ ((ofText patchwork).parse "p").1 = tree) ∧
    ¬ ∃ tree, Derives "p" (ofText twoMains).tokenLines tree := by
  have first : (ofText patchwork).lines.Quiet ∧ ((ofText patchwork).parse "p").2 = [] := by decide +kernel
  have second : (ofText twoMains).lines.Quiet ∧ ((ofText twoMains).parse "p").2 ≠ [] := by decide +kernel
  obtain ⟨accepted, same⟩ := parse_accepts_grammar patchwork none "p" first.1
  obtain ⟨tree, derives⟩ := accepted.mp first.2
  obtain ⟨refused, _⟩ := parse_accepts_grammar twoMains none "p" second.1
  exact ⟨first.1, second.1, ⟨tree, derives, same tree derives⟩, mt refused.mpr second.2⟩

end Source

end IntegerMachine
