import IntegerMachine.Proofs.Building
import IntegerMachine.Proofs.FoldedTrees
import IntegerMachine.Proofs.Respelling

/-!
# Spelling does not matter

Two trees of the same shape whose names differ in case at most have the same folded form. Analysis of each finds what
it finds of the folded form, so that it reports the same problems at the same places; and the programs of both are
carried over to the program of the folded form, so that they run in step.
-/
namespace IntegerMachine

/-- Two trees of the same shape, with the same positions, opcodes and literals, whose names are the same in folded
form. -/
structure Tree.SpellsLike (one other : Tree) : Prop where
  constants : one.constants.map ConstantDecl.folded = other.constants.map ConstantDecl.folded
  main : one.main.map Block.folded = other.main.map Block.folded
  methods : one.methods.map Block.folded = other.methods.map Block.folded

/-- Trees that spell alike have the same folded form but for the name of the file, which need not be the same. -/
theorem Tree.SpellsLike.folded {one other : Tree} (alike : one.SpellsLike other) :
    other.folded = { one.folded with file := other.file } := by
  rw [Tree.folded, Tree.folded, alike.constants, alike.main, alike.methods]

/-! ## Programs of folded trees -/

namespace Respelling

variable (respelling : Respelling)

/-- The labels of code are found under both spellings. They are kept in folded form with their places, and the places
do not change. -/
theorem labels_carried (index : Nat) (code : List Instruction) :
    Blueprint.labelsFrom index (code.map respelling.instruction) = Blueprint.labelsFrom index code := by
  induction code generalizing index with
  | nil => rfl
  | cons wanted rest ih =>
    rw [List.map_cons, Blueprint.labelsFrom, Blueprint.labelsFrom, instruction_opcode, ih]
    by_cases isLabel : wanted.opcode = .label
    · have name : ((respelling.instruction wanted).operands.headD []).fold = (wanted.operands.headD []).fold := by
        rw [instruction, isLabel]
        cases wanted.operands with
        | nil => rfl
        | cons name others =>
          dsimp only
          rw [List.mapIdx_cons]
          exact respelling.folded name
      rw [if_pos isLabel, if_pos isLabel, name]
    · rw [if_neg isLabel, if_neg isLabel]

/-- The literal operand of an instruction with as many operands as it wants is kept. A respelling touches the operands
that are names and no others. -/
theorem value_carried (wanted : Instruction) (count : wanted.operands.length = wanted.opcode.operands.count) :
    Blueprint.valueOf (respelling.instruction wanted) = Blueprint.valueOf wanted := by
  obtain ⟨opcode, operands, line⟩ := wanted
  rw [Blueprint.valueOf, Blueprint.valueOf, instruction]
  cases opcode with
  | bipush =>
    obtain ⟨literal, rfl⟩ := List.length_eq_one_iff.mp count
    rfl
  | iinc =>
    obtain ⟨name, rest, rfl⟩ := List.exists_cons_of_length_eq_add_one count
    obtain ⟨literal, rfl⟩ := List.length_eq_one_iff.mp (Nat.succ.inj count)
    rfl
  | _ => rfl

/-- Linking a block with its names spelled otherwise gives the blueprint with its names spelled otherwise. Slots and
labels are found by folded names, so that they are the same; the instructions need the right number of operands for
their literals to be kept. -/
theorem linked_carried (name : Text) (params vars : List Text) (code : List Instruction)
    (counts : ∀ wanted ∈ code, wanted.operands.length = wanted.opcode.operands.count) :
    Blueprint.linked (respelling.spell name) (params.map respelling.spell) (vars.map respelling.spell)
        (code.map respelling.instruction) =
      respelling.blueprint (Blueprint.linked name params vars code) := by
  have slots : (params.map respelling.spell ++ vars.map respelling.spell).map Text.fold =
      (params ++ vars).map Text.fold := by
    rw [← List.map_append, List.map_map]
    exact congrArg (fun spell => (params ++ vars).map spell) (funext respelling.folded)
  have values : (code.map respelling.instruction).map Blueprint.valueOf = code.map Blueprint.valueOf := by
    rw [List.map_map]
    exact List.map_congr_left fun wanted listed => respelling.value_carried wanted (counts wanted listed)
  rw [Blueprint.linked, slots, values, labels_carried, blueprint, Blueprint.linked, List.map_toArray]

/-- A program with its names spelled otherwise has what the program has: its main block, and under each name the same
constant and the same method. The pools may differ in the spelling of the names of constants. -/
theorem program_carried {pool other : List (Text × Cell)} (main : Blueprint) (methods : List Blueprint)
    (pools : other.map (fun constant => (constant.1.fold, constant.2)) =
      pool.map (fun constant => (constant.1.fold, constant.2))) :
    respelling.Carries (.linked pool main methods)
      (.linked other (respelling.blueprint main) (methods.map respelling.blueprint)) := by
  refine ⟨rfl, fun name => ?_, fun name => ?_⟩
  · have folded (method : Blueprint) : (respelling.blueprint method).name.fold = method.name.fold :=
      respelling.folded method.name
    rw [Program.method?, Program.method?, Program.linked, Program.linked, Program.lookup_method_table,
      Program.lookup_method_table, List.find?_map]
    simp only [Function.comp_def, folded]
  · rw [Program.constant?, Program.constant?, Program.linked, Program.linked, pools]

end Respelling

/-- The instruction of a statement in folded form is that of the statement, with the names among its operands in
folded form. -/
theorem Statement.build_folded (statement : Statement) :
    statement.folded.build = Respelling.folding.instruction statement.build := by
  cases statement with
  | label position name => rfl
  | instruction position opcode operands =>
    have names : (operands.mapIdx (Ident.foldedFor opcode)).map Ident.name =
        (operands.map Ident.name).mapIdx (Respelling.folding.operand opcode) := by
      refine List.ext_getElem? fun index => ?_
      rw [List.getElem?_map, List.getElem?_mapIdx, List.getElem?_mapIdx, List.getElem?_map, Option.map_map,
        Option.map_map]
      refine congrArg (fun spell => operands[index]?.map spell) (funext fun ident => ?_)
      simp only [Function.comp_apply, Ident.foldedFor, Respelling.operand]
      split <;> rfl
    exact congrArg (fun texts => ({ opcode, operands := texts, line := position.line } : Instruction)) names

section Accepted

variable {given : Token → Prop} {tree : Tree} (grammatical : Source.Grammatical given tree)
  (wellFormed : tree.WellFormed)

include grammatical wellFormed

/-- The blueprint of a block in folded form is the block's blueprint in folded form. The block belongs to an accepted
tree, whose instructions have the operands that they want. -/
theorem block_linked_folded {block : Block} (member : block ∈ tree.blocks) :
    block.folded.linked = Respelling.folding.blueprint block.linked := by
  have counts : ∀ wanted ∈ block.code, wanted.operands.length = wanted.opcode.operands.count :=
    fun wanted listed => ((block_linkable grammatical wellFormed member).sound wanted listed).count
  have code : block.folded.code = block.code.map Respelling.folding.instruction := by
    rw [Block.code, Block.code, Block.folded_statements, List.map_map, List.map_map]
    exact congrArg (fun build => block.statements.map build) (funext Statement.build_folded)
  rw [Block.linked, Block.linked, ← Respelling.linked_carried _ _ _ _ _ counts, code, Block.folded_params,
    Block.folded_variables, List.map_map, List.map_map, List.map_map, List.map_map]
  rfl

/-- The program of a tree is carried over to that of its folded form. It is enough to know this of its blocks and of
the names of its constants. -/
theorem tree_linked_folded {main : Block} (blocks : tree.blocks = main :: tree.methods) :
    Respelling.folding.Carries (tree.linked main) (tree.folded.linked main.folded) := by
  have mainFolded : main.folded.linked = Respelling.folding.blueprint main.linked :=
    block_linked_folded grammatical wellFormed (by rw [blocks]; exact List.mem_cons_self)
  have methodsFolded : tree.folded.methods.map Block.linked =
      (tree.methods.map Block.linked).map Respelling.folding.blueprint := by
    rw [Tree.folded, List.map_map, List.map_map]
    exact List.map_congr_left fun method member =>
      block_linked_folded grammatical wellFormed (List.mem_append_right _ member)
  rw [Tree.linked, Tree.linked, mainFolded, methodsFolded]
  refine Respelling.folding.program_carried _ _ ?_
  simp only [Tree.pool, Tree.folded, List.map_map, Function.comp_def, ConstantDecl.folded, Text.fold_fold]

end Accepted

/-! ## Trees that spell alike -/

namespace Tree.SpellsLike

variable {one other : Tree} (alike : one.SpellsLike other)

include alike

/-- Analysis finds the same about both trees, up to the case of names. Both are compared with what it finds about the
folded form that they share; the name of the file plays no part in it. -/
theorem findings : (Analysis.check one).findings.map Analysis.Finding.folded =
    (Analysis.check other).findings.map Analysis.Finding.folded := by
  have same : Analysis.check other.folded = Analysis.check one.folded := by
    rw [alike.folded]
    rfl
  rw [Analysis.check_folded, Analysis.check_folded] at same
  exact (congrArg Analysis.Result.findings same).symm

/-- Analysis reports problems of the same severity at the same places of both trees. Folding the names in a finding
changes neither its place nor its severity. -/
theorem places (severity : Severity) :
    (Analysis.ofSeverity severity (Analysis.check one).findings).map
        (fun reported => (reported.position, reported.severity)) =
      (Analysis.ofSeverity severity (Analysis.check other).findings).map
        (fun reported => (reported.position, reported.severity)) := by
  have same := congrArg (fun findings => (Analysis.ofSeverity severity findings).map
    fun reported => (reported.position, reported.severity)) alike.findings
  simp only [Analysis.of_severity_folded, List.map_map] at same
  have placed : (fun reported : Diagnostic => (reported.position, reported.severity)) ∘ Diagnostic.folded =
      fun reported => (reported.position, reported.severity) := by
    funext reported
    exact congrArg (Prod.mk reported.position) reported.problem.severity_folded
  rwa [placed] at same

/-- A tree that spells like an accepted one is accepted, since an error in it would have its place in the other
one. -/
theorem accepted (noErrors : (Analysis.check one).errors = []) : (Analysis.check other).errors = [] := by
  have same := alike.places .error
  change List.map _ (Analysis.check one).errors = List.map _ (Analysis.check other).errors at same
  rw [noErrors, List.map_nil] at same
  exact List.map_eq_nil_iff.mp same.symm

/-- The programs of accepted trees that spell alike are carried over to one program, that of the folded form. Neither
is carried over to the other directly. -/
theorem carried {given otherGiven : Token → Prop} (grammatical : Source.Grammatical given one)
    (otherGrammatical : Source.Grammatical otherGiven other) (wellFormed : one.WellFormed)
    (otherWellFormed : other.WellFormed) :
    ∃ program otherProgram target, one.build = .ok program ∧ other.build = .ok otherProgram ∧
      Respelling.folding.Carries program target ∧ Respelling.folding.Carries otherProgram target := by
  obtain ⟨main, blocks, built, -⟩ := tree_build grammatical wellFormed
  obtain ⟨otherMain, otherBlocks, otherBuilt, -⟩ := tree_build otherGrammatical otherWellFormed
  -- Each program is carried over to that of its own folded tree, and the folded trees are the same.
  have carries := tree_linked_folded grammatical wellFormed blocks
  have otherCarries := tree_linked_folded otherGrammatical otherWellFormed otherBlocks
  have blocksFolded : otherMain.folded :: other.folded.methods = main.folded :: one.folded.methods := by
    have same : other.folded.blocks = one.folded.blocks := by
      rw [alike.folded]
      rfl
    rwa [Analysis.blocks_folded, Analysis.blocks_folded, otherBlocks, blocks, List.map_cons, List.map_cons] at same
  have target : other.folded.linked otherMain.folded = one.folded.linked main.folded := by
    rw [(List.cons.inj blocksFolded).1, alike.folded]
    rfl
  rw [target] at otherCarries
  exact ⟨_, _, _, built, otherBuilt, carries, otherCarries⟩

end Tree.SpellsLike

/-- For two sources that are read without syntax errors to trees of the same shape, with the same positions, opcodes and
literals and with names that are the same in folded form: analysis reports errors and warnings at the same places, in
the same order and as many of them; and if it reports no errors, both trees are built, and the programs run in step for
every limit of the call depth, all input, all output and any number of steps. -/
theorem spelling_immaterial (first second : Source) (file otherFile : Text) (one other : Tree)
    (parsed : first.parse file = (one, [])) (otherParsed : second.parse otherFile = (other, []))
    (alike : one.SpellsLike other) :
    (Analysis.check one).errors.map (fun reported => (reported.position, reported.severity)) =
        (Analysis.check other).errors.map (fun reported => (reported.position, reported.severity)) ∧
      (Analysis.check one).warnings.map (fun reported => (reported.position, reported.severity)) =
        (Analysis.check other).warnings.map (fun reported => (reported.position, reported.severity)) ∧
      ((Analysis.check one).errors = [] → ∃ program otherProgram,
        one.build = .ok program ∧ other.build = .ok otherProgram ∧
        ∀ (depthLimit : Nat) (input : Input) (output : Output) (fuel : Nat),
          (({ program, depthLimit, input, output } : Machine).run Machine.noHook fuel ()).InStep
            (({ program := otherProgram, depthLimit, input, output } : Machine).run Machine.noHook fuel ())) := by
  have grammatical := first.parse_grammatical file one parsed
  have otherGrammatical := second.parse_grammatical otherFile other otherParsed
  refine ⟨alike.places .error, alike.places .warning, fun noErrors => ?_⟩
  have wellFormed := (Analysis.errors_nil_iff grammatical).mp noErrors
  have otherWellFormed := (Analysis.errors_nil_iff otherGrammatical).mp (alike.accepted noErrors)
  obtain ⟨program, otherProgram, target, built, otherBuilt, carries, otherCarries⟩ :=
    alike.carried grammatical otherGrammatical wellFormed otherWellFormed
  refine ⟨program, otherProgram, built, otherBuilt, fun depthLimit input output fuel => ?_⟩
  have run := Respelling.run_carried carries fuel { program, depthLimit, input, output } rfl
  have otherRun := Respelling.run_carried otherCarries fuel { program := otherProgram, depthLimit, input, output } rfl
  exact Respelling.folding.in_step (run.symm.trans otherRun)

/-- A source in which names are declared in lower case and used in upper case. -/
def circle : Source := .ofText ".constant
k 7
.end-constant
.main
l: BIPUSH 0
LDC_W K
INVOKEVIRTUAL M
GOTO L
.end-main
.method m(p)
ILOAD P
IRETURN
.end-method
"

/-- The source with the case of its names turned. -/
def turnedCircle : Source := .ofText ".constant
K 7
.end-constant
.main
L: BIPUSH 0
LDC_W k
INVOKEVIRTUAL m
GOTO l
.end-main
.method M(P)
ILOAD p
IRETURN
.end-method
"

/-- The tree of both sources, where it is given how names are spelled at their declarations and at their uses. -/
def circleTree (declared used : Text → Text) : Tree :=
  { file := "c"
    constants := [{ position := ⟨2, 1, 10⟩, name := declared "k", value := "7" }]
    main := some
      { position := ⟨4, 1, 28⟩, name := "main", isMain := true
        statements := [
          .label ⟨5, 1, 34⟩ (declared "l"),
          .instruction ⟨5, 4, 37⟩ .bipush [⟨⟨5, 11, 44⟩, "0"⟩],
          .instruction ⟨6, 1, 46⟩ .ldcw [⟨⟨6, 7, 52⟩, used "k"⟩],
          .instruction ⟨7, 1, 54⟩ .invokevirtual [⟨⟨7, 15, 68⟩, used "m"⟩],
          .instruction ⟨8, 1, 70⟩ .goto [⟨⟨8, 6, 75⟩, used "l"⟩]] }
    methods := [
      { position := ⟨10, 1, 87⟩, name := declared "m", isMain := false
        params := [⟨⟨10, 11, 97⟩, declared "p"⟩]
        statements := [
          .instruction ⟨11, 1, 100⟩ .iload [⟨⟨11, 7, 106⟩, used "p"⟩],
          .instruction ⟨12, 1, 108⟩ .ireturn []] }] }

/-- The two sources are read to different trees, and their programs run in step. -/
theorem circles_in_step :
    circle.parse "c" = (circleTree id Text.fold, []) ∧ turnedCircle.parse "c" = (circleTree Text.fold id, []) ∧
      (circleTree id Text.fold).SpellsLike (circleTree Text.fold id) ∧
      (Analysis.check (circleTree id Text.fold)).errors = [] ∧
      ∃ program otherProgram, (circleTree id Text.fold).build = .ok program ∧
        (circleTree Text.fold id).build = .ok otherProgram ∧
        ∀ (depthLimit : Nat) (input : Input) (output : Output) (fuel : Nat),
          (({ program, depthLimit, input, output } : Machine).run Machine.noHook fuel ()).InStep
            (({ program := otherProgram, depthLimit, input, output } : Machine).run Machine.noHook fuel ()) := by
  have parsed : circle.parse "c" = (circleTree id Text.fold, []) := by decide +kernel
  have turnedParsed : turnedCircle.parse "c" = (circleTree Text.fold id, []) := by decide +kernel
  have alike : (circleTree id Text.fold).SpellsLike (circleTree Text.fold id) :=
    ⟨by decide +kernel, by decide +kernel, by decide +kernel⟩
  have noErrors : (Analysis.check (circleTree id Text.fold)).errors = [] := by decide +kernel
  have follows := spelling_immaterial circle turnedCircle "c" "c" _ _ parsed turnedParsed alike
  exact ⟨parsed, turnedParsed, alike, noErrors, follows.2.2 noErrors⟩

end IntegerMachine
