import IntegerMachine.Proofs.BlockCheck
import IntegerMachine.Proofs.Folding
import IntegerMachine.Proofs.ParseTree
import IntegerMachine.Proofs.Tables

/-!
# What analysis accepts

Analysis reports no error exactly for the well-formed trees among those without syntax errors. The three passes are
put together here. Each one presupposes that those before it found no error: then no block was left out, the
blocks have scopes of their own, and constants and methods are not called alike.
-/
namespace IntegerMachine.Analysis

open SymbolTable

/-- What the first pass reports and leaves behind. -/
def firstPass (tree : Tree) : SymbolTable × List Block × List Finding :=
  let constants := declareConstants {} tree.constants
  let blocks := declareBlocks constants.1 tree.blocks
  (blocks.1, blocks.2.1, constants.2 ++ blocks.2.2)

/-- The findings of analysis are those of the three passes, one behind the other. So they can be looked at pass by
pass, each with the table that the one before it has left. -/
theorem check_findings (tree : Tree) :
    (check tree).findings =
      let first := firstPass tree
      let second := collectLabels first.1 first.2.1
      first.2.2 ++ second.2.2 ++ (checkBlocks second.2.1 second.1 first.2.1).2 := rfl

/-- The labels that are kept for a scope of its own are those of its block. If two blocks had the same scope, only the
labels of the first would be found. -/
theorem lookup_labels (blocks : List Block) (scopes : (blocks.map scopeOf).Nodup) (block : Block)
    (member : block ∈ blocks) :
    (blocks.map fun block => (scopeOf block, block.labelNames)).lookup (scopeOf block) = some block.labelNames := by
  refine lookup_of_mem ?_ (List.mem_map.mpr ⟨block, member, rfl⟩)
  rwa [List.map_map]

/-- A main block and methods with different names have scopes of their own: the scope of the main block is no folded
name, as it has letters in lower case. -/
theorem scopes_nodup {main : Block} {methods : List Block} (isMain : main.isMain = true)
    (notMain : ∀ method ∈ methods, method.isMain = false)
    (distinct : (methods.map fun method => method.name.fold).Nodup) : ((main :: methods).map scopeOf).Nodup := by
  have mainScoped : scopeOf main = mainScope := by rw [scopeOf, isMain, if_pos rfl]
  have methodsScoped : methods.map scopeOf = methods.map fun method => method.name.fold := by
    refine List.map_congr_left fun method member => ?_
    rw [scopeOf, notMain method member]
    rfl
  rw [List.map_cons, mainScoped, methodsScoped, List.nodup_cons]
  refine ⟨fun member => ?_, distinct⟩
  obtain ⟨method, _, same⟩ := List.mem_map.mp member
  have folded : mainScope.fold = mainScope := by rw [← same, Text.fold_fold]
  exact absurd folded (by decide)

section Grammatical

variable {given : Token → Prop} {tree : Tree} (grammatical : Source.Grammatical given tree)

include grammatical

/-- The scopes of blocks are different from the global one: names are not empty. What a block declares is therefore
never taken for a constant or a method. -/
theorem scope_inner (block : Block) (member : block ∈ tree.blocks) : scopeOf block ≠ globalScope := by
  rw [scopeOf]
  cases isMain : block.isMain with
  | true => exact (by decide : mainScope ≠ globalScope)
  | false =>
    have named := (grammatical.block_from block member).named trivial isMain
    intro empty
    rw [isName, Text.characters_of_fold_nil block.name empty] at named
    cases named

/-- Blocks have scopes of their own if methods have different names. A tree without syntax errors has exactly one main
block, so that methods are the only ones that might clash. -/
theorem scopes_distinct (distinct : tree.methodNames.Nodup) : (tree.blocks.map scopeOf).Nodup := by
  obtain ⟨main, known, blocks⟩ := grammatical.blocks_eq
  rw [blocks]
  exact scopes_nodup (grammatical.contents.main main known).1
    (fun method member => (grammatical.contents.methods method member).1) distinct

/-- The first pass reports no error exactly if the values of constants are literals, constants and methods have
different names, and the parameters of each method have. It then leaves out no block and knows the constants and
methods. -/
theorem first_pass_spec :
    (Clean (firstPass tree).2.2 ↔ (∀ constant ∈ tree.constants, IsLiteral constant.value) ∧
      (tree.constantNames ++ tree.methodNames).Nodup ∧ ∀ method ∈ tree.methods, method.paramNames.Nodup) ∧
    (Clean (firstPass tree).2.2 → (firstPass tree).2.1 = tree.blocks ∧
      ∀ scope name, (firstPass tree).1.kind? scope name =
        if globalScope = scope ∧ name.fold ∈ tree.methodNames then some .method
        else if globalScope = scope ∧ name.fold ∈ tree.constantNames then some .constant else none) := by
  obtain ⟨cleanConstants, addsConstants⟩ := declare_constants_spec {} tree.constants
  obtain ⟨cleanMethods, addsMethods⟩ := declare_blocks_spec (declareConstants {} tree.constants).1 tree.blocks
  rw [grammatical.methods_eq] at cleanMethods addsMethods
  change (_ ↔ _ ∧ tree.constantNames.Nodup ∧ _) at cleanConstants
  change (_ → Adds .constant tree.constantNames _ _) at addsConstants
  change (_ ↔ _ ∧ tree.methodNames.Nodup ∧ _) at cleanMethods
  change (_ → _ ∧ Adds .method tree.methodNames _ _) at addsMethods
  have emptyKind : ∀ scope name, ({} : SymbolTable).kind? scope name = none := fun _ _ => rfl
  simp only [emptyKind, implies_true, and_true] at cleanConstants
  -- The names of methods are new exactly if no constant has them.
  have fresh (clean : Clean (declareConstants {} tree.constants).2) :
      (∀ method ∈ tree.methods, (declareConstants {} tree.constants).1.kind?
        (declareConstants {} tree.constants).1.scope method.name = none) ↔
      ∀ constant ∈ tree.constantNames, ∀ method ∈ tree.methodNames, constant ≠ method := by
    simp only [(addsConstants clean).unknown_iff, emptyKind, and_true]
    constructor
    · rintro unknown constant isConstant _ isMethod rfl
      obtain ⟨method, member, same⟩ := List.mem_map.mp isMethod
      exact unknown method member (same ▸ isConstant)
    · intro different method member isConstant
      exact different _ isConstant _ (List.mem_map.mpr ⟨method, member, rfl⟩) rfl
  change (Clean (_ ++ _) ↔ _) ∧ (Clean (_ ++ _) → _)
  rw [clean_append, List.nodup_append]
  constructor
  · constructor
    · rintro ⟨clean, cleanRest⟩
      obtain ⟨params, distinct, unknown⟩ := cleanMethods.mp cleanRest
      obtain ⟨literals, distinctConstants⟩ := cleanConstants.mp clean
      exact ⟨literals, ⟨distinctConstants, distinct, (fresh clean).mp unknown⟩, params⟩
    · rintro ⟨literals, ⟨distinctConstants, distinct, different⟩, params⟩
      have clean := cleanConstants.mpr ⟨literals, distinctConstants⟩
      exact ⟨clean, cleanMethods.mpr ⟨params, distinct, (fresh clean).mpr different⟩⟩
  · rintro ⟨clean, cleanRest⟩
    obtain ⟨kept, adds⟩ := addsMethods cleanRest
    refine ⟨kept, fun scope name => ?_⟩
    have inGlobal : (declareConstants {} tree.constants).1.scope = globalScope := (addsConstants clean).scope
    have added := adds.kinds scope name
    rw [(addsConstants clean).kinds, inGlobal] at added
    exact added

/-- Behind a first pass without errors, the table is ready for the third pass once labels are collected: of a block it
knows its labels, and globally the constants and methods of the tree. -/
theorem ready_for_blocks (clean : Clean (firstPass tree).2.2) (block : Block) (member : block ∈ tree.blocks) :
    Ready tree (collectLabels (firstPass tree).1 tree.blocks).1 block := by
  obtain ⟨cleanFirst, known⟩ := first_pass_spec grammatical
  obtain ⟨_, distinct, _⟩ := cleanFirst.mp clean
  obtain ⟨_, _, different⟩ := List.nodup_append.mp distinct
  have inner := scope_inner grammatical
  refine ⟨inner block member, fun name => ?_, fun name => ?_⟩
  · rcases collect_labels_kind (firstPass tree).1 tree.blocks globalScope name with same | ⟨inBlock, _⟩
    · rw [same, (known clean).2]
      by_cases constant : name.fold ∈ tree.constantNames
      · have notMethod : name.fold ∉ tree.methodNames := fun method => different _ constant _ method rfl
        simp [constant, notMethod]
      · simp [constant]
    · obtain ⟨other, listed, isGlobal⟩ := List.mem_map.mp inBlock
      exact absurd isGlobal (inner other listed)
  · rcases collect_labels_kind (firstPass tree).1 tree.blocks (scopeOf block) name with same | ⟨_, labelled⟩
    · rw [same, (known clean).2]
      simp [(inner block member).symm]
    · exact .inr labelled

/-- Behind a first pass without errors, the other passes report none exactly if the labels of each block are different
and each block is faultless. The first pass has to come out clean, as otherwise blocks could be missing from the other
two. -/
theorem later_passes_spec (clean : Clean (firstPass tree).2.2) :
    let second := collectLabels (firstPass tree).1 tree.blocks
    Clean second.2.2 ∧ Clean (checkBlocks second.2.1 second.1 tree.blocks).2 ↔
      (∀ block ∈ tree.blocks, block.labelNames.Nodup) ∧ ∀ block ∈ tree.blocks, Faultless tree block := by
  intro second
  obtain ⟨cleanFirst, known⟩ := first_pass_spec grammatical
  obtain ⟨_, distinct, _⟩ := cleanFirst.mp clean
  obtain ⟨_, distinctMethods, different⟩ := List.nodup_append.mp distinct
  have scopes := scopes_distinct grammatical distinctMethods
  have unlabelled : ∀ block ∈ tree.blocks, ∀ name, (firstPass tree).1.kind? (scopeOf block) name ≠ some .label := by
    intro block member name
    rw [(known clean).2]
    simp [(scope_inner grammatical block member).symm]
  obtain ⟨cleanLabels, labels⟩ := collect_labels_spec (firstPass tree).1 tree.blocks scopes unlabelled
  have third (cleanSecond : Clean second.2.2) :
      Clean (checkBlocks second.2.1 second.1 tree.blocks).2 ↔ ∀ block ∈ tree.blocks, Faultless tree block := by
    refine check_blocks_spec (fun name constant method => different name constant name method rfl) second.2.1
      tree.blocks scopes ?_ grammatical.instruction_shape second.1 (ready_for_blocks grammatical clean)
    intro block member
    rw [labels cleanSecond]
    exact lookup_labels tree.blocks scopes block member
  constructor
  · rintro ⟨cleanSecond, cleanThird⟩
    exact ⟨cleanLabels.mp cleanSecond, (third cleanSecond).mp cleanThird⟩
  · rintro ⟨distinctLabels, faultless⟩
    have cleanSecond := cleanLabels.mpr distinctLabels
    exact ⟨cleanSecond, (third cleanSecond).mpr faultless⟩

/-- A return of a block has no operands. -/
theorem return_operands (block : Block) (member : block ∈ tree.blocks) (before : List Statement)
    (operands : List Ident) (has : block.Has before .ireturn operands) : operands = [] := by
  obtain ⟨position, after, split⟩ := has
  have listed : .instruction position .ireturn operands ∈ block.statements := by simp [split]
  exact List.length_eq_zero_iff.mp (grammatical.instruction_shape block member position .ireturn operands listed).2

/-- The parameters of all blocks have different names if those of the methods have: the main block has none. -/
theorem params_distinct (methods : ∀ method ∈ tree.methods, method.paramNames.Nodup) (block : Block)
    (member : block ∈ tree.blocks) : block.paramNames.Nodup := by
  rcases List.mem_append.mp member with main | method
  · obtain ⟨isMain, sound⟩ := grammatical.contents.main block (Option.mem_toList.mp main)
    rw [Block.paramNames, (sound.main isMain).1]
    exact List.nodup_nil
  · exact methods block method

/-- Analysis of a tree without syntax errors reports no error exactly if the tree is well-formed. Both directions go
pass by pass; an error of the first pass already excludes that the tree is well-formed, so the later ones need only be
looked at behind a clean first pass. -/
theorem errors_nil_iff : (check tree).errors = [] ↔ tree.WellFormed := by
  change Clean (check tree).findings ↔ _
  obtain ⟨cleanFirst, known⟩ := first_pass_spec grammatical
  have later (clean : Clean (firstPass tree).2.2) := later_passes_spec grammatical clean
  rw [check_findings]
  dsimp only at later ⊢
  rw [clean_append, clean_append, and_assoc]
  constructor
  · rintro ⟨clean, cleanRest⟩
    rw [(known clean).1, later clean] at cleanRest
    obtain ⟨values, globals, params⟩ := cleanFirst.mp clean
    obtain ⟨labels, faultless⟩ := cleanRest
    refine ⟨values, globals, fun block member => ?_, fun method member => ?_⟩
    · have own := faultless block member
      refine (well_formed_iff tree block).mpr ⟨?_, labels block member, own.placement, own.instructions⟩
      exact (local_names_nodup_iff block).mpr
        ⟨params_distinct grammatical params block member, own.distinct, own.apart⟩
    · have listed : method ∈ tree.blocks := List.mem_append_right _ member
      have notMain := (grammatical.contents.methods method member).1
      rcases (faultless method listed).returns with isMain | ⟨before, operands, has⟩
      · rw [notMain] at isMain
        cases isMain
      · exact ⟨before, return_operands grammatical method listed before operands has ▸ has⟩
  · intro wellFormed
    have locals (block : Block) (member : block ∈ tree.blocks) :=
      (local_names_nodup_iff block).mp (wellFormed.blocks block member).locals
    have clean := cleanFirst.mpr ⟨wellFormed.values, wellFormed.globals,
      fun method member => (locals method (List.mem_append_right _ member)).1⟩
    rw [(known clean).1, later clean]
    refine ⟨clean, fun block member => (wellFormed.blocks block member).labels, fun block member => ?_⟩
    obtain ⟨_, distinct, apart⟩ := locals block member
    obtain ⟨_, _, placement, instructions⟩ := (well_formed_iff tree block).mp (wellFormed.blocks block member)
    refine ⟨distinct, apart, placement, instructions, ?_⟩
    rcases List.mem_append.mp member with main | method
    · exact .inl (grammatical.contents.main block (Option.mem_toList.mp main)).1
    · obtain ⟨before, has⟩ := wellFormed.returns block method
      exact .inr ⟨before, [], has⟩

end Grammatical

/-- A source in which a label is called like a variable and names are written in both cases. -/
def sample : Source := .ofText ".constant
k 1
.end-constant
.main
.var
x
.end-var
LDC_W K
ISTORE x
X: BIPUSH 0
ILOAD X
INVOKEVIRTUAL m
IFEQ x
HALT
.end-main
.method m(a)
ILOAD A
IRETURN
.end-method
"

/-- The sample has no errors. -/
theorem sample_accepted : (sample.parse "s").2 = [] ∧ (check (sample.parse "s").1).errors = [] := by
  decide +kernel

/-- For every source that is read without syntax errors, analysis reports no error exactly if the tree is well-formed.
Well-formedness is said of the tree alone, without passes, symbol tables or scopes; warnings play no part. -/
theorem no_errors_iff_well_formed (source : Source) (file : Text) (tree : Tree)
    (parsed : source.parse file = (tree, [])) : (check tree).errors = [] ↔ tree.WellFormed :=
  errors_nil_iff (source.parse_grammatical file tree parsed)

/-- The tree of the sample is well-formed, although a label of it is called like a variable and its names are spelled
in two ways. -/
theorem sample_well_formed : (sample.parse "s").2 = [] ∧ (sample.parse "s").1.WellFormed := by
  have parsed := sample.parse_eq "s" sample_accepted.1
  exact ⟨sample_accepted.1, (no_errors_iff_well_formed sample "s" _ parsed).mp sample_accepted.2⟩

end IntegerMachine.Analysis
