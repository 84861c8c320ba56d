import IntegerMachine.Proofs.Acceptance
import IntegerMachine.Proofs.Isolation

/-!
# Visits of blocks

Analysis comes to each block once in every pass: it declares the block, collects its labels and checks it. What it
finds altogether is what it finds about the constants and then at its visits, pass by pass.

Scopes do not leak: apart from the hint where a label of another block is mentioned, what is found at the visits of a
block depends on the constants, on the headers of all blocks and on the block itself. The headers decide what is
declared in the global scope and which blocks are left out, and the blocks that are not have scopes of their own.
-/
namespace IntegerMachine

/-- A block without its body: what other blocks may know about it. -/
def Block.header (block : Block) : Block := { block with vars := [], statements := [] }

namespace Analysis

open SymbolTable

/-- What analysis finds while it is at a block, in each of its passes. -/
structure Visit where
  declared : List Finding
  labelled : List Finding
  checked : List Finding
  deriving DecidableEq, Repr

/-- A visit without the hints that mention labels of other blocks. -/
def Visit.withoutHints (visit : Visit) : Visit := { visit with checked := visit.checked.map Finding.withoutHint }

/-- The first pass over the constants of a tree and over some blocks. -/
def declareUpTo (tree : Tree) (blocks : List Block) : SymbolTable × List Block × List Finding :=
  declareBlocks (declareConstants {} tree.constants).1 blocks

/-- The visit of a block of a tree, where the blocks in front of it are given. A block that is left out by the first
pass is not visited by the others. -/
def visit (tree : Tree) (before : List Block) (block : Block) : Visit :=
  let earlier := declareUpTo tree before
  let own := declareBlocks earlier.1 [block]
  let first := firstPass tree
  let second := collectLabels first.1 first.2.1
  { declared := own.2.2
    labelled := (collectLabels (collectLabels first.1 earlier.2.1).1 own.2.1).2.2
    checked := (checkBlocks second.2.1 (checkBlocks second.2.1 second.1 earlier.2.1).1 own.2.1).2 }

/-- The visits of blocks of a tree, where the blocks in front of them are given. -/
def visitsFrom (tree : Tree) (before : List Block) : List Block → List Visit
  | [] => []
  | block :: rest => visit tree before block :: visitsFrom tree (before ++ [block]) rest

/-- The visits of all blocks of a tree. -/
def visits (tree : Tree) : List Visit := visitsFrom tree [] tree.blocks

/-! ## Passes over some blocks and then over others -/

/-- The first pass over some blocks and then over others is the pass over all of them. The table is handed on, and
findings are put together. -/
theorem declare_blocks_append (table : SymbolTable) (first second : List Block) :
    declareBlocks table (first ++ second) =
      let earlier := declareBlocks table first
      let later := declareBlocks earlier.1 second
      (later.1, earlier.2.1 ++ later.2.1, earlier.2.2 ++ later.2.2) := by
  induction first generalizing table with
  | nil => rfl
  | cons block rest ih =>
    simp only [List.cons_append, declareBlocks, ih]
    cases block.isMain with
    | true => rfl
    | false => cases (declareMethod table block).1 <;> simp

/-- The second pass over some blocks and then over others is the pass over all of them. -/
theorem collect_labels_append (table : SymbolTable) (first second : List Block) :
    collectLabels table (first ++ second) =
      let earlier := collectLabels table first
      let later := collectLabels earlier.1 second
      (later.1, earlier.2.1 ++ later.2.1, earlier.2.2 ++ later.2.2) := by
  induction first generalizing table with
  | nil => rfl
  | cons block rest ih => simp only [List.cons_append, collect_labels_cons, ih, List.append_assoc]

/-- The third pass over some blocks and then over others is the pass over all of them. -/
theorem check_blocks_append (labels : Labels) (table : SymbolTable) (first second : List Block) :
    checkBlocks labels table (first ++ second) =
      let earlier := checkBlocks labels table first
      let later := checkBlocks labels earlier.1 second
      (later.1, earlier.2 ++ later.2) := by
  induction first generalizing table with
  | nil => rfl
  | cons block rest ih => simp only [List.cons_append, checkBlocks, ih, List.append_assoc]

/-- What a pass finds up to the end of some blocks is put together from their visits, if this is so for one block. The
three passes are cases of it. -/
theorem visits_add_up (tree : Tree) (upTo : List Block → List Finding) (part : Visit → List Finding)
    (step : ∀ before block, upTo (before ++ [block]) = upTo before ++ part (visit tree before block))
    (before rest : List Block) :
    upTo (before ++ rest) = upTo before ++ (visitsFrom tree before rest).flatMap part := by
  induction rest generalizing before with
  | nil => simp [visitsFrom]
  | cons block rest ih =>
    have later := ih (before ++ [block])
    rw [List.append_assoc, List.singleton_append, step] at later
    rw [later, visitsFrom, List.flatMap_cons, List.append_assoc]

/-- What the first pass finds about blocks is what is declared at the visits. The constants come before all blocks and
are not among it. -/
theorem declared_add_up (tree : Tree) :
    (declareUpTo tree tree.blocks).2.2 = (visits tree).flatMap Visit.declared := by
  refine visits_add_up tree (fun blocks => (declareUpTo tree blocks).2.2) Visit.declared (fun before block => ?_) []
    tree.blocks
  rw [declareUpTo, declare_blocks_append]
  rfl

/-- What the second pass finds is what is found about labels at the visits. A block that was left out contributes
nothing, since its visit has no such findings. -/
theorem labelled_add_up (tree : Tree) :
    (collectLabels (firstPass tree).1 (firstPass tree).2.1).2.2 = (visits tree).flatMap Visit.labelled := by
  refine visits_add_up tree (fun blocks => (collectLabels (firstPass tree).1 (declareUpTo tree blocks).2.1).2.2)
    Visit.labelled (fun before block => ?_) [] tree.blocks
  rw [declareUpTo, declare_blocks_append]
  dsimp only
  rw [collect_labels_append]
  rfl

/-- What the third pass finds is what is checked at the visits. The labels of all blocks are known by then, and are
the same at every visit. -/
theorem checked_add_up (tree : Tree) :
    let second := collectLabels (firstPass tree).1 (firstPass tree).2.1
    (checkBlocks second.2.1 second.1 (firstPass tree).2.1).2 = (visits tree).flatMap Visit.checked := by
  intro second
  refine visits_add_up tree (fun blocks => (checkBlocks second.2.1 second.1 (declareUpTo tree blocks).2.1).2)
    Visit.checked (fun before block => ?_) [] tree.blocks
  rw [declareUpTo, declare_blocks_append]
  dsimp only
  rw [check_blocks_append]
  rfl

/-- What analysis finds is what it finds about the constants and at its visits, pass by pass. The findings of one
block are therefore not next to each other. -/
theorem check_findings_visits (tree : Tree) :
    (check tree).findings = (declareConstants {} tree.constants).2 ++ (visits tree).flatMap Visit.declared ++
      (visits tree).flatMap Visit.labelled ++ (visits tree).flatMap Visit.checked := by
  rw [← declared_add_up, ← labelled_add_up, ← checked_add_up]
  rfl

/-- The visit at an index is that of the block there, behind the blocks in front of it. There are as many visits as
blocks, in the same order. -/
theorem visits_from_get (tree : Tree) (before rest : List Block) (index : Nat) :
    (visitsFrom tree before rest)[index]? = (rest[index]?).map (visit tree (before ++ rest.take index)) := by
  induction rest generalizing before index with
  | nil => rfl
  | cons block rest ih =>
    cases index with
    | zero => simp [visitsFrom]
    | succ index => simp [visitsFrom, ih]

/-! ## Headers -/

/-- The first pass looks at the headers of blocks only. It keeps blocks with their bodies, but does not look into
them. -/
theorem declare_blocks_header (table : SymbolTable) (blocks : List Block) :
    declareBlocks table (blocks.map Block.header) =
      ((declareBlocks table blocks).1, (declareBlocks table blocks).2.1.map Block.header,
        (declareBlocks table blocks).2.2) := by
  induction blocks generalizing table with
  | nil => rfl
  | cons block rest ih =>
    have isMain : block.header.isMain = block.isMain := rfl
    have method : declareMethod table block.header = declareMethod table block := rfl
    simp only [List.map_cons, declareBlocks, isMain, method, ih]
    cases block.isMain with
    | true => rfl
    | false => cases (declareMethod table block).1 <;> rfl

/-- Blocks with the same headers are declared alike. The blocks that are kept may differ in their bodies, which is why
only the table is compared. -/
theorem declare_blocks_alike {one other : List Block} (headers : one.map Block.header = other.map Block.header)
    (table : SymbolTable) : (declareBlocks table one).1 = (declareBlocks table other).1 := by
  have declared := declare_blocks_header table one
  rw [headers, declare_blocks_header] at declared
  exact (congrArg Prod.fst declared).symm

/-- A single block is left out or not. The main block never is, and a method is if its name is taken. -/
theorem declare_block_kept (table : SymbolTable) (block : Block) :
    (declareBlocks table [block]).2.1 = [] ∨ (declareBlocks table [block]).2.1 = [block] := by
  simp only [declareBlocks]
  cases block.isMain with
  | true => exact .inr rfl
  | false => cases (declareMethod table block).1 <;> simp

/-- The blocks that are not left out are some of the blocks, in their order. What holds of all blocks therefore holds
of them. -/
theorem declare_blocks_sublist (table : SymbolTable) (blocks : List Block) :
    (declareBlocks table blocks).2.1.Sublist blocks := by
  induction blocks generalizing table with
  | nil => exact .slnil
  | cons block rest ih =>
    simp only [declareBlocks]
    cases block.isMain with
    | true => exact (ih table).cons_cons block
    | false =>
      cases (declareMethod table block).1 with
      | true => exact (ih _).cons_cons block
      | false => exact (ih _).cons block

/-- The methods that are not left out have names that are different and new. A method whose name was taken by a
constant or by an earlier method is left out. -/
theorem declare_blocks_distinct (table : SymbolTable) (methods : List Block)
    (notMain : ∀ method ∈ methods, method.isMain = false) :
    ((declareBlocks table methods).2.1.map fun method => method.name.fold).Nodup ∧
      ∀ method ∈ (declareBlocks table methods).2.1, table.kind? table.scope method.name = none := by
  induction methods generalizing table with
  | nil => exact ⟨List.nodup_nil, by simp [declareBlocks]⟩
  | cons method rest ih =>
    rw [List.forall_mem_cons] at notMain
    cases known : table.lookupLocal? method.name with
    | some symbol =>
      have leftOut : (declareBlocks table (method :: rest)).2.1 = (declareBlocks table rest).2.1 := by
        simp [declareBlocks, notMain.1, declareMethod, known]
      rw [leftOut]
      exact ih table notMain.2
    | none =>
      have kept : (declareBlocks table (method :: rest)).2.1 = method :: (declareBlocks (table.add method.name
          method.position (.method (distinctParams method.name [] method.params).1)) rest).2.1 := by
        simp [declareBlocks, notMain.1, declareMethod, known]
      have added : Adds .method [method.name.fold] table _ := Adds.add table method.name method.position
        (.method (distinctParams method.name [] method.params).1)
      have fresh := (lookup_local_none table method.name).mp known
      rw [kept]
      exact (unknown_distinct_cons Block.name method _ added).mpr ⟨fresh, ih _ notMain.2⟩

/-- Declaring constants adds no variables to the global scope. -/
theorem declare_constants_none (table : SymbolTable) (constants : List ConstantDecl)
    (none : NoGlobalVariables table.symbols) : NoGlobalVariables (declareConstants table constants).1.symbols := by
  induction constants generalizing table with
  | nil => exact none
  | cons constant rest ih =>
    refine ih (declareConstant table constant).1 ?_
    rw [declareConstant]
    cases Literal.parse constant.value with
    | error error => exact none
    | ok value =>
      cases table.lookupLocal? constant.name with
      | some symbol => exact none
      | none => exact none.add_other (by decide : SymbolKind.constant ≠ .localVariable)

/-- Declaring methods adds no variables to the global scope either. Without any there, a store cannot go past the
scope of its own block. -/
theorem declare_blocks_none (table : SymbolTable) (blocks : List Block) (none : NoGlobalVariables table.symbols) :
    NoGlobalVariables (declareBlocks table blocks).1.symbols := by
  induction blocks generalizing table with
  | nil => exact none
  | cons block rest ih =>
    have method : NoGlobalVariables (declareMethod table block).2.1.symbols := by
      rw [declareMethod]
      cases table.lookupLocal? block.name with
      | some symbol => exact none
      | none => exact none.add_other (by decide : SymbolKind.method ≠ .localVariable)
    simp only [declareBlocks]
    cases block.isMain with
    | true => exact ih table none
    | false => exact ih _ method

/-! ## A block among blocks with other scopes -/

/-- Every block that labels were collected for has an entry under its scope, also if it has no labels. -/
theorem collect_labels_scopes (table : SymbolTable) (blocks : List Block) :
    (collectLabels table blocks).2.1.map Prod.fst = blocks.map scopeOf := by
  induction blocks generalizing table with
  | nil => rfl
  | cons block rest ih => simp only [collect_labels_cons, List.map_cons, ih]

/-- The labels of a block depend on what is seen from its scope. Two tables that look alike from there give the same
labels, the same findings, and tables that still look alike. -/
theorem declare_labels_seen {one other : SymbolTable} {scope : Text} (same : one.seen scope = other.seen scope)
    (statements : List Statement) :
    (declareLabels (one.enter scope) statements).2 = (declareLabels (other.enter scope) statements).2 ∧
      (declareLabels (one.enter scope) statements).1.seen scope =
        (declareLabels (other.enter scope) statements).1.seen scope := by
  have visible : (one.enter scope).visible = (other.enter scope).visible :=
    congrArg (fun symbols => ({ symbols, scope } : SymbolTable)) same
  have declared := declare_labels_visible (one.enter scope) statements
  rw [visible, declare_labels_visible, Prod.mk.injEq] at declared
  have symbols := congrArg SymbolTable.symbols declared.1
  change SymbolTable.seen _ _ = SymbolTable.seen _ _ at symbols
  rw [(declare_labels_edits _ statements).scope, (declare_labels_edits _ statements).scope] at symbols
  exact ⟨declared.2.symm, symbols.symm⟩

/-- Blocks around a block have other scopes than it has, and none has the global one. What they change is therefore
not seen from the block. -/
theorem scopes_around {before after : List Block} {block : Block}
    (distinct : ((before ++ block :: after).map scopeOf).Nodup)
    (inner : ∀ other ∈ before ++ block :: after, scopeOf other ≠ globalScope) :
    (∀ other ∈ before, scopeOf other ≠ scopeOf block ∧ scopeOf other ≠ globalScope) ∧
      ∀ other ∈ after, scopeOf other ≠ scopeOf block ∧ scopeOf other ≠ globalScope := by
  rw [List.map_append, List.map_cons, List.nodup_append, List.nodup_cons] at distinct
  obtain ⟨-, ⟨absent, -⟩, apart⟩ := distinct
  constructor
  · intro other member
    refine ⟨?_, inner other (List.mem_append_left _ member)⟩
    exact apart _ (List.mem_map.mpr ⟨other, member, rfl⟩) _ List.mem_cons_self
  · intro other member
    refine ⟨fun same => ?_, inner other (List.mem_append_right _ (List.mem_cons_of_mem _ member))⟩
    exact absent (List.mem_map.mpr ⟨other, member, same⟩)

section Around

variable {before after : List Block} {block : Block} (distinct : ((before ++ block :: after).map scopeOf).Nodup)
  (inner : ∀ other ∈ before ++ block :: after, scopeOf other ≠ globalScope) (table : SymbolTable)
  (none : NoGlobalVariables table.symbols)

include distinct inner none

/-- What the second pass finds in a block, which labels it keeps for it and what is seen from its scope afterwards
does not depend on the blocks around it. Those in front do not change what it sees, and those behind do not change it
afterwards. -/
theorem collect_labels_alone :
    let alone := declareLabels (table.enter (scopeOf block)) block.statements
    let second := collectLabels table (before ++ block :: after)
    (collectLabels (collectLabels table before).1 [block]).2.2 = alone.2.2 ∧
      second.1.seen (scopeOf block) = alone.1.seen (scopeOf block) ∧
      second.2.1.lookup (scopeOf block) = some alone.2.1 ∧ NoGlobalVariables second.1.symbols := by
  intro alone second
  obtain ⟨apartBefore, apartAfter⟩ := scopes_around distinct inner
  have innerBlock := inner block (List.mem_append_right _ List.mem_cons_self)
  have sameBefore := collect_labels_unseen before apartBefore table none
  obtain ⟨sameLabels, sameSeen⟩ := declare_labels_seen sameBefore block.statements
  -- The labels of the block are declared behind those of the blocks in front of it.
  have split : second = _ := collect_labels_append table before (block :: after)
  dsimp only at split
  rw [collect_labels_cons] at split
  refine ⟨?_, ?_, ?_, ?_⟩
  · exact (List.append_nil _).trans (congrArg Prod.snd sameLabels)
  · have edits := declare_labels_edits ((collectLabels table before).1.enter (scopeOf block)) block.statements
    have noneBefore := none.of_seen sameBefore
    have noneOwn : NoGlobalVariables (declareLabels _ block.statements).1.exit.symbols :=
      noneBefore.of_seen (edits.unseen innerBlock innerBlock noneBefore)
    rw [split]
    exact (collect_labels_unseen after apartAfter _ noneOwn).trans sameSeen
  · refine lookup_of_mem ?_ ?_
    · rw [collect_labels_scopes]
      exact distinct
    · rw [split, ← congrArg Prod.fst sameLabels]
      exact List.mem_append_right _ List.mem_cons_self
  · have apart : ∀ other ∈ before ++ block :: after, scopeOf other ≠ globalScope ∧ scopeOf other ≠ globalScope :=
      fun other member => ⟨inner other member, inner other member⟩
    exact none.of_seen (collect_labels_unseen _ apart table none)

/-- What the third pass finds in a block, apart from hints, does not depend on the blocks in front of it. It is enough
to give it the symbols that are seen from its scope and the labels of its own. -/
theorem check_block_alone (labels : Labels) :
    (checkBlocks labels (checkBlocks labels table before).1 [block]).2.map Finding.withoutHint =
      (checkBlock (Labels.only labels (scopeOf block)) { symbols := table.seen (scopeOf block) } block).2 := by
  obtain ⟨apartBefore, -⟩ := scopes_around distinct inner
  have single : (checkBlocks labels (checkBlocks labels table before).1 [block]).2 =
      (checkBlock labels (checkBlocks labels table before).1 block).2 := List.append_nil _
  rw [single, check_block_only, check_blocks_unseen labels before apartBefore table none]

end Around

/-- The visit of a block as if there were no blocks around it. The table is the one that the first pass leaves behind,
and what this pass has made of the block is given. -/
def visitAlone (table : SymbolTable) (own : SymbolTable × List Block × List Finding) (block : Block) : Visit :=
  let labelled := declareLabels (table.enter (scopeOf block)) block.statements
  if own.2.1.isEmpty then { declared := own.2.2, labelled := [], checked := [] }
  else
    { declared := own.2.2
      labelled := labelled.2.2
      checked := (checkBlock [(scopeOf block, labelled.2.1)] { symbols := labelled.1.seen (scopeOf block) } block).2 }

/-- A block that is not left out stands behind those of the blocks in front of it that are not left out. By this its
place among the blocks of the tree becomes its place among those that are visited. -/
theorem first_pass_split {tree : Tree} {index : Nat} {block : Block} (known : tree.blocks[index]? = some block)
    (kept : (declareBlocks (declareUpTo tree (tree.blocks.take index)).1 [block]).2.1 = [block]) :
    ∃ later, (firstPass tree).2.1 = (declareUpTo tree (tree.blocks.take index)).2.1 ++ block :: later := by
  have appended (table : SymbolTable) (first second : List Block) : (declareBlocks table (first ++ second)).2.1 =
      (declareBlocks table first).2.1 ++ (declareBlocks (declareBlocks table first).1 second).2.1 :=
    congrArg (fun passed => passed.2.1) (declare_blocks_append table first second)
  have split : tree.blocks = tree.blocks.take index ++ ([block] ++ tree.blocks.drop (index + 1)) := by
    rw [← Option.toList_some, ← known, ← List.append_assoc, ← List.take_add_one, List.take_append_drop]
  have passed := appended (declareConstants {} tree.constants).1 (tree.blocks.take index)
    ([block] ++ tree.blocks.drop (index + 1))
  rw [declareUpTo] at kept
  rw [← split, appended, kept, List.singleton_append] at passed
  exact ⟨_, passed⟩

section Grammatical

variable {given : Token → Prop} {tree : Tree} (grammatical : Source.Grammatical given tree)

include grammatical

/-- The blocks that are not left out have scopes of their own, none of which is the global one. The scope of the main
block is no name, and methods that share a name with an earlier one are left out. -/
theorem kept_scopes : ((firstPass tree).2.1.map scopeOf).Nodup ∧
    ∀ block ∈ (firstPass tree).2.1, scopeOf block ≠ globalScope := by
  obtain ⟨main, known, blocks⟩ := grammatical.blocks_eq
  have isMain := (grammatical.contents.main main known).1
  have notMain : ∀ method ∈ tree.methods, method.isMain = false :=
    fun method member => (grammatical.contents.methods method member).1
  constructor
  · have kept : (firstPass tree).2.1 =
        main :: (declareBlocks (declareConstants {} tree.constants).1 tree.methods).2.1 := by
      simp only [firstPass, blocks, declareBlocks, isMain, if_true]
    obtain ⟨distinct, -⟩ := declare_blocks_distinct (declareConstants {} tree.constants).1 tree.methods notMain
    rw [kept]
    refine scopes_nodup isMain (fun method member => notMain method ?_) distinct
    exact (declare_blocks_sublist _ tree.methods).subset member
  · intro block member
    exact scope_inner grammatical block ((declare_blocks_sublist _ tree.blocks).subset member)

/-- Apart from hints, the visit of a block is the one that it would get alone. The first pass, which does depend on
the others, comes in through the table that it leaves and through what it has made of this block. -/
theorem visit_alone {index : Nat} {block : Block} (known : tree.blocks[index]? = some block) :
    (visit tree (tree.blocks.take index) block).withoutHints =
      visitAlone (firstPass tree).1 (declareBlocks (declareUpTo tree (tree.blocks.take index)).1 [block]) block := by
  -- A block that is left out has no scope of its own: another method may have its name.
  rcases declare_block_kept (declareUpTo tree (tree.blocks.take index)).1 block with leftOut | kept
  · simp [visit, visitAlone, leftOut, Visit.withoutHints, collectLabels, checkBlocks]
  · obtain ⟨later, passed⟩ := first_pass_split known kept
    obtain ⟨distinct, inner⟩ := kept_scopes grammatical
    have none : NoGlobalVariables (firstPass tree).1.symbols :=
      declare_blocks_none _ _ (declare_constants_none _ _ (by simp [NoGlobalVariables]))
    rw [passed] at distinct inner
    obtain ⟨labelled, sameSeen, ownLabels, noneLater⟩ := collect_labels_alone distinct inner _ none
    rw [← passed] at sameSeen ownLabels noneLater
    have checked := check_block_alone distinct inner _ noneLater
      (collectLabels (firstPass tree).1 (firstPass tree).2.1).2.1
    rw [Labels.only, ownLabels, sameSeen] at checked
    simp only [visit, visitAlone, kept, Visit.withoutHints, labelled, checked]
    rfl

end Grammatical

/-- Scopes do not leak: for two sources that are read without syntax errors to trees with the same constants and the
same headers of blocks, and for a block that stands at the same place in both, the visits of the block find the same in
each pass and in the same order, apart from the hints that mention labels of other blocks. What is found altogether is
what is found about the constants and at the visits of the blocks, pass by pass. -/
theorem visit_independent (source otherSource : Source) (file otherFile : Text) (tree other : Tree)
    (parsed : source.parse file = (tree, [])) (otherParsed : otherSource.parse otherFile = (other, []))
    (constants : tree.constants = other.constants)
    (headers : tree.blocks.map Block.header = other.blocks.map Block.header) (index : Nat) (block : Block)
    (known : tree.blocks[index]? = some block) (otherKnown : other.blocks[index]? = some block) :
    (∀ read ∈ [tree, other], (check read).findings = (declareConstants {} read.constants).2 ++
        (visits read).flatMap Visit.declared ++ (visits read).flatMap Visit.labelled ++
        (visits read).flatMap Visit.checked) ∧
      ∃ visit otherVisit, (visits tree)[index]? = some visit ∧ (visits other)[index]? = some otherVisit ∧
        visit.withoutHints = otherVisit.withoutHints := by
  have grammatical := source.parse_grammatical file tree parsed
  have otherGrammatical := otherSource.parse_grammatical otherFile other otherParsed
  refine ⟨fun read _ => check_findings_visits read, visit tree (tree.blocks.take index) block,
    visit other (other.blocks.take index) block, ?_, ?_, ?_⟩
  · rw [visits, visits_from_get, known, Option.map_some, List.nil_append]
  · rw [visits, visits_from_get, otherKnown, Option.map_some, List.nil_append]
  · have inFront : (tree.blocks.take index).map Block.header = (other.blocks.take index).map Block.header := by
      rw [List.map_take, List.map_take, headers]
    have first : (firstPass tree).1 = (firstPass other).1 := by
      simp only [firstPass, constants, declare_blocks_alike headers]
    rw [visit_alone grammatical known, visit_alone otherGrammatical otherKnown, first, declareUpTo, declareUpTo,
      constants, declare_blocks_alike inFront]

/-- A source whose second method uses a variable and a label of the first one. -/
def borrower : Source := .ofText ".main
HALT
.end-main
.method f()
.var
x
.end-var
l: BIPUSH 0
ISTORE x
ILOAD x
IRETURN
.end-method
.method g()
ILOAD x
GOTO l
IRETURN
.end-method
"

/-- The source with other names for the variable and the label of the first method. -/
def deprivedBorrower : Source := .ofText ".main
HALT
.end-main
.method f()
.var
y
.end-var
k: BIPUSH 0
ISTORE y
ILOAD y
IRETURN
.end-method
.method g()
ILOAD x
GOTO l
IRETURN
.end-method
"

/-- The tree of both sources, where the names of the variable and the label of the first method are given. -/
def borrowerTree (declared label : Text) : Tree :=
  { file := "b"
    main := some
      { position := ⟨1, 1, 0⟩, name := "main", isMain := true
        statements := [.instruction ⟨2, 1, 6⟩ .halt []] }
    methods := [
      { position := ⟨4, 1, 21⟩, name := "f", isMain := false
        vars := [{ position := ⟨5, 1, 33⟩, names := [⟨⟨6, 1, 38⟩, declared⟩] }]
        statements := [
          .label ⟨8, 1, 49⟩ label,
          .instruction ⟨8, 4, 52⟩ .bipush [⟨⟨8, 11, 59⟩, "0"⟩],
          .instruction ⟨9, 1, 61⟩ .istore [⟨⟨9, 8, 68⟩, declared⟩],
          .instruction ⟨10, 1, 70⟩ .iload [⟨⟨10, 7, 76⟩, declared⟩],
          .instruction ⟨11, 1, 78⟩ .ireturn []] },
      { position := ⟨13, 1, 98⟩, name := "g", isMain := false
        statements := [
          .instruction ⟨14, 1, 110⟩ .iload [⟨⟨14, 7, 116⟩, "x"⟩],
          .instruction ⟨15, 1, 118⟩ .goto [⟨⟨15, 6, 123⟩, "l"⟩],
          .instruction ⟨16, 1, 125⟩ .ireturn []] }] }

/-- The visits of the second method differ in the hint that the first source gives rise to, and in nothing else. -/
theorem borrower_visited :
    borrower.parse "b" = (borrowerTree "x" "l", []) ∧ deprivedBorrower.parse "b" = (borrowerTree "y" "k", []) ∧
      (visits (borrowerTree "x" "l"))[2]? ≠ (visits (borrowerTree "y" "k"))[2]? ∧
      ∃ visit otherVisit, (visits (borrowerTree "x" "l"))[2]? = some visit ∧
        (visits (borrowerTree "y" "k"))[2]? = some otherVisit ∧ visit.withoutHints = otherVisit.withoutHints := by
  have parsed : borrower.parse "b" = (borrowerTree "x" "l", []) := by decide +kernel
  have otherParsed : deprivedBorrower.parse "b" = (borrowerTree "y" "k", []) := by decide +kernel
  have hinted : (visits (borrowerTree "x" "l"))[2]? ≠ (visits (borrowerTree "y" "k"))[2]? := by decide +kernel
  have same := visit_independent borrower deprivedBorrower "b" "b" _ _ parsed otherParsed (by decide) (by decide) 2 _
    rfl rfl
  exact ⟨parsed, otherParsed, hinted, same.2⟩

end Analysis

end IntegerMachine
