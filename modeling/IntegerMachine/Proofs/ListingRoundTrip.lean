import IntegerMachine.Proofs.FoldedNames
import IntegerMachine.Proofs.ListingGrammar
import IntegerMachine.Proofs.RefusedWrites
import Mathlib.Data.List.Nodup

/-!
# Programs from their listings

The listing of a compiled program, without its column of numbers, compiles again, and the program that it gives differs
from the first one in lines at most.

The tree of the listing has the blocks of the first tree, said again. Its constants are those of the program: their
names are folded, which changes nothing about them, and their values are printed numbers, which are literals for the
values.

The main statement is about what the loops over a program write to a sink without a limit, which is the text of the
listing as a document. What arrives at a sink with a limit is the subject of another module.
-/
namespace IntegerMachine

open Source Grammar

/-! ## Constants -/

/-- A pool holds the constants that it was made from, in another order. That their names are different keeps one from
replacing another. -/
theorem Constants.perm_of_list {constants : List (Text × Cell)} (distinct : (constants.map Prod.fst).Nodup) :
    (ofList constants).Perm constants := by
  obtain ⟨ordered, members⟩ := of_list_ordered constants
  rw [List.perm_ext_iff_of_nodup (.of_map Prod.fst ordered.distinct) (.of_map Prod.fst distinct)]
  refine fun constant => ⟨members constant, fun member => ?_⟩
  have found := (lookup_iff_mem distinct constant.1 constant.2).mpr member
  rw [← lookup_of_list distinct] at found
  exact (lookup_iff_mem ordered.distinct constant.1 constant.2).mp found

section Accepted

variable {given : Token → Prop} {tree : Tree} (grammatical : Grammatical given tree)
  (wellFormed : tree.WellFormed) (main : Block)

include wellFormed in
/-- The constants of a program are those of its tree, with folded names. -/
theorem linked_pool : (tree.linked main).constants.Perm
    (tree.pool.map fun constant => (constant.1.fold, constant.2)) := by
  obtain ⟨distinct, _⟩ := List.nodup_append.mp wellFormed.globals
  rw [← tree.pool_names] at distinct
  exact Constants.perm_of_list distinct

include grammatical wellFormed in
/-- Folded names of constants are names, so that a listing that has them in folded form can be read. -/
theorem linked_constants_named : ∀ constant ∈ (tree.linked main).constants, isName constant.1 = true := by
  intro constant member
  obtain ⟨_, listed, rfl⟩ := List.mem_map.mp ((linked_pool wellFormed main).mem_iff.mp member)
  obtain ⟨decl, declared, rfl⟩ := List.mem_map.mp listed
  obtain ⟨⟨token, _, ident, named⟩, _⟩ := grammatical.contents.constants decl declared
  have text : token.text = decl.name := congrArg Ident.name ident
  exact fold_is_name (text ▸ named)

/-! ## Trees -/

variable {copy : Tree}
  (constants : copy.constants.map (fun decl => (decl.name, decl.value)) =
    (tree.linked main).constants.map fun constant => (constant.1, .ofInt32 constant.2))

include constants in
/-- Printed values are literals, whatever the constants were written as in the first source. -/
theorem restated_values : ∀ decl ∈ copy.constants, IsLiteral decl.value := by
  intro decl member
  have listed := List.mem_map_of_mem (f := fun decl => (decl.name, decl.value)) member
  rw [constants] at listed
  obtain ⟨constant, _, same⟩ := List.mem_map.mp listed
  rw [← (Prod.mk.inj same).2]
  exact ⟨constant.2, Literal.parse_of_int32 constant.2⟩

include wellFormed constants in
/-- The constants that were listed are the constants of the program, in the same order: a listing goes by the pool,
which is sorted, and its names are folded already. -/
theorem restated_pool : copy.pool.map (fun constant => (constant.1.fold, constant.2)) =
    (tree.linked main).constants := by
  have unchanged : ∀ constant ∈ (tree.linked main).constants,
      (constant.1.fold, literalValue (.ofInt32 constant.2)) = id constant := by
    intro constant member
    obtain ⟨origin, _, rfl⟩ := List.mem_map.mp ((linked_pool wellFormed main).mem_iff.mp member)
    rw [Text.fold_fold, literalValue, Literal.parse_of_int32]
    rfl
  calc copy.pool.map (fun constant => (constant.1.fold, constant.2))
    _ = (copy.constants.map fun decl => (decl.name, decl.value)).map
          fun constant => (constant.1.fold, literalValue constant.2) := by
        rw [Tree.pool, List.map_map, List.map_map]
        rfl
    _ = (tree.linked main).constants.map fun constant => (constant.1.fold, literalValue (.ofInt32 constant.2)) := by
        rw [constants, List.map_map]
        rfl
    _ = (tree.linked main).constants := by
        rw [List.map_congr_left unchanged, List.map_id]

variable (blocks : List.Forall₂ Block.Restated tree.blocks copy.blocks)
  (methods : List.Forall₂ Block.Restated tree.methods copy.methods)

include wellFormed constants blocks methods in
/-- A tree with the constants of the program and the blocks of its tree said again is well-formed. The rules are about
names, literals and lines, and the latter are in order because declarations come first. -/
theorem restated_well_formed : copy.WellFormed := by
  apply well_formed_again wellFormed (restated_values main constants)
  · rw [← copy.pool_names, restated_pool wellFormed main constants, ← tree.pool_names]
    exact (linked_pool wellFormed main).map Prod.fst
  · exact blocks.imp fun _ _ restated => restated.alike
  · exact methods.imp fun _ _ restated => restated.alike
  · intro block member
    obtain ⟨_, _, restated⟩ := exists_related blocks member
    exact restated.placed

include wellFormed constants methods in
/-- Its program has the constants of the first program, and differs from it in lines at most. Blueprints are made from
names and code, which were said again. -/
theorem restated_linked {mainCopy : Block} (restated : main.Restated mainCopy) :
    (copy.linked mainCopy).constants = (tree.linked main).constants ∧
      (copy.linked mainCopy).unplaced = (tree.linked main).unplaced := by
  have pool : (copy.linked mainCopy).constants = (tree.linked main).constants := by
    change Constants.ofList (copy.pool.map _) = _
    rw [restated_pool wellFormed main constants]
    exact (Constants.of_list_ordered _).1.of_list
  have alike : (copy.methods.map Block.linked).map Blueprint.unplaced =
      (tree.methods.map Block.linked).map Blueprint.unplaced := by
    rw [List.map_map, List.map_map]
    exact map_of_related (fun _ _ restated => restated.alike.linked) methods
  exact ⟨pool, Program.linked_unplaced pool restated.alike.linked alike⟩

end Accepted

/-- The rows of the program of a tree are those of its constants and of its blocks, with the main block first. -/
theorem linked_rows {tree : Tree} {main : Block} (blocks : tree.blocks = main :: tree.methods) :
    (tree.linked main).rows =
      constantRows (tree.linked main).constants ++ blueprintRows (tree.blocks.map Block.linked) := by
  rw [Program.rows, Tree.linked_blueprints blocks]

/-! ## Sources -/

/-- The lines of a source that was read as given tokens have those tokens, by kind and text. -/
theorem Source.Lines.Reads.token_lines {source : Source} {shapes : List (List Shape)}
    (reads : source.lines.Reads shapes) : source.tokenLines.map (List.map Token.shape) = shapes := by
  rw [tokenLines, List.map_map]
  exact reads.shaped

/-- A source that compiles is read without complaints, since these are syntax errors. -/
theorem Source.compile_quiet {source : Source} {file : Text} {program : Program}
    (compiled : (source.compile file).2 = .ok program) : source.lines.Quiet := by
  obtain ⟨accepted, _⟩ := (Review.build_ok_iff _ _).mp compiled
  obtain ⟨faultless, _⟩ := (source.review_faultless_iff file).mp accepted
  exact complaints_of_lines _ _ _ ((parse_faultless_iff file source).mp faultless).1

/-- A text with the lines of a well-formed tree compiles to the program of the tree. Parsing, analysis and building
are all settled by the two conditions. -/
theorem Source.compile_of_derives {text file : Text} {tree : Tree} (quiet : (ofText text).lines.Quiet)
    (derived : Derives file (ofText text).tokenLines tree) (wellFormed : tree.WellFormed) :
    ∃ main, tree.blocks = main :: tree.methods ∧ ((ofText text).compile file).2 = .ok (tree.linked main) := by
  have parsed := (parse_eq_iff_derives quiet file tree).mpr derived
  have grammatical := parse_grammatical file _ tree parsed
  obtain ⟨main, blocks, built, _⟩ := tree_build grammatical wellFormed
  refine ⟨main, blocks, (Review.build_ok_iff _ _).mpr ⟨?_, ?_⟩⟩
  · rw [review_faultless_iff, parsed]
    exact ⟨rfl, (Analysis.errors_nil_iff grammatical).mpr wellFormed⟩
  · change ((ofText text).parse file).1.build = _
    rw [parsed, built]

/-- The listing of a compiled program, without its column of numbers, compiles to a program with the same constants that
differs from it in lines at most. This holds of the listing as a document and of what a sink without a limit receives
when the program is listed to it.

The rows of the listing are read back as the tokens that were printed. They derive a tree with the same blocks, said
again, which is well-formed because the first tree is, and from which the linked program follows. -/
theorem listing_compiles_back (text : Text) (failure : Option Text) (file : Text) (program : Program)
    (compiled : ((ofText text failure).compile file).2 = .ok program) (name : Text) :
    ∃ again sink, program.list (.bare ({} : Sink)) = (none, sink) ∧
      ((ofText sink.text.withoutNumbers).compile name).2 = .ok again ∧
      ((ofText program.listing.text.withoutNumbers).compile name).2 = .ok again ∧
      again.constants = program.constants ∧ again.unplaced = program.unplaced := by
  obtain ⟨nothing, received⟩ := program.list_unlimited {} rfl
  have written := supplied_written (compile_quiet compiled)
  obtain ⟨grammatical, wellFormed, built⟩ := compile_tree _ _ _ compiled
  obtain ⟨main, blocks, builtMain, _⟩ := tree_build grammatical wellFormed
  cases built.symm.trans builtMain
  have named := linked_constants_named grammatical wellFormed main
  have rows := linked_rows blocks
  have spelled := tree_spelled written grammatical named
  rw [← rows] at spelled
  have reads := text_read spelled
  rw [← listing_without_numbers spelled] at reads
  have shaped := reads.token_lines
  rw [rows] at shaped
  obtain ⟨copy, derived, constants, copyBlocks, copyMethods⟩ :=
    tree_again written grammatical named name (tokens_in_order _ _) shaped
  have wellFormedCopy := restated_well_formed wellFormed main constants copyBlocks copyMethods
  obtain ⟨mainCopy, blocksCopy, compiledCopy⟩ := compile_of_derives reads.quiet derived wellFormedCopy
  rw [blocks, blocksCopy, List.forall₂_cons] at copyBlocks
  refine ⟨_, _, Prod.ext nothing rfl, ?_, compiledCopy,
    restated_linked wellFormed main constants copyMethods copyBlocks.1⟩
  rw [received]
  exact compiledCopy

/-- A source with a method in front of the main block, two blocks of declarations, a label in front of the second one,
constants in no order, and names in several spellings. -/
def scattered : Text := ".METHOD é(a, B)
.var
x, y
.end-var
p: .var
z
.end-var
ILOAD A
IRETURN
.end-method
.constant
k 0x10
_ -1
.end-constant
.main
LDC_W K
BIPUSH ' ' // a blank
INVOKEVIRTUAL É
HALT
.end-main
"

/-- The listing of this source compiles back, as a document and as it is received, with both constants and both
blocks. -/
theorem scattered_compiles_back : ∃ program again sink, ((ofText scattered).compile "s").2 = .ok program ∧
    program.constants.length = 2 ∧ program.blueprints.length = 2 ∧
    program.list (.bare ({} : Sink)) = (none, sink) ∧
    ((ofText sink.text.withoutNumbers).compile "listing").2 = .ok again ∧
    ((ofText program.listing.text.withoutNumbers).compile "listing").2 = .ok again ∧
    again.constants = program.constants ∧ again.unplaced = program.unplaced := by
  have passes : ((ofText scattered).compile "s").2.toOption.any (fun program =>
      decide (program.constants.length = 2 ∧ program.blueprints.length = 2)) = true := by
    decide +kernel
  obtain ⟨program, compiled, sizes⟩ := exists_ok_of_any passes
  obtain ⟨again, sink, listed⟩ := listing_compiles_back scattered none "s" program compiled "listing"
  obtain ⟨constants, blueprints⟩ := of_decide_eq_true sizes
  exact ⟨program, again, sink, compiled, constants, blueprints, listed⟩

end IntegerMachine
