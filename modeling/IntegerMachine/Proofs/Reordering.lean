import IntegerMachine.Proofs.Building
import IntegerMachine.Proofs.Respelling

/-!
# The order of declarations does not matter

A tree may declare its constants and its methods in any order. The rules for trees speak of constants and methods as
the members of lists, and of their names as different, so that they hold of every order or of none. The programs of
two orders have the same main block and find the same methods and constants; a run of the one is a run of the other.
-/
namespace IntegerMachine

/-! ## Runs that are carried over without another spelling -/

namespace Respelling

/-- An instruction whose names are spelled as they are is the instruction, with literals and names alike. -/
theorem unchanged_instruction (given : Instruction) : unchanged.instruction given = given := by
  have same : given.operands.mapIdx (unchanged.operand given.opcode) = given.operands := by
    refine List.ext_getElem? fun index => ?_
    rw [List.getElem?_mapIdx]
    cases given.operands[index]? with
    | none => rfl
    | some text => exact congrArg some (ite_self text)
  rw [instruction, same]

/-- So is a blueprint, whose tables are kept by every spelling. -/
theorem unchanged_blueprint (given : Blueprint) : unchanged.blueprint given = given := by
  have same : unchanged.instruction = id := funext unchanged_instruction
  rw [blueprint, same, Array.map_id]
  simp [unchanged]

/-- So is a frame. -/
theorem unchanged_frame : unchanged.frame = id := by
  funext given
  rw [frame, unchanged_blueprint]
  rfl

/-- So is a trap, which may be a fault with names in it. -/
theorem unchanged_trap (given : Trap) : unchanged.trap given = given := by
  cases given with
  | fault cause => simp [trap, fault, unchanged]
  | _ => rfl

/-- So is the end of a run. -/
theorem unchanged_ending (given : Ending) : unchanged.ending given = given := by
  cases given with
  | trapped raised => rw [ending, unchanged_trap]
  | _ => rfl

/-- So is an event of the journal. -/
theorem unchanged_event : unchanged.event = id := by
  funext given
  cases given with
  | traced block pc traced stack => rw [event, unchanged_instruction]; rfl
  | _ => rfl

/-- A run that is carried over without another spelling is the same but for the program, which is put in. -/
theorem unchanged_finish (program : Program) (given : Finish Unit) :
    unchanged.finish program given = { given with machine := { given.machine with program } } := by
  rw [finish, unchanged_ending, machine, journal, unchanged_frame, unchanged_event]
  simp

end Respelling

/-! ## Trees in another order -/

/-- The block in front of the methods is the main block. Without one the methods would be all the blocks. -/
theorem Tree.main_of_blocks {tree : Tree} {main : Block} (blocks : tree.blocks = main :: tree.methods) :
    tree.main = some main := by
  rw [Tree.blocks] at blocks
  cases known : tree.main with
  | none =>
    rw [known] at blocks
    exact absurd blocks.symm (List.cons_ne_self main tree.methods)
  | some block =>
    rw [known] at blocks
    exact congrArg some (List.cons.inj blocks).1

/-- A tree with the same main block and the same constants and methods in some order. -/
structure Tree.Reorders (order tree : Tree) : Prop where
  main : order.main = tree.main
  constants : order.constants.Perm tree.constants
  methods : order.methods.Perm tree.methods

namespace Tree.Reorders

variable {order tree : Tree} (reorders : order.Reorders tree)

include reorders

/-- A tree in another order is one without syntax errors too. What it consists of is said of each constant and each
method. -/
theorem grammatical {given : Token → Prop} (grammatical : Source.Grammatical given tree) :
    Source.Grammatical given order := by
  obtain ⟨contents, main, known⟩ := grammatical
  refine ⟨⟨?_, ?_, ?_⟩, main, reorders.main.trans known⟩
  · intro constant member
    exact contents.constants constant (reorders.constants.mem_iff.mp member)
  · intro block isMain
    exact contents.main block (reorders.main.symm.trans isMain)
  · intro method member
    exact contents.methods method (reorders.methods.mem_iff.mp member)

/-- The names of the constants are the same in some order, and so are their folded forms. -/
theorem constant_names : order.constantNames.Perm tree.constantNames := reorders.constants.map _

/-- The names of the methods are the same in some order. -/
theorem method_names : order.methodNames.Perm tree.methodNames := reorders.methods.map _

/-- The blocks are the same in some order, with the main block in front of both. -/
theorem blocks : order.blocks.Perm tree.blocks := by
  rw [Tree.blocks, Tree.blocks, reorders.main]
  exact reorders.methods.append_left _

/-- A block keeps its rules in another order of the tree. Only the rules about constants and methods speak of the tree
at all, and they ask for membership. -/
theorem block_well_formed {block : Block} (wellFormed : block.WellFormed tree) : block.WellFormed order where
  locals := wellFormed.locals
  labels := wellFormed.labels
  placement := wellFormed.placement
  pushed := wellFormed.pushed
  added := wellFormed.added
  loaded := wellFormed.loaded
  stored := wellFormed.stored
  increased := wellFormed.increased
  constants before name has := by
    rw [reorders.constant_names.mem_iff]
    exact wellFormed.constants before name has
  methods before name has := by
    rw [reorders.method_names.mem_iff]
    exact wellFormed.methods before name has
  targets := wellFormed.targets

/-- A tree in another order is well-formed too. Its rules are about members of lists, and about names that are
different from each other. -/
theorem well_formed (wellFormed : tree.WellFormed) : order.WellFormed := by
  refine ⟨?_, ?_, ?_, ?_⟩
  · intro constant member
    exact wellFormed.values constant (reorders.constants.mem_iff.mp member)
  · exact (reorders.constant_names.append reorders.method_names).nodup_iff.mpr wellFormed.globals
  · intro block member
    exact reorders.block_well_formed (wellFormed.blocks block (reorders.blocks.mem_iff.mp member))
  · intro method member
    exact wellFormed.returns method (reorders.methods.mem_iff.mp member)

/-- The program of a tree is carried over to the program of another order without another spelling. Look-ups by name
give the same since no two names are equal. -/
theorem carries (wellFormed : tree.WellFormed) (main : Block) :
    Respelling.unchanged.Carries (tree.linked main) (order.linked main) := by
  obtain ⟨distinctConstants, distinctMethods, _⟩ := List.nodup_append.mp wellFormed.globals
  have same : Respelling.unchanged.blueprint = id := funext Respelling.unchanged_blueprint
  -- With different names, what is found under a name does not depend on the order.
  refine ⟨?_, fun name => ?_, fun name => ?_⟩
  · rw [same, Option.map_id]
    rfl
  · have names : (Program.methodTable (tree.methods.map Block.linked)).map Prod.fst = tree.methodNames := by
      rw [Program.methodTable, List.map_map, List.map_map]
      rfl
    rw [← names] at distinctMethods
    rw [same, Option.map_id]
    exact lookup_perm distinctMethods ((reorders.methods.map _).map _) name.fold
  · rw [← tree.pool_names] at distinctConstants
    have pools : order.pool.Perm tree.pool := reorders.constants.map _
    rw [Program.constant?, Program.constant?, Tree.linked, Tree.linked, Program.linked, Program.linked,
      Constants.of_list_perm distinctConstants (pools.map _)]

end Tree.Reorders

/-- For every source that is read without syntax errors to a tree about which analysis reports no errors, and every
order of the constants and methods of the tree: analysis reports no errors about the tree in that order either, both
trees are built, and for every limit of the call depth, all input, all output and any number of steps the two programs
run in step: all that they leave behind is the same, apart from the program itself. -/
theorem order_immaterial (source : Source) (file : Text) (tree order : Tree) (parsed : source.parse file = (tree, []))
    (noErrors : (Analysis.check tree).errors = []) (reorders : order.Reorders tree) :
    (Analysis.check order).errors = [] ∧ ∃ program other, tree.build = .ok program ∧ order.build = .ok other ∧
      ∀ (depthLimit : Nat) (input : Input) (output : Output) (fuel : Nat),
        let finished := ({ program, depthLimit, input, output } : Machine).run Machine.noHook fuel ()
        ({ program := other, depthLimit, input, output } : Machine).run Machine.noHook fuel () =
          { finished with machine := { finished.machine with program := other } } := by
  have grammatical := source.parse_grammatical file tree parsed
  have wellFormed := (Analysis.errors_nil_iff grammatical).mp noErrors
  have orderGrammatical := reorders.grammatical grammatical
  have orderWellFormed := reorders.well_formed wellFormed
  refine ⟨(Analysis.errors_nil_iff orderGrammatical).mpr orderWellFormed, ?_⟩
  obtain ⟨main, blocks, built, -⟩ := tree_build grammatical wellFormed
  obtain ⟨orderMain, orderBlocks, orderBuilt, -⟩ := tree_build orderGrammatical orderWellFormed
  have same := (Tree.main_of_blocks orderBlocks).symm.trans (reorders.main.trans (Tree.main_of_blocks blocks))
  cases same
  refine ⟨_, _, built, orderBuilt, fun depthLimit input output fuel => ?_⟩
  have run := Respelling.run_carried (reorders.carries wellFormed main) fuel
    { program := tree.linked main, depthLimit, input, output } rfl
  rw [Respelling.unchanged_finish] at run
  exact run

/-- A source with two constants and two methods, of which the first calls the second. -/
def relay : Source := .ofText ".constant
a 3
b 4
.end-constant
.main
BIPUSH 0
LDC_W a
INVOKEVIRTUAL f
OUT
.end-main
.method f(x)
BIPUSH 0
ILOAD x
INVOKEVIRTUAL g
IRETURN
.end-method
.method g(x)
ILOAD x
LDC_W b
IADD
IRETURN
.end-method
"

/-- A tree with its constants and methods turned around. -/
def Tree.turned (tree : Tree) : Tree :=
  { tree with constants := tree.constants.reverse, methods := tree.methods.reverse }

/-- A tree that is turned around is one in another order. -/
theorem Tree.turned_reorders (tree : Tree) : tree.turned.Reorders tree :=
  ⟨rfl, tree.constants.reverse_perm, tree.methods.reverse_perm⟩

/-- The tree that is turned around is accepted, though a method is declared in front of its use in the one order and
behind it in the other, and its program runs as the other one does. -/
theorem relay_turned :
    (relay.parse "r").2 = [] ∧ (Analysis.check (relay.parse "r").1).errors = [] ∧
      (relay.parse "r").1.methods.map Block.name = [("f" : Text), "g"] ∧
      (relay.parse "r").1.turned.Reorders (relay.parse "r").1 ∧
      (Analysis.check (relay.parse "r").1.turned).errors = [] ∧ ∃ program other,
        (relay.parse "r").1.build = .ok program ∧ (relay.parse "r").1.turned.build = .ok other ∧
        ∀ (depthLimit : Nat) (input : Input) (output : Output) (fuel : Nat),
          let finished := ({ program, depthLimit, input, output } : Machine).run Machine.noHook fuel ()
          ({ program := other, depthLimit, input, output } : Machine).run Machine.noHook fuel () =
            { finished with machine := { finished.machine with program := other } } := by
  have accepted : (relay.parse "r").2 = [] ∧ (Analysis.check (relay.parse "r").1).errors = [] ∧
      (relay.parse "r").1.methods.map Block.name = [("f" : Text), "g"] := by decide +kernel
  obtain ⟨faultless, noErrors, names⟩ := accepted
  have reorders := (relay.parse "r").1.turned_reorders
  have parsed := relay.parse_eq "r" faultless
  exact ⟨faultless, noErrors, names, reorders, order_immaterial relay "r" _ _ parsed noErrors reorders⟩

end IntegerMachine
