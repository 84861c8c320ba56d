import IntegerMachine.Proofs.PreciseFaults
import IntegerMachine.Proofs.StackDepth
import IntegerMachine.Proofs.Visits

/-!
# Stack uses

Analysis works with two numbers for each instruction: how many values it needs on the stack, and by how many it changes
their number. They are compared with what the machine does when it comes to the instruction, in whatever state: the
source may have jumps, and analysis may have warned. For a call the numbers come from two tables, the parameters that
were declared and those that the method of the program has.
-/
namespace IntegerMachine

namespace Analysis

open SymbolTable

/-! ## The numbers of analysis -/

/-- The table with which the third pass comes to the first statement of a block, behind the given blocks. -/
def tableAt (tree : Tree) (before : List Block) (block : Block) : SymbolTable :=
  let second := collectLabels (firstPass tree).1 (firstPass tree).2.1
  let entered := (checkBlocks second.2.1 second.1 before).1.enter (scopeOf block)
  (declareVars block.name (declareParams entered block.params) block.variables).1

/-- How the third pass takes a statement of a block to use the stack, behind the given blocks and statements. It does
not look at labels. -/
def useOf (tree : Tree) (before : List Block) (block : Block) (earlier : List Statement) : Statement → StackUse
  | .label .. => {}
  | .instruction position opcode operands =>
    let labels := (collectLabels (firstPass tree).1 (firstPass tree).2.1).2.1
    let table := (checkStatements labels block (tableAt tree before block) 0 earlier).1
    (checkOperands labels block table position opcode operands).2.2

/-- Checking statements goes through the first of them and then through the others, from the depth that was reached.
The depth is not among the results of a check, which is why it is only said to exist; it is the same for all that may
follow. -/
theorem check_statements_append (labels : Labels) (block : Block) (earlier : List Statement) (table : SymbolTable)
    (depth : Nat) : ∃ reached, ∀ later, checkStatements labels block table depth (earlier ++ later) =
      let first := checkStatements labels block table depth earlier
      let second := checkStatements labels block first.1 reached later
      (second.1, first.2 ++ second.2) := by
  induction earlier generalizing table depth with
  | nil =>
    refine ⟨depth, ?_⟩
    intro later
    rfl
  | cons statement rest ih =>
    cases statement with
    | label position name => exact ih table depth
    | instruction position opcode operands =>
      obtain ⟨reached, split⟩ := ih (checkOperands labels block table position opcode operands).1
        ((checkOperands labels block table position opcode operands).2.2.after depth)
      refine ⟨reached, ?_⟩
      intro later
      simp only [List.cons_append, checkStatements, split, List.append_assoc]

/-- Checking statements leaves the numbers of parameters. A statement can give a value to a variable at most, which
makes no method of it. -/
theorem check_statements_counts (labels : Labels) (block : Block) (statements : List Statement) (table : SymbolTable)
    (depth : Nat) : SameCounts table (checkStatements labels block table depth statements).1 := by
  induction statements generalizing table depth with
  | nil => exact .refl table
  | cons statement rest ih =>
    cases statement with
    | label position name => exact ih table depth
    | instruction position opcode operands =>
      exact (check_operands_counts labels block table position opcode operands).trans (ih _ _)

/-- Declaring the locals of a block leaves the numbers of parameters. Methods are looked up in the global scope, and
the locals are declared in another one. -/
theorem declare_locals_counts (table : SymbolTable) (block : Block) (inner : scopeOf block ≠ globalScope) :
    SameCounts (table.enter (scopeOf block))
      (declareVars block.name (declareParams (table.enter (scopeOf block)) block.params) block.variables).1 := by
  have params := declare_params_counts (table.enter (scopeOf block)) block.params inner
  apply params.trans
  apply declare_vars_counts
  rw [params.scope]
  exact inner

/-- Checking blocks leaves the numbers of parameters. The induction is on the blocks; each of them has a scope of its
own, which is left behind it. -/
theorem check_blocks_counts (labels : Labels) (blocks : List Block)
    (inner : ∀ block ∈ blocks, scopeOf block ≠ globalScope) (table : SymbolTable) (name : Text) :
    (checkBlocks labels table blocks).1.methodParamCount? name = table.methodParamCount? name := by
  induction blocks generalizing table with
  | nil => rfl
  | cons block rest ih =>
    rw [List.forall_mem_cons] at inner
    have counts := (declare_locals_counts table block inner.1).trans
      (check_statements_counts labels block block.statements _ 0)
    calc (checkBlocks labels table (block :: rest)).1.methodParamCount? name
        = (checkBlock labels table block).1.methodParamCount? name := ih inner.2 _
      _ = table.methodParamCount? name := counts.counts name

/-- Where checking a name does not find its symbol, what it finds is an error. -/
theorem check_symbol_clean {table : SymbolTable} {ident : Ident} {kind : SymbolKind} {finding : Finding}
    (failed : checkSymbol table ident kind = .error finding) : ¬ Clean [finding] := by
  unfold checkSymbol at failed
  split at failed
  · cases failed
    simp [Problem.severity]
  · split at failed
    · cases failed
    · cases failed
      simp [Problem.severity]

/-- What is found about a variable is an error, so that without errors there is nothing to find. -/
theorem check_variable_clean {table : SymbolTable} {ident : Ident} {read : Bool}
    (clean : Clean (checkVariable table ident read)) : checkVariable table ident read = [] := by
  unfold checkVariable at clean ⊢
  cases checked : checkSymbol table ident .localVariable with
  | error finding =>
    rw [checked] at clean
    exact absurd clean (check_symbol_clean checked)
  | ok symbol =>
    rw [checked] at clean
    dsimp only at clean ⊢
    split at clean
    · simp [Problem.severity] at clean
    · next hasValue => exact if_neg hasValue

/-- An instruction that is checked without errors uses the stack as the program does, if the number of parameters of a
method that it calls is the one that the program has. With errors this need not be so: a local that is not known, for
instance, is taken to give no value. -/
theorem check_operands_use {program : Program} {labels : Labels} {block : Block} {table : SymbolTable}
    {position : Position} {opcode : Opcode} {operands : List Ident} (count : operands.length = opcode.operands.count)
    (agrees : ∀ name, opcode = .invokevirtual → operands = [name] →
      ∃ method, program.method? name.name = some method ∧ table.methodParamCount? name.name = some method.params.length)
    (clean : Clean (checkOperands labels block table position opcode operands).2.1) :
    (checkOperands labels block table position opcode operands).2.2 =
      program.stackUse (Statement.instruction position opcode operands).build := by
  cases opcode with
  | label | unassigned => simp [checkOperands, Problem.severity] at clean
  | iload =>
    have nothing := check_variable_clean clean
    change (if (checkVariable table (operand operands 0) true).isEmpty then _ else _) = _
    rw [nothing]
    rfl
  | ldcw =>
    unfold checkOperands
    dsimp only
    split <;> rfl
  | invokevirtual =>
    obtain ⟨name, rfl⟩ := List.length_eq_one_iff.mp count
    obtain ⟨method, found, counted⟩ := agrees name rfl rfl
    have use : program.stackUse (Statement.instruction position .invokevirtual [name]).build =
        callUse method.params.length := program.stack_use_of_call rfl rfl found
    rw [use]
    unfold checkOperands at clean ⊢
    dsimp only at clean ⊢
    cases checked : checkSymbol table (operand [name] 0) .method with
    | error finding =>
      rw [checked] at clean
      exact absurd clean (check_symbol_clean checked)
    | ok symbol =>
      change callUse ((table.methodParamCount? name.name).getD 0) = _
      rw [counted, Option.getD_some]
  | bipush | goto | ifeq | iflt | ificmpeq | istore | iinc => rfl
  | dup | halt | iadd | iand | input | ior | ireturn | isub | nop | output | pop | swap => rfl

/-- What is found about an instruction, about the depth of the stack that it finds, and the depth behind it. -/
def findingsWith (position : Position) (opcode : Opcode) (found : List Finding) (use : StackUse) (depth : Nat) :
    List Finding :=
  found ++ checkDepth position opcode use depth ++ [.depth position opcode (use.after depth)]

/-- Findings show that a stack use was worked with for a statement: somewhere among them, the values that it needs are
compared with a depth of the stack, and the depth behind it is noted. About labels nothing is found. -/
def WorksWith (findings : List Finding) (use : StackUse) : Statement → Prop
  | .label .. => True
  | .instruction position opcode _ => ∃ found depth, findingsWith position opcode found use depth <:+: findings

/-- The findings about an instruction are among those about the statements around it, next to each other. The depth
with which it was checked is the one that the earlier statements have led to. -/
theorem check_statements_at (labels : Labels) (block : Block) (table : SymbolTable) (depth : Nat)
    (earlier later : List Statement) (position : Position) (opcode : Opcode) (operands : List Ident) :
    let own := checkOperands labels block (checkStatements labels block table depth earlier).1 position opcode operands
    ∃ reached, findingsWith position opcode own.2.1 own.2.2 reached <:+:
      (checkStatements labels block table depth (earlier ++ .instruction position opcode operands :: later)).2 := by
  intro own
  obtain ⟨reached, split⟩ := check_statements_append labels block earlier table depth
  refine ⟨reached, (checkStatements labels block table depth earlier).2,
    (checkStatements labels block own.1 (own.2.2.after reached) later).2, ?_⟩
  rw [split]
  simp only [findingsWith, checkStatements, List.append_assoc, List.singleton_append]
  rfl

/-- The findings about the statements of a block are among those about the block, behind what is found about its
declarations and in front of what is found about returns. -/
theorem check_block_at (labels : Labels) (table : SymbolTable) (block : Block) :
    let declared := declareVars block.name (declareParams (table.enter (scopeOf block)) block.params) block.variables
    (checkStatements labels block declared.1 0 block.statements).2 <:+: (checkBlock labels table block).2 := by
  intro declared
  refine ⟨checkPlacement block ++ declared.2, checkUnreachable (instructionsOf block) ++ checkReturn block, ?_⟩
  rw [checkBlock, ← List.append_assoc]

/-- The findings about a block are among those about the blocks around it. -/
theorem check_blocks_at (labels : Labels) (table : SymbolTable) (before after : List Block) (block : Block) :
    (checkBlock labels (checkBlocks labels table before).1 block).2 <:+:
      (checkBlocks labels table (before ++ block :: after)).2 := by
  rw [check_blocks_append]
  exact ⟨(checkBlocks labels table before).2, _, List.append_assoc ..⟩

/-- What the third pass finds at an instruction of a tree, with the depth that it has reached there. It is the three
lemmas above put together: statements in a block, a block among blocks, the third pass among the others. -/
theorem check_at {tree : Tree} {before after : List Block} {block : Block}
    (blocks : (firstPass tree).2.1 = before ++ block :: after) {earlier later : List Statement} {position : Position}
    {opcode : Opcode} {operands : List Ident}
    (statements : block.statements = earlier ++ .instruction position opcode operands :: later) :
    let labels := (collectLabels (firstPass tree).1 (firstPass tree).2.1).2.1
    let table := (checkStatements labels block (tableAt tree before block) 0 earlier).1
    ∃ depth, findingsWith position opcode (checkOperands labels block table position opcode operands).2.1
      (useOf tree before block earlier (.instruction position opcode operands)) depth <:+: (check tree).findings := by
  intro labels table
  obtain ⟨depth, own⟩ :=
    check_statements_at labels block (tableAt tree before block) 0 earlier later position opcode operands
  rw [← statements] at own
  have third := check_blocks_at labels (collectLabels (firstPass tree).1 (firstPass tree).2.1).1 before after block
  rw [← blocks] at third
  refine ⟨depth, own.trans ((check_block_at labels _ block).trans (third.trans ?_))⟩
  exact (List.suffix_append _ _).isInfix

section Accepted

variable {given : Token → Prop} {tree : Tree} (grammatical : Source.Grammatical given tree)
  (wellFormed : tree.WellFormed)

include grammatical wellFormed

/-- Analysis of an accepted tree has found no errors, and the first pass has left out no block. Blocks are left out
when their name is taken, which is an error. -/
theorem accepted_clean : Clean (check tree).findings ∧ Clean (firstPass tree).2.2 ∧
    (firstPass tree).2.1 = tree.blocks := by
  have clean : Clean (check tree).findings := (errors_nil_iff grammatical).mpr wellFormed
  have first := clean
  rw [check_findings] at first
  dsimp only at first
  rw [clean_append, clean_append] at first
  exact ⟨clean, first.1.1, ((first_pass_spec grammatical).2 first.1.1).1⟩

/-- Where the third pass comes to a call in an accepted tree, it knows the number of parameters of the method, and
this is the number that the method of the program has. The first pass has declared all methods, and nothing since then
has changed their numbers. -/
theorem called_counts (main : Block) {before after : List Block} {block : Block}
    (blocks : tree.blocks = before ++ block :: after) {earlier later : List Statement} {position : Position}
    {name : Ident} (statements : block.statements = earlier ++ .instruction position .invokevirtual [name] :: later) :
    let labels := (collectLabels (firstPass tree).1 (firstPass tree).2.1).2.1
    ∃ method, (tree.linked main).method? name.name = some method ∧
      (checkStatements labels block (tableAt tree before block) 0 earlier).1.methodParamCount? name.name =
        some method.params.length := by
  intro labels
  obtain ⟨_, cleanFirst, kept⟩ := accepted_clean grammatical wellFormed
  have inner := scope_inner grammatical
  have member : block ∈ tree.blocks := by simp [blocks]
  obtain ⟨_, called⟩ := (wellFormed.blocks block member).methods earlier name ⟨position, later, statements⟩
  obtain ⟨method, isMethod, same⟩ := List.mem_map.mp called
  refine ⟨method.linked, (methods_mirror wellFormed main name.name _).mpr ⟨method, isMethod, same, rfl⟩, ?_⟩
  have innerBefore : ∀ other ∈ before, scopeOf other ≠ globalScope := by
    intro other listed
    exact inner other (by simp [blocks, listed])
  have declared := (declare_locals_counts (checkBlocks labels (collectLabels (firstPass tree).1
    (firstPass tree).2.1).1 before).1 block (inner block member)).trans
      (check_statements_counts labels block earlier _ 0)
  calc (checkStatements labels block (tableAt tree before block) 0 earlier).1.methodParamCount? name.name
      = (checkBlocks labels (collectLabels (firstPass tree).1 (firstPass tree).2.1).1 before).1.methodParamCount?
          name.name := declared.counts name.name
    _ = (collectLabels (firstPass tree).1 (firstPass tree).2.1).1.methodParamCount? name.name :=
      check_blocks_counts labels before innerBefore _ name.name
    _ = (firstPass tree).1.methodParamCount? name.name := by
      rw [kept]
      exact collect_labels_counts _ _ inner name.name
    _ = some method.params.length := first_pass_counts grammatical cleanFirst method isMethod name.name same
    _ = some method.linked.params.length := congrArg some (List.length_map _).symm

/-- The third pass takes a statement of an accepted tree to use the stack as the program does. For a call the number
of parameters comes from the table on one side and from the program on the other. -/
theorem use_of_accepted (main : Block) {before after : List Block} {block : Block}
    (blocks : tree.blocks = before ++ block :: after) {earlier later : List Statement} {statement : Statement}
    (statements : block.statements = earlier ++ statement :: later) :
    useOf tree before block earlier statement = (tree.linked main).stackUse statement.build := by
  cases statement with
  | label position name => rfl
  | instruction position opcode operands =>
    obtain ⟨clean, _, kept⟩ := accepted_clean grammatical wellFormed
    have member : block ∈ tree.blocks := by simp [blocks]
    have listed : .instruction position opcode operands ∈ block.statements := by simp [statements]
    obtain ⟨_, count⟩ := grammatical.instruction_shape block member position opcode operands listed
    obtain ⟨depth, front, back, found⟩ := check_at (kept.trans blocks) statements
    rw [← found] at clean
    simp only [findingsWith, clean_append] at clean
    apply check_operands_use count
    · intro name isCall single
      subst isCall
      subst single
      exact called_counts grammatical wellFormed main blocks statements
    · exact clean.1.2.1.1

/-- Analysis of an accepted tree works with a stack use for each of its instructions. The findings show it, whatever
the depth is at which it comes to the instruction. -/
theorem works_with_accepted {before after : List Block} {block : Block}
    (blocks : tree.blocks = before ++ block :: after) {earlier later : List Statement} {statement : Statement}
    (statements : block.statements = earlier ++ statement :: later) :
    WorksWith (check tree).findings (useOf tree before block earlier statement) statement := by
  cases statement with
  | label => trivial
  | instruction position opcode operands =>
    have kept := (accepted_clean grammatical wellFormed).2.2
    obtain ⟨depth, worked⟩ := check_at (kept.trans blocks) statements
    exact ⟨_, depth, worked⟩

end Accepted

end Analysis

/-! ## The stack of the machine -/

open Analysis (StackUse callUse)

/-- What a stack use needs is what the instruction takes, if a method that it calls is found. If none is found the two
differ, since analysis then counts a method without parameters. -/
theorem Program.stack_use_needs (program : Program) {instruction : Instruction}
    (resolved : instruction.opcode = .invokevirtual →
      ∃ name method, instruction.operands.head? = some name ∧ program.method? name = some method) :
    (program.stackUse instruction).needs = program.takes instruction := by
  by_cases isCall : instruction.opcode = .invokevirtual
  · obtain ⟨name, method, named, found⟩ := resolved isCall
    obtain ⟨rest, operands⟩ := List.head?_eq_some_iff.mp named
    rw [Program.stack_use_of_call _ isCall named found, Program.takes, isCall, operands]
    dsimp only
    rw [found]
    rfl
  · rw [Program.stack_use_of_other _ isCall, Program.needs_eq_takes, Program.takes_of_other _ isCall]

/-- An instruction that touches nothing but its frame and finds too few values lacks them, whatever else is wrong. The
values are looked at before anything else about the instruction is. -/
theorem Frame.perform_starved {program : Program} {instruction : Instruction} {frame : Frame}
    (own : instruction.opcode ∉ [.invokevirtual, .ireturn, .input, .output, .halt])
    (short : frame.stack.length < program.takes instruction) :
    frame.perform program instruction = frame.underflow := by
  obtain ⟨opcode, operands, line⟩ := instruction
  obtain ⟨blueprint, pc, returnPc, stack, locals⟩ := frame
  cases opcode with
  | invokevirtual | ireturn | input | output | halt => simp at own
  | label | nop | bipush | iload | ldcw | iinc | goto | unassigned => exact absurd short (Nat.not_lt_zero _)
  | dup | pop | istore | ifeq | iflt =>
    obtain rfl := List.length_eq_zero_iff.mp (Nat.lt_one_iff.mp short)
    rfl
  | swap | iadd | isub | iand | ior | ificmpeq =>
    rcases stack with _ | ⟨upper, _ | ⟨lower, rest⟩⟩
    · rfl
    · rfl
    · exact absurd short (Nat.not_lt.mpr (Nat.le_add_left 2 _))

namespace Machine

/-- There is no room for another frame although the instruction is a call. -/
def AtLimit (machine : Machine) (instruction : Instruction) : Prop :=
  instruction.opcode = .invokevirtual ∧ machine.depthLimit ≤ machine.frames.length

/-- A call that finds too few values lacks them, if there is room for a frame. Where there is no room, this is noticed
first. -/
theorem invoke_starved {machine : Machine} {frame : Frame} {callers : List Frame} {name : Text} {method : Blueprint}
    (found : machine.program.method? name = some method) (room : machine.frames.length < machine.depthLimit)
    (short : frame.stack.length < method.params.length + 1) :
    (machine.invoke frame callers name).trap = some (frame.fault .stackUnderflow) := by
  unfold invoke
  rw [found]
  dsimp only
  rw [if_neg (Nat.not_le.mpr room), if_pos (Nat.le_of_lt_succ short)]
  rfl

/-- An instruction that finds too few values lacks them, unless it is a call without room for a frame. A call, a
return and the output have cases of their own, since they touch more than their frame. -/
theorem execute_in_starved {machine : Machine} {frame : Frame} {callers : List Frame} {instruction : Instruction}
    (room : ¬ machine.AtLimit instruction) (short : frame.stack.length < machine.program.takes instruction) :
    (machine.executeIn frame callers instruction).trap = some (frame.fault .stackUnderflow) := by
  unfold executeIn
  split
  · next isCall =>
    unfold Program.takes at short
    rw [isCall] at short
    split
    · next absent =>
      rw [absent] at short
      exact absurd short (Nat.not_lt_zero _)
    · next name rest operands =>
      rw [operands] at short
      dsimp only at short
      cases found : machine.program.method? name with
      | none =>
        rw [found] at short
        exact absurd short (Nat.not_lt_zero _)
      | some method =>
        rw [found] at short
        exact invoke_starved found (Nat.not_le.mp fun full => room ⟨isCall, full⟩) short
  · next isReturn =>
    rw [Program.takes_of_other _ (by rw [isReturn]; decide), isReturn] at short
    rw [List.length_eq_zero_iff.mp (Nat.lt_one_iff.mp short)]
    rfl
  · next isInput =>
    rw [Program.takes_of_other _ (by rw [isInput]; decide), isInput] at short
    exact absurd short (Nat.not_lt_zero _)
  · next isOutput =>
    rw [Program.takes_of_other _ (by rw [isOutput]; decide), isOutput] at short
    rw [List.length_eq_zero_iff.mp (Nat.lt_one_iff.mp short)]
    rfl
  · next isHalt =>
    rw [Program.takes_of_other _ (by rw [isHalt]; decide), isHalt] at short
    exact absurd short (Nat.not_lt_zero _)
  · next notCall notReturn notInput notOutput notHalt =>
    have own : instruction.opcode ∉ [.invokevirtual, .ireturn, .input, .output, .halt] := by
      simp only [List.mem_cons, List.not_mem_nil, or_false, not_or]
      exact ⟨notCall, notReturn, notInput, notOutput, notHalt⟩
    rw [Frame.perform_starved own short]
    rfl

variable {machine : Machine} {frame : Frame} {callers : List Frame} {instruction : Instruction}

/-- An instruction lacks values exactly if there are fewer than it takes, unless it is a call without room. A lack of
values is never reported for another reason. -/
theorem execute_underflow_iff (frames : machine.frames = frame :: callers) (room : ¬ machine.AtLimit instruction) :
    (∃ fault, (machine.execute instruction).trap = some (.fault fault) ∧ fault.kind = .stackUnderflow) ↔
      frame.stack.length < machine.program.takes instruction := by
  constructor
  · rintro ⟨fault, raised, isUnderflow⟩
    rcases execute_effect frames instruction with stays | ⟨name, method, calls⟩
    · obtain ⟨outcome, effect, same, _⟩ := stays.effect
      rw [raised] at same
      cases effect with
      | moved | stored | jumped => cases same
      | starved short => exact short
      | refused stack trap reason =>
        cases reason with
        | fault other notUnderflow =>
          cases same
          simp [isUnderflow] at notUnderflow
        | unset =>
          cases same
          cases isUnderflow
        | noOperand | noImmediate | noPlace => cases same
    · cases raised.symm.trans calls.trap
  · intro short
    obtain ⟨journal, executed⟩ := execute_eq frames instruction
    have starved : ({ machine with journal }.executeIn frame callers instruction).trap =
        some (frame.fault .stackUnderflow) := execute_in_starved room short
    obtain ⟨number, counted⟩ := count_eq ({ machine with journal }.executeIn frame callers instruction)
    rw [executed, counted]
    exact ⟨_, starved, rfl⟩

/-- An instruction other than a call that is completed has taken its values and given others. There were as many as it
takes, so that the difference is one of natural numbers without loss. -/
theorem Stays.height {result : Outcome Machine} (stays : machine.Stays frame callers instruction result)
    (completed : result.trap = none) : ∃ after, result.state.frames = after :: callers ∧
      machine.program.takes instruction ≤ frame.stack.length ∧
      after.stack.length = frame.stack.length - machine.program.takes instruction + instruction.opcode.gives := by
  obtain ⟨outcome, effect, same, frames⟩ := stays.effect
  rw [completed] at same
  refine ⟨outcome.state, frames, ?_⟩
  cases effect with
  | moved results enough count other =>
    refine ⟨enough, ?_⟩
    change (results ++ frame.stack.drop _).length = _
    rw [List.length_append, List.length_drop, count, Nat.add_comm]
  | stored name slot value enough stores named found inside =>
    have none : instruction.opcode.gives = 0 := by
      simp only [List.mem_cons, List.not_mem_nil, or_false] at stores
      rcases stores with isStore | isIncrease
      · rw [isStore]
        rfl
      · rw [isIncrease]
        rfl
    refine ⟨enough, ?_⟩
    rw [none]
    exact List.length_drop
  | jumped name index enough jumps named found =>
    have none : instruction.opcode.gives = 0 := by
      revert jumps
      cases instruction.opcode <;> simp [Opcode.isJump, Opcode.gives]
    refine ⟨enough, ?_⟩
    rw [none]
    exact List.length_drop
  | starved | refused => cases same

/-- What an instruction does to the number of values on the stack of the innermost frame is what a stack use says. -/
structure FollowsUse (machine : Machine) (frame : Frame) (callers : List Frame) (instruction : Instruction)
    (use : StackUse) : Prop where
  /-- Unless calls go too deep, values are lacking exactly if there are fewer than needed. -/
  underflow : ¬ machine.AtLimit instruction →
    ((∃ fault, (machine.execute instruction).trap = some (.fault fault) ∧ fault.kind = .stackUnderflow) ↔
      frame.stack.length < use.needs)
  completed : (machine.execute instruction).trap = none → instruction.opcode ∉ [.ireturn, .invokevirtual] →
    ∃ after, (machine.execute instruction).state.frames = after :: callers ∧
      (after.stack.length : Int) = frame.stack.length + use.change
  /-- A return takes the value that it returns. -/
  returned : (machine.execute instruction).trap = none → instruction.opcode = .ireturn →
    ∃ after, (machine.execute instruction).state.frames = after :: callers ∧
      after.stack.length + 1 = frame.stack.length
  /-- A call takes the arguments and the reference below them; the change says that a value will be returned. -/
  called : (machine.execute instruction).trap = none → instruction.opcode = .invokevirtual →
    ∃ callee caller, (machine.execute instruction).state.frames = callee :: caller :: callers ∧
      use.needs = callee.blueprint.params.length + 1 ∧ use.change = -(callee.blueprint.params.length : Int) ∧
      caller.stack.length + (callee.blueprint.params.length + 1) = frame.stack.length

/-- The change of an opcode other than a return and a call is what it gives less what it takes. A return clears the
stack for analysis, and a call depends on its method. -/
theorem change_eq {opcode : Opcode} (other : opcode ∉ [.ireturn, .invokevirtual]) :
    (Analysis.stackUse opcode).change = opcode.gives - opcode.takes := by
  cases opcode <;> first | rfl | simp at other

/-- An instruction follows the stack use that the program has for it, if a method that it calls is found. Nothing is
asked of the state of the machine but that there is a frame. -/
theorem follows_stack_use (frames : machine.frames = frame :: callers)
    (resolved : instruction.opcode = .invokevirtual →
      ∃ name method, instruction.operands.head? = some name ∧ machine.program.method? name = some method) :
    machine.FollowsUse frame callers instruction (machine.program.stackUse instruction) := by
  constructor
  · intro room
    rw [machine.program.stack_use_needs resolved]
    exact execute_underflow_iff frames room
  · intro completed other
    have notCall : instruction.opcode ≠ .invokevirtual := by
      intro isCall
      exact other (by simp [isCall])
    rcases execute_effect frames instruction with stays | ⟨name, method, calls⟩
    · obtain ⟨after, left, enough, height⟩ := stays.height completed
      refine ⟨after, left, ?_⟩
      rw [Program.takes_of_other _ notCall] at enough height
      rw [Program.stack_use_of_other _ notCall, change_eq other, height]
      omega
    · exact absurd calls.opcode notCall
  · intro completed isReturn
    rcases execute_effect frames instruction with stays | ⟨name, method, calls⟩
    · obtain ⟨value, rest, stack, left, _⟩ := stays.returned completed isReturn
      refine ⟨_, left, ?_⟩
      rw [stack]
      rfl
    · cases isReturn.symm.trans calls.opcode
  · intro completed isCall
    rcases execute_effect frames instruction with stays | ⟨name, method, calls⟩
    · exact absurd isCall (stays.no_call completed)
    · refine ⟨_, _, calls.frames, ?_, ?_, ?_⟩
      · rw [Program.stack_use_of_call _ isCall calls.named calls.found]
        rfl
      · rw [Program.stack_use_of_call _ isCall calls.named calls.found]
        rfl
      · change (frame.stack.drop (method.params.length + 1)).length + (method.params.length + 1) = _
        rw [List.length_drop]
        exact Nat.sub_add_cancel calls.enough

end Machine

/-- A call whose names are resolved finds its method. In a linked program this is so for every call. -/
theorem Resolves.method {program : Program} {blueprint : Blueprint} {instruction : Instruction}
    (resolves : Resolves program blueprint instruction) (isCall : instruction.opcode = .invokevirtual) :
    ∃ name method, instruction.operands.head? = some name ∧ program.method? name = some method := by
  unfold Resolves at resolves
  rw [isCall] at resolves
  cases operands : instruction.operands with
  | nil =>
    rw [operands] at resolves
    exact absurd resolves id
  | cons name rest =>
    rw [operands] at resolves
    obtain ⟨method, _, found⟩ := resolves
    exact ⟨name, method, rfl, found⟩

/-- An instruction of a linked block is built from the statement at its place. Linking neither moves instructions nor
leaves any out. -/
theorem Block.statement_at {block : Block} {index : Nat} {instruction : Instruction}
    (stands : block.linked.code[index]? = some instruction) :
    ∃ statement, block.statements[index]? = some statement ∧ statement.build = instruction := by
  rw [← Array.getElem?_toList] at stands
  have listed : (block.statements.map Statement.build)[index]? = some instruction := stands
  rw [List.getElem?_map] at listed
  exact Option.map_eq_some_iff.mp listed

/-- Wherever a run of an accepted source comes to an instruction, the stack use that analysis works with for the
statement there is what the instruction does to the stack of its frame. -/
theorem stack_uses_agree (source : Source) (file : Text) (program : Program)
    (compiled : (source.compile file).2 = .ok program) (machine : Machine) (loaded : machine.program = program)
    (positive : 0 < machine.depthLimit) (reached : Machine) (instruction : Instruction)
    (reaches : Stage.Reaches Machine.Touches (.between machine.restart) (.ready reached instruction)) :
    let tree := (source.compile file).1.tree
    ∃ frame callers, reached.frames = frame :: callers ∧ frame.blueprint ∈ program.blueprints ∧
      ∀ place, program.blueprints[place]? = some frame.blueprint →
        ∃ block statement, tree.blocks[place]? = some block ∧ block.statements[frame.pc.toNat]? = some statement ∧
          statement.build = instruction ∧
          let use := Analysis.useOf tree (tree.blocks.take place) block (block.statements.take frame.pc.toNat) statement
          Analysis.WorksWith (Analysis.check tree).findings use statement ∧
            reached.FollowsUse frame callers instruction use := by
  intro tree
  have linked := source.compile_linked file program compiled
  have closed := source.compile_closed file program compiled
  obtain ⟨grammatical, wellFormed, built⟩ := source.compile_tree file program compiled
  obtain ⟨main, blocks, builtMain, _⟩ := tree_build grammatical wellFormed
  cases built.symm.trans builtMain
  have upright := (Stage.Upright.start linked loaded rfl positive).reaches linked reaches
  obtain ⟨frame, callers, frames, _, stands⟩ := upright.stands
  have member := (upright.stack frames).top_sound.blueprint
  refine ⟨frame, callers, frames, member, ?_⟩
  intro place found
  rw [Tree.linked_blueprints blocks, List.getElem?_map] at found
  obtain ⟨block, known, isLinked⟩ := Option.map_eq_some_iff.mp found
  obtain ⟨statement, stated, isBuilt⟩ := Block.statement_at (isLinked ▸ stands)
  have splitBlocks := split_at_place known
  have splitStatements := split_at_place stated
  refine ⟨block, statement, known, stated, isBuilt, ?_, ?_⟩
  · exact Analysis.works_with_accepted grammatical wellFormed splitBlocks splitStatements
  · have runs : reached.program = tree.linked main := upright.loaded
    have uses : Analysis.useOf tree (tree.blocks.take place) block (block.statements.take frame.pc.toNat) statement =
        reached.program.stackUse instruction := by
      rw [runs, ← isBuilt]
      exact Analysis.use_of_accepted grammatical wellFormed main splitBlocks splitStatements
    have names := closed.names _ member instruction (Array.mem_of_getElem? stands)
    rw [uses]
    apply Machine.follows_stack_use frames
    rw [runs]
    exact names.method

/-- A source in which a jump goes round one of two values that are added. Analysis has nothing to report about it. -/
def bypass : Source := .ofText ".main
GOTO sum
BIPUSH 1
sum: BIPUSH 2
IADD
.end-main
"

/-- A machine of the program is ready for a sum, lacks a value, and faults. -/
def Machine.Phase.isShortSum (program : Program) : Machine.Phase → Bool
  | ready reached instruction => decide (instruction.opcode = .iadd ∧
      reached.frames.map (fun frame => (frame.stack, some frame.blueprint, some (frame.fault .stackUnderflow))) =
        [([2], program.blueprints[0]?, (reached.execute instruction).trap)])
  | _ => false

/-- A run comes to the sum with one value, and lacks another one. -/
theorem bypass_lacks_value : ∃ program reached instruction frame, (bypass.compile "b").2 = .ok program ∧
    (bypass.compile "b").1.warnings = [] ∧ instruction.opcode = .iadd ∧
    Stage.Reaches Machine.Touches (.between ({ program } : Machine).restart) (.ready reached instruction) ∧
    reached.frames = [frame] ∧ frame.stack = [2] ∧
    (reached.execute instruction).trap = some (frame.fault .stackUnderflow) ∧
    ∃ use, frame.stack.length < use.needs ∧ reached.FollowsUse frame [] instruction use := by
  have comes : (bypass.compile "b").2.toOption.any (fun program =>
      let pushed := ({ program } : Machine).restart.loop Machine.noHook 2 ()
      decide (pushed.ending = .suspended) && pushed.machine.next.isShortSum program) = true := by
    decide +kernel
  have silent : (bypass.compile "b").1.warnings = [] := by decide +kernel
  obtain ⟨program, compiled, passes⟩ := exists_ok_of_any comes
  rw [Bool.and_eq_true, decide_eq_true_eq] at passes
  obtain ⟨suspended, isShort⟩ := passes
  cases advanced : (({ program } : Machine).restart.loop Machine.noHook 2 ()).machine.next with
  | «over» | left =>
    rw [advanced] at isShort
    cases isShort
  | ready reached instruction =>
    rw [advanced] at isShort
    obtain ⟨isSum, shown⟩ := of_decide_eq_true isShort
    obtain ⟨frame, frames, values⟩ := List.map_eq_singleton_iff.mp shown
    obtain ⟨stack, others⟩ := Prod.mk.inj values
    obtain ⟨blueprint, trap⟩ := Prod.mk.inj others
    have same : ∀ machine, Machine.Touches machine machine := by
      intro machine
      exact ⟨rfl, rfl, rfl⟩
    have reaches := (Machine.suspended_reaches same suspended).tail (.advanced advanced (same reached))
    obtain ⟨top, callers, split, _, everywhere⟩ := stack_uses_agree bypass "b" program compiled { program } rfl
      (Nat.succ_pos 9999) reached instruction reaches
    rw [frames, List.cons.injEq] at split
    obtain ⟨rfl, rfl⟩ := split
    obtain ⟨_, _, _, _, _, _, follows⟩ := everywhere 0 blueprint.symm
    have room : ¬ reached.AtLimit instruction := by
      rintro ⟨isCall, _⟩
      cases isSum.symm.trans isCall
    exact ⟨program, reached, instruction, frame, compiled, silent, isSum, reaches, frames, stack, trap.symm, _,
      (follows.underflow room).mp ⟨_, trap.symm, rfl⟩, follows⟩

end IntegerMachine
