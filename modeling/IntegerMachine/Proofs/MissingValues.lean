import IntegerMachine.Proofs.StackUses

/-!
# Missing values and warnings

Analysis follows the depth of the stack along a block and warns where an instruction needs more values than there are.
Behind a warning it goes on from the depth that is left, and from zero if that would be negative. What an instruction gives
back is therefore not counted as soon as it lacks a value: a sum leaves one value when both of its values are there, and
none when one of them is missing. An exchange of two values leaves both or, behind a warning, the one that there was.

So a value that is missing once may be warned about again and again. A warning is repeated if there would be enough values
for the instruction, had all those been there that were missing before it. The number of warnings that are not repeated is at
most the number of values with which the block would have to start in order to avoid all warnings. There are no repeated
warnings if all that is warned about are instructions that give nothing back.
-/
namespace IntegerMachine

namespace Analysis

/-- Whether a problem is that an instruction may lack values. -/
def isUnderflow : Problem → Bool
  | .underflow .. => true
  | _ => false

/-- The warnings that an instruction may lack values. -/
def underflows (findings : List Finding) : List Diagnostic :=
  (ofSeverity .warning findings).filter fun diagnostic => isUnderflow diagnostic.problem

/-- What the third pass finds at the statements of a block, behind the given blocks, if there is a number of values on
the stack before the first one. Analysis itself starts without any. -/
def simulation (tree : Tree) (before : List Block) (block : Block) (depth : Nat) : List Finding :=
  (checkStatements (collectLabels (firstPass tree).1 (firstPass tree).2.1).2.1 block (tableAt tree before block) depth
    block.statements).2

/-- An instruction as the simulation sees it: its opcode, and how it uses the stack. -/
abbrev Demand := Opcode × StackUse

/-- The demands of the instructions among statements. They do not depend on the depth of the stack. -/
def demandsFrom (labels : Labels) (block : Block) (table : SymbolTable) : List Statement → List Demand
  | [] => []
  | .label .. :: rest => demandsFrom labels block table rest
  | .instruction position opcode operands :: rest =>
    let (table, _, use) := checkOperands labels block table position opcode operands
    (opcode, use) :: demandsFrom labels block table rest

/-- The demands of a block behind the given blocks. -/
def demands (tree : Tree) (before : List Block) (block : Block) : List Demand :=
  demandsFrom (collectLabels (firstPass tree).1 (firstPass tree).2.1).2.1 block (tableAt tree before block)
    block.statements

/-- What is lacking along demands, from a depth on. -/
def lacks (depth : Nat) : List Demand → List Problem
  | [] => []
  | (opcode, use) :: rest =>
    (if depth < use.needs then [.underflow opcode use.needs depth] else []) ++ lacks (use.after depth) rest

/-- The least depth from which nothing is lacking. -/
def shortfall : List Demand → Nat
  | [] => 0
  | (_, use) :: rest => max use.needs (shortfall rest - use.change).toNat

/-- The depth behind an instruction if the values that it lacks had been there. -/
def StackUse.supplied (use : StackUse) (depth : Nat) : Nat := (max depth use.needs + use.change).toNat

/-- The number of repeated warnings from a depth on: an instruction lacks values at that depth, but would not at the level
that there is when everything is supplied that was lacking before it. -/
def repeats (depth level : Nat) : List Demand → Nat
  | [] => 0
  | (_, use) :: rest =>
    (if depth < use.needs ∧ use.needs ≤ level then 1 else 0) + repeats (use.after depth) (use.supplied level) rest

/-- The instructions that take all the values they need and give nothing back. -/
def takers : List Opcode := [.pop, .output, .istore, .ifeq, .iflt, .ificmpeq]

/-! ## The warnings of the simulation -/

/-- No findings are no warnings. -/
@[simp] theorem underflows_nil : underflows [] = [] := rfl

/-- The warnings among findings behind others are behind the warnings among the others. -/
@[simp] theorem underflows_append (first second : List Finding) :
    underflows (first ++ second) = underflows first ++ underflows second := by
  simp [underflows, ofSeverity]

/-- A note of the depth is no warning, although both are about the stack. -/
@[simp] theorem underflows_depth (position : Position) (opcode : Opcode) (depth : Nat) (rest : List Finding) :
    underflows (.depth position opcode depth :: rest) = underflows rest := rfl

/-- Other problems are no warnings of this kind, whether they are errors or warnings. -/
theorem underflows_found (position : Position) {problem : Problem} (other : isUnderflow problem = false)
    (rest : List Finding) : underflows (found position problem :: rest) = underflows rest := by
  by_cases warns : problem.severity = .warning
  · simp [underflows, ofSeverity, found, Diagnostic.severity, warns, other]
  · simp [underflows, ofSeverity, found, Diagnostic.severity, warns]

/-- A name that is not the one of a symbol of the wanted kind is another problem: it is undefined, or defined as
something else. -/
theorem underflows_symbol {table : SymbolTable} {ident : Ident} {kind : SymbolKind} {finding : Finding}
    (failed : checkSymbol table ident kind = .error finding) : underflows [finding] = [] := by
  unfold checkSymbol at failed
  split at failed
  · cases failed
    exact underflows_found _ rfl []
  · split at failed
    · cases failed
    · cases failed
      exact underflows_found _ rfl []

/-- What is wrong with a variable is no lack of values on the stack: it is a wrong name, or a local without a
value. -/
theorem underflows_variable (table : SymbolTable) (ident : Ident) (read : Bool) :
    underflows (checkVariable table ident read) = [] := by
  unfold checkVariable
  split
  · next failed => exact underflows_symbol failed
  · split
    · exact underflows_found _ rfl []
    · rfl

/-- What is wrong with a literal is no lack of values. -/
theorem underflows_literal (opcode : Opcode) (ident : Ident) : underflows (checkLiteral opcode ident) = [] := by
  unfold checkLiteral
  split
  · exact underflows_found _ rfl []
  · rfl

/-- Nor is what is wrong with the label of a jump. -/
theorem underflows_label (labels : Labels) (block : Block) (ident : Ident) :
    underflows (checkLabel labels block ident) = [] := by
  unfold checkLabel
  dsimp only
  split
  · rfl
  · exact underflows_found _ rfl []

/-- What is wrong with the operands of an instruction is no lack of values. So all warnings of this kind come from the
depth. -/
theorem underflows_operands (labels : Labels) (block : Block) (table : SymbolTable) (position : Position)
    (opcode : Opcode) (operands : List Ident) :
    underflows (checkOperands labels block table position opcode operands).2.1 = [] := by
  cases opcode with
  | label | unassigned => exact underflows_found _ rfl []
  | bipush => exact underflows_literal _ _
  | iload | istore => exact underflows_variable _ _ _
  | iinc =>
    change underflows (checkVariable _ _ _ ++ checkLiteral _ _) = []
    rw [underflows_append, underflows_variable, underflows_literal, List.append_nil]
  | goto | ifeq | iflt | ificmpeq => exact underflows_label _ _ _
  | ldcw | invokevirtual =>
    unfold checkOperands
    dsimp only
    split
    · rfl
    · next failed => exact underflows_symbol failed
  | dup | halt | iadd | iand | input | ior | ireturn | isub | nop | output | pop | swap => rfl

/-- The warnings of the simulation are what is lacking along its demands. The induction is on the statements; the
symbol table changes along them, and the depth follows from the demands alone. -/
theorem underflows_statements (labels : Labels) (block : Block) (statements : List Statement) (table : SymbolTable)
    (depth : Nat) :
    (underflows (checkStatements labels block table depth statements).2).map Diagnostic.problem =
      lacks depth (demandsFrom labels block table statements) := by
  induction statements generalizing table depth with
  | nil => rfl
  | cons statement rest ih =>
    cases statement with
    | label position name => exact ih table depth
    | instruction position opcode operands =>
      have own := underflows_operands labels block table position opcode operands
      have warned (use : StackUse) : (underflows (checkDepth position opcode use depth)).map Diagnostic.problem =
          if depth < use.needs then [.underflow opcode use.needs depth] else [] := by
        unfold checkDepth
        split
        · rfl
        · rfl
      simp only [checkStatements, demandsFrom, lacks, underflows_append, underflows_depth, own, List.nil_append,
        List.map_append, warned, ih]

/-- The warnings about a block are what is lacking along its demands, from any depth at the start. -/
theorem underflows_simulation (tree : Tree) (before : List Block) (block : Block) (depth : Nat) :
    (underflows (simulation tree before block depth)).map Diagnostic.problem =
      lacks depth (demands tree before block) :=
  underflows_statements _ _ _ _ _

/-! ## Demands -/

/-- A demand takes no more values than it needs, all of them if it is one that gives nothing back, and only a return
clears the stack. -/
structure Sober (demand : Demand) : Prop where
  covered : 0 ≤ demand.2.needs + demand.2.change
  takes : demand.1 ∈ takers → demand.2.needs + demand.2.change = 0
  keeps : demand.1 ≠ .ireturn → demand.2.clears = false

/-- The stack use of an opcode is sober. Opcodes that are not assigned use nothing, and the others are checked one by
one. -/
theorem stack_use_sober (opcode : Opcode) : Sober (opcode, stackUse opcode) := by
  cases opcode with
  | unassigned code => exact ⟨Int.le_refl 0, fun _ => rfl, fun _ => rfl⟩
  | _ => exact ⟨by decide, by decide, by decide⟩

/-- The stack use that is assumed for an instruction is sober, also where its operands are wrong. A call of an unknown
method is taken for one without parameters. -/
theorem check_operands_sober (labels : Labels) (block : Block) (table : SymbolTable) (position : Position)
    (opcode : Opcode) (operands : List Ident) :
    Sober (opcode, (checkOperands labels block table position opcode operands).2.2) := by
  have call (params : Nat) : Sober (.invokevirtual, callUse params) := by
    refine ⟨?_, by simp [takers], fun _ => rfl⟩
    simp only [callUse]
    omega
  cases opcode with
  | invokevirtual =>
    unfold checkOperands
    dsimp only
    split
    · exact call _
    · exact call 0
  | iload =>
    unfold checkOperands
    dsimp only
    split
    · exact stack_use_sober .iload
    · exact ⟨by decide, by decide, fun _ => rfl⟩
  | ldcw =>
    unfold checkOperands
    dsimp only
    split
    · exact stack_use_sober .ldcw
    · exact stack_use_sober .ldcw
  | _ => exact stack_use_sober _

/-- The demands of statements are sober, and none of them clears the stack unless there is a return. Behind a return
the depth would be zero, whatever was lacking before it. -/
theorem demands_sober (labels : Labels) (block : Block) (statements : List Statement) (table : SymbolTable)
    (returnless : ∀ position operands, .instruction position .ireturn operands ∉ statements) :
    ∀ demand ∈ demandsFrom labels block table statements, Sober demand ∧ demand.2.clears = false := by
  induction statements generalizing table with
  | nil =>
    intro demand member
    cases member
  | cons statement rest ih =>
    have later : ∀ position operands, .instruction position .ireturn operands ∉ rest := by
      intro position operands member
      exact returnless position operands (List.mem_cons_of_mem _ member)
    cases statement with
    | label position name => exact ih table later
    | instruction position opcode operands =>
      have sober := check_operands_sober labels block table position opcode operands
      have notReturn : opcode ≠ .ireturn := by
        rintro rfl
        exact returnless position operands List.mem_cons_self
      rw [demandsFrom, List.forall_mem_cons]
      exact ⟨⟨sober, sober.keeps notReturn⟩, ih _ later⟩

/-! ## Counting -/

section Counting

variable {demands : List Demand} (sober : ∀ demand ∈ demands, Sober demand ∧ demand.2.clears = false)

include sober

/-- Nothing is lacking exactly if the depth is at least the shortfall. So the shortfall is the number of values with
which the block has to start. -/
theorem lacks_nil_iff (depth : Nat) : lacks depth demands = [] ↔ shortfall demands ≤ depth := by
  induction demands generalizing depth with
  | nil => simp [lacks, shortfall]
  | cons demand rest ih =>
    obtain ⟨opcode, use⟩ := demand
    rw [List.forall_mem_cons] at sober
    obtain ⟨⟨own, keeps⟩, others⟩ := sober
    have covered : 0 ≤ use.needs + use.change := own.covered
    have stays : use.clears = false := keeps
    simp only [lacks, shortfall, List.append_eq_nil_iff, ih others, StackUse.after, stays]
    by_cases short : depth < use.needs
    · simp only [if_pos short]
      constructor
      · rintro ⟨impossible, _⟩
        cases impossible
      · omega
    · simp only [if_neg short, Bool.false_eq_true, if_false, true_and]
      omega

/-- What is lacking is at most what would have to be supplied in addition to a level, and what is repeated. The
induction carries the level that there is when everything lacking is supplied, which is never below the depth. For a
warning that is not repeated at least one value is supplied. -/
theorem lacks_bounded {depth level : Nat} (below : depth ≤ level) :
    (lacks depth demands).length ≤ (shortfall demands - level) + repeats depth level demands := by
  induction demands generalizing depth level with
  | nil => simp [lacks]
  | cons demand rest ih =>
    obtain ⟨opcode, use⟩ := demand
    rw [List.forall_mem_cons] at sober
    obtain ⟨⟨own, keeps⟩, others⟩ := sober
    have covered : 0 ≤ use.needs + use.change := own.covered
    have stays : use.clears = false := keeps
    have onward : use.after depth ≤ use.supplied level := by
      simp only [StackUse.after, StackUse.supplied, stays, Bool.false_eq_true, if_false]
      omega
    have later := ih others onward
    simp only [lacks, shortfall, repeats, List.length_append]
    generalize (lacks (use.after depth) rest).length = lackedLater at later ⊢
    generalize repeats (use.after depth) (use.supplied level) rest = repeatedLater at later ⊢
    simp only [StackUse.supplied] at later
    by_cases short : depth < use.needs
    · simp only [short, if_true, List.length_singleton, true_and]
      by_cases enough : use.needs ≤ level
      · -- The warning is repeated: what has to be supplied is the same as before.
        simp only [if_pos enough]
        omega
      · -- The warning is new: at least one more value has to be supplied.
        simp only [if_neg enough]
        omega
    · have nothing : ¬ (depth < use.needs ∧ use.needs ≤ level) := fun both => short both.1
      simp only [if_neg short, if_neg nothing, List.length_nil]
      omega

/-- If all that lacks values gives nothing back, no warning is repeated: the depth is always the level. An instruction
that takes all it needs leaves nothing at either of them. -/
theorem repeats_eq_zero (depth : Nat)
    (taking : ∀ opcode needed found, .underflow opcode needed found ∈ lacks depth demands → opcode ∈ takers) :
    repeats depth depth demands = 0 := by
  induction demands generalizing depth with
  | nil => rfl
  | cons demand rest ih =>
    obtain ⟨opcode, use⟩ := demand
    rw [List.forall_mem_cons] at sober
    obtain ⟨⟨own, keeps⟩, others⟩ := sober
    have covered : 0 ≤ use.needs + use.change := own.covered
    have stays : use.clears = false := keeps
    have level : use.after depth = use.supplied depth := by
      simp only [StackUse.after, StackUse.supplied, stays, Bool.false_eq_true, if_false]
      by_cases short : depth < use.needs
      · have listed : .underflow opcode use.needs depth ∈ lacks depth ((opcode, use) :: rest) := by
          simp [lacks, short]
        have exact : use.needs + use.change = 0 := own.takes (taking opcode use.needs depth listed)
        omega
      · omega
    have never : ¬ (depth < use.needs ∧ use.needs ≤ depth) := by omega
    rw [repeats, if_neg never, ← level, Nat.zero_add]
    apply ih others
    intro other needed found member
    exact taking other needed found (List.mem_append_right _ member)

end Counting

/-! ## Blocks -/

/-- The findings of the simulation that starts without values are among those of analysis, if no block was left out.
They stand there in one piece. -/
theorem simulation_reported {tree : Tree} {before after : List Block} {block : Block}
    (blocks : (firstPass tree).2.1 = before ++ block :: after) :
    simulation tree before block 0 <:+: (check tree).findings := by
  have third := check_blocks_at (collectLabels (firstPass tree).1 (firstPass tree).2.1).2.1
    (collectLabels (firstPass tree).1 (firstPass tree).2.1).1 before after block
  rw [← blocks] at third
  apply (check_block_at _ _ block).trans
  apply third.trans
  exact (List.suffix_append _ _).isInfix

end Analysis

open Analysis

/-- Let a block without returns, of a source that passes analysis, avoid all warnings of missing values if it starts with
`extra` values, and with no fewer. Then the warnings that it gets are at most `extra` and those that are repeated. If all of
them are about instructions that give nothing back, they are at most `extra`. -/
theorem warnings_within_missing_values (source : Source) (file : Text) (faultless : (source.parse file).2 = [])
    (passes : (check (source.parse file).1).errors = []) (place : Nat) (block : Block)
    (found : (source.parse file).1.blocks[place]? = some block)
    (returnless : ∀ position operands, .instruction position .ireturn operands ∉ block.statements) (extra : Nat)
    (enough : underflows (simulation (source.parse file).1 ((source.parse file).1.blocks.take place) block extra) = [])
    (least : ∀ depth,
      underflows (simulation (source.parse file).1 ((source.parse file).1.blocks.take place) block depth) = [] →
        extra ≤ depth) :
    let tree := (source.parse file).1
    let before := tree.blocks.take place
    let warnings := underflows (simulation tree before block 0)
    simulation tree before block 0 <:+: (check tree).findings ∧
      warnings.length ≤ extra + repeats 0 0 (demands tree before block) ∧
      ((∀ warning ∈ warnings, ∀ opcode needed depth, warning.problem = .underflow opcode needed depth →
        opcode ∈ takers) → warnings.length ≤ extra) := by
  intro tree before warnings
  have grammatical := Source.parse_grammatical file source tree (source.parse_eq file faultless)
  have kept := (accepted_clean grammatical ((errors_nil_iff grammatical).mp passes)).2.2
  have sober : ∀ demand ∈ demands tree before block, Sober demand ∧ demand.2.clears = false :=
    demands_sober _ block block.statements _ returnless
  have problems := underflows_simulation tree before block
  have isShortfall : shortfall (demands tree before block) = extra := by
    have avoided (depth : Nat) :
        underflows (simulation tree before block depth) = [] ↔ shortfall (demands tree before block) ≤ depth := by
      rw [← lacks_nil_iff sober, ← problems, List.map_eq_nil_iff]
    apply Nat.le_antisymm
    · exact (avoided extra).mp enough
    · exact least _ ((avoided _).mpr (Nat.le_refl _))
  have counted : warnings.length = (lacks 0 (demands tree before block)).length := by
    rw [← problems, List.length_map]
  have bound : warnings.length ≤ extra + repeats 0 0 (demands tree before block) := by
    rw [counted, ← isShortfall]
    exact lacks_bounded sober (Nat.le_refl 0)
  refine ⟨simulation_reported (kept.trans (split_at_place found)), bound, ?_⟩
  intro taking
  have never : repeats 0 0 (demands tree before block) = 0 := by
    apply repeats_eq_zero sober
    intro opcode needed depth listed
    rw [← problems] at listed
    obtain ⟨warning, member, same⟩ := List.mem_map.mp listed
    exact taking warning member opcode needed depth same
  rwa [never] at bound

/-- The first block of a source that passes analysis lacks a number of values: it has no returns, and it avoids all
warnings if it starts with so many values, but not with fewer. -/
structure LacksValues (source : Source) (block : Block) (extra : Nat) : Prop where
  faultless : (source.parse "s").2 = []
  passes : (check (source.parse "s").1).errors = []
  found : (source.parse "s").1.blocks[0]? = some block
  returnless : ∀ position operands, .instruction position .ireturn operands ∉ block.statements
  enough : underflows (simulation (source.parse "s").1 [] block extra) = []
  least : ∀ depth, underflows (simulation (source.parse "s").1 [] block depth) = [] → extra ≤ depth

/-- A source can be checked for a block that lacks values. Only smaller depths have to be tried, as at these there are
warnings. -/
theorem lacks_values_of_checked (source : Source) (extra : Nat) (also : Block → Bool)
    (accepted : (source.parse "s").2 = [] ∧ (check (source.parse "s").1).errors = [])
    (checked : (source.parse "s").1.blocks[0]?.any (fun block =>
      !(instructionsOf block).any (fun instruction => instruction.2 = .ireturn) &&
        decide (underflows (simulation (source.parse "s").1 [] block extra) = [] ∧
          ∀ depth < extra, underflows (simulation (source.parse "s").1 [] block depth) ≠ []) && also block) = true) :
    ∃ block, LacksValues source block extra ∧ also block = true := by
  obtain ⟨block, found, holds⟩ := (Option.any_eq_true _ _).mp checked
  rw [Bool.and_eq_true, Bool.and_eq_true, Bool.not_eq_true', decide_eq_true_eq] at holds
  obtain ⟨⟨plain, enough, fewer⟩, shown⟩ := holds
  refine ⟨block, ⟨accepted.1, accepted.2, found, ?_, enough, ?_⟩, shown⟩
  · intro position operands listed
    have other := List.any_eq_false.mp plain (position, .ireturn) (List.mem_filterMap.mpr ⟨_, listed, rfl⟩)
    exact other (decide_eq_true rfl)
  · intro depth nothing
    exact Nat.le_of_not_lt fun less => fewer depth less nothing

/-- Two values are exchanged twice where there is one. -/
def exchanges : Source := .ofText ".main
BIPUSH 1
SWAP
SWAP
.end-main
"

/-- One value is missing at both exchanges. -/
theorem exchanges_shown : ∃ block, LacksValues exchanges block 1 ∧
    (underflows (simulation (exchanges.parse "s").1 [] block 0)).length = 2 ∧
    repeats 0 0 (demands (exchanges.parse "s").1 [] block) = 1 := by
  have accepted : (exchanges.parse "s").2 = [] ∧ (check (exchanges.parse "s").1).errors = [] := by decide +kernel
  obtain ⟨block, lacks, shown⟩ := lacks_values_of_checked exchanges 1
    (fun block => decide ((underflows (simulation (exchanges.parse "s").1 [] block 0)).length = 2 ∧
      repeats 0 0 (demands (exchanges.parse "s").1 [] block) = 1)) accepted (by decide +kernel)
  exact ⟨block, lacks, of_decide_eq_true shown⟩

/-- Two values are compared where there is one, and then one is dropped where there is none. -/
def discards : Source := .ofText ".main
BIPUSH 1
IF_ICMPEQ done
POP
done: HALT
.end-main
"

/-- Two values are missing, one at the comparison and one behind it. Both instructions give nothing back. -/
theorem discards_shown : ∃ block, LacksValues discards block 2 ∧
    (underflows (simulation (discards.parse "s").1 [] block 0)).map Diagnostic.problem =
      [.underflow .ificmpeq 2 1, .underflow .pop 1 0] := by
  have accepted : (discards.parse "s").2 = [] ∧ (check (discards.parse "s").1).errors = [] := by decide +kernel
  obtain ⟨block, lacks, shown⟩ := lacks_values_of_checked discards 2
    (fun block => decide ((underflows (simulation (discards.parse "s").1 [] block 0)).map Diagnostic.problem =
      [.underflow .ificmpeq 2 1, .underflow .pop 1 0])) accepted (by decide +kernel)
  exact ⟨block, lacks, of_decide_eq_true shown⟩

/-- Of the two warnings about the exchanges, where one value is missing, one is repeated. The warnings about what is
discarded are about takers only, and they are no more than the two values that are missing. -/
theorem exchanges_and_discards_within :
    (∃ block, (exchanges.parse "s").1.blocks[0]? = some block ∧
      (underflows (simulation (exchanges.parse "s").1 [] block 0)).length = 2 ∧
      repeats 0 0 (demands (exchanges.parse "s").1 [] block) = 1 ∧
      simulation (exchanges.parse "s").1 [] block 0 <:+: (check (exchanges.parse "s").1).findings ∧
      (underflows (simulation (exchanges.parse "s").1 [] block 0)).length ≤
        1 + repeats 0 0 (demands (exchanges.parse "s").1 [] block)) ∧
    ∃ block, (discards.parse "s").1.blocks[0]? = some block ∧
      (underflows (simulation (discards.parse "s").1 [] block 0)).map Diagnostic.problem =
        [.underflow .ificmpeq 2 1, .underflow .pop 1 0] ∧
      (∀ warning ∈ underflows (simulation (discards.parse "s").1 [] block 0), ∀ opcode needed depth,
        warning.problem = .underflow opcode needed depth → opcode ∈ takers) ∧
      (underflows (simulation (discards.parse "s").1 [] block 0)).length ≤ 2 := by
  constructor
  · obtain ⟨block, lacks, two, one⟩ := exchanges_shown
    obtain ⟨reported, bound, _⟩ := warnings_within_missing_values exchanges "s" lacks.faultless lacks.passes 0 block
      lacks.found lacks.returnless 1 lacks.enough lacks.least
    exact ⟨block, lacks.found, two, one, reported, bound⟩
  · obtain ⟨block, lacks, problems⟩ := discards_shown
    have taking : ∀ warning ∈ underflows (simulation (discards.parse "s").1 [] block 0), ∀ opcode needed depth,
        warning.problem = .underflow opcode needed depth → opcode ∈ takers := by
      intro warning member opcode needed depth same
      have listed := List.mem_map_of_mem (f := Diagnostic.problem) member
      rw [problems, same] at listed
      simp only [List.mem_cons, Problem.underflow.injEq, List.not_mem_nil, or_false] at listed
      rcases listed with ⟨rfl, _⟩ | ⟨rfl, _⟩
      · decide
      · decide
    obtain ⟨_, _, within⟩ := warnings_within_missing_values discards "s" lacks.faultless lacks.passes 0 block
      lacks.found lacks.returnless 2 lacks.enough lacks.least
    exact ⟨block, lacks.found, problems, taking, within taking⟩

/-- One value more would avoid all warnings of the block, and it gets two. -/
theorem exchanges_warned_twice : (exchanges.parse "s").2 = [] ∧ (check (exchanges.parse "s").1).errors = [] ∧
    ∃ block, (exchanges.parse "s").1.blocks[0]? = some block ∧
      (∀ position operands, .instruction position .ireturn operands ∉ block.statements) ∧
      underflows (simulation (exchanges.parse "s").1 [] block 1) = [] ∧
      (∀ depth, underflows (simulation (exchanges.parse "s").1 [] block depth) = [] → 1 ≤ depth) ∧
      ¬ (underflows (simulation (exchanges.parse "s").1 [] block 0)).length ≤ 1 := by
  obtain ⟨block, lacks, two, _⟩ := exchanges_shown
  refine ⟨lacks.faultless, lacks.passes, block, lacks.found, lacks.returnless, lacks.enough, lacks.least, ?_⟩
  rw [two]
  decide

end IntegerMachine
