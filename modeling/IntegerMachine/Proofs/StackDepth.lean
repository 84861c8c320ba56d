import IntegerMachine.Proofs.Activation
import IntegerMachine.Proofs.DepthNotes

/-!
# The depth of the stack in straight-line programs

A source without errors, warnings and jumps compiles to a program in which no instruction ever lacks a value and no
local is read that is not set, whatever the input is and however deep calls may go. Just before each instruction, the
operand stack is as high as analysis has followed it.

Analysis notes the depth behind each instruction, so that the depth at an instruction is the one noted for the
instruction before it in the same block. Labels have no notes; those behind a return are not covered, since a return
ends what analysis follows, while the machine goes on until the end of the block.
-/
namespace IntegerMachine

/-! ## What analysis noted for an instruction -/

/-- The number of instructions that are no labels. -/
def countInstructions (code : List Instruction) : Nat := code.countP fun instruction => instruction.opcode ≠ .label

/-- The depth that analysis had at an instruction of a block: the one noted for the instruction before it, and zero at
the first one of the block. The notes about all blocks are in one list. -/
def Analysis.Result.depthAt (result : Analysis.Result) (program : Program) (place index : Nat) : Option Nat :=
  let earlier := (program.blueprints.take place).flatMap fun blueprint => blueprint.code.toList
  program.blueprints[place]?.bind fun blueprint =>
    (0 :: (Analysis.noted result.findings).drop (countInstructions earlier))[
      countInstructions (blueprint.code.toList.take index)]?

section Notes

variable (program : Program)

/-- The number of instructions with one more in front, which does not count if it is a label. -/
theorem count_instructions_cons (instruction : Instruction) (rest : List Instruction) :
    countInstructions (instruction :: rest) =
      if instruction.opcode = .label then countInstructions rest else countInstructions rest + 1 := by
  rw [countInstructions, List.countP_cons]
  by_cases isLabel : instruction.opcode = .label <;> simp [isLabel, countInstructions]

/-- There is a depth for each instruction that is no label. By this the notes can be counted off along with the
instructions. -/
theorem depths_length (depth : Nat) (code : List Instruction) :
    (program.depths depth code).length = countInstructions code := by
  induction code generalizing depth with
  | nil => rfl
  | cons instruction rest ih =>
    rw [Program.depths, count_instructions_cons]
    split
    · exact ih _
    · rw [List.length_cons, ih]

/-- There is a depth for each instruction of several blocks that is no label. The notes of a block therefore begin
behind as many notes as there are instructions in the blocks before it. -/
theorem block_depths_length (blueprints : List Blueprint) :
    (blueprints.flatMap fun blueprint => program.depths 0 blueprint.code.toList).length =
      countInstructions (blueprints.flatMap fun blueprint => blueprint.code.toList) := by
  induction blueprints with
  | nil => rfl
  | cons first rest ih =>
    rw [List.flatMap_cons, List.flatMap_cons, List.length_append, ih, depths_length, countInstructions,
      countInstructions, countInstructions, List.countP_append]

/-- The depth behind some of the instructions is found by their number, if the depth at the start is put in front of
the notes. Labels are not counted, and do not change the depth. -/
theorem depths_get (depth : Nat) (code : List Instruction) (index : Nat) :
    (depth :: program.depths depth code)[countInstructions (code.take index)]? =
      some (program.depthAfter depth (code.take index)) := by
  induction code generalizing depth index with
  | nil =>
    rw [List.take_nil]
    rfl
  | cons instruction rest ih =>
    cases index with
    | zero => rfl
    | succ index =>
      have later := ih ((program.stackUse instruction).after depth) index
      rw [List.take_succ_cons, count_instructions_cons, Program.depths]
      split
      · rename_i isLabel
        rw [program.label_after isLabel] at later ⊢
        rw [later, Program.depthAfter, Program.depthAfter, List.foldl_cons, program.label_after isLabel]
      · rw [List.getElem?_cons_succ, later]
        rfl

/-- If the notes are the depths of all blocks, the depth at an instruction is the one behind those before it. The
notes of the earlier blocks are passed over by their number. -/
theorem depth_at_eq {result : Analysis.Result}
    (notes : Analysis.noted result.findings =
      (program.blueprints.map fun blueprint => program.depths 0 blueprint.code.toList).flatten)
    {place : Nat} {blueprint : Blueprint} (found : program.blueprints[place]? = some blueprint) (index : Nat) :
    result.depthAt program place index = some (program.depthAfter 0 (blueprint.code.toList.take index)) := by
  have split : Analysis.noted result.findings =
      ((program.blueprints.take place).flatMap fun blueprint => program.depths 0 blueprint.code.toList) ++
        (program.depths 0 blueprint.code.toList ++
          (program.blueprints.drop (place + 1)).flatMap fun blueprint => program.depths 0 blueprint.code.toList) := by
    rw [notes, ← List.flatMap_def]
    conv_lhs => rw [split_at_place found]
    rw [List.flatMap_append, List.flatMap_cons]
  have own := depths_get program 0 blueprint.code.toList index
  have inside := (List.getElem?_eq_some_iff.mp own).1
  rw [Analysis.Result.depthAt, found, Option.bind_some, split, ← block_depths_length program, List.drop_left,
    ← List.cons_append, List.getElem?_append_left inside]
  exact own

end Notes

/-! ## Straight-line sources -/

namespace Block

/-- Code that is split comes from statements that are split in the same way, since each statement gives one
instruction. -/
theorem split_statements {block : Block} {before after : List Instruction} {instruction : Instruction}
    (split : block.code = before ++ instruction :: after) :
    ∃ earlier statement later, block.statements = earlier ++ statement :: later ∧
      earlier.map Statement.build = before ∧ statement.build = instruction ∧ later.map Statement.build = after := by
  obtain ⟨earlier, rest, statements, built, builtRest⟩ := List.map_eq_append_iff.mp split
  obtain ⟨statement, later, rfl, builtOne, builtLater⟩ := List.map_eq_cons_iff.mp builtRest
  exact ⟨earlier, statement, later, statements, built, builtOne, builtLater⟩

end Block

/-- If no instruction is reported to follow a return, no instruction follows one. Each instruction is compared with
the one behind it only, and this is enough, since a return that is followed by anything is followed by some next
one. -/
theorem Analysis.check_unreachable_silent (code : List (Position × Opcode)) (silent : Silent (checkUnreachable code))
    (before after : List (Position × Opcode)) (position : Position)
    (split : code = before ++ (position, .ireturn) :: after) : after = [] := by
  fun_induction checkUnreachable code generalizing before with
  | case1 first second rest ih =>
    rw [silent_append] at silent
    cases before with
    | nil =>
      cases split
      exact absurd silent.1 (silent_found _ _ _)
    | cons head before =>
      obtain ⟨-, splitRest⟩ := List.cons.inj split
      exact ih silent.2 before splitRest
  | case2 code short =>
    -- There are less than two instructions.
    cases before with
    | nil =>
      cases after with
      | nil => rfl
      | cons second rest => exact (short _ _ _ split).elim
    | cons first before =>
      cases before with
      | nil => exact (short _ _ _ split).elim
      | cons second before => exact (short _ _ _ split).elim

section Accepted

variable {given : Token → Prop} {tree : Tree} (grammatical : Source.Grammatical given tree)
  (wellFormed : tree.WellFormed) {block : Block} (member : block ∈ tree.blocks)

/-- Behind a return of a block there are labels only. An instruction there would have been reported as one that is not
reached. -/
theorem labels_behind_return {program : Program} (followed : Analysis.Followed program block)
    {before after : List Instruction} {instruction : Instruction}
    (split : block.code = before ++ instruction :: after) (isReturn : instruction.opcode = .ireturn) :
    ∀ later ∈ after, later.opcode = .label := by
  obtain ⟨earlier, statement, rest, statements, -, rfl, rfl⟩ := Block.split_statements split
  cases statement with
  | label => cases isReturn
  | instruction position opcode operands =>
    have isReturnHere : opcode = .ireturn := isReturn
    subst isReturnHere
    have splitInstructions : Analysis.instructionsOf block =
        Analysis.instructionsOf { block with statements := earlier } ++ (position, .ireturn) ::
          Analysis.instructionsOf { block with statements := rest } := by
      unfold Analysis.instructionsOf
      rw [statements, List.filterMap_append]
      rfl
    have nothing := Analysis.check_unreachable_silent _ followed.final _ _ position splitInstructions
    intro later listed
    obtain ⟨statement, inRest, rfl⟩ := List.mem_map.mp listed
    have isLabel := List.filterMap_eq_nil_iff.mp nothing statement inRest
    cases statement with
    | label => rfl
    | instruction => cases isLabel

include grammatical wellFormed member

/-- The first operand of an instruction that reads a local is a local that has got a value. Otherwise there would have
been an error about it. -/
theorem read_initialized {before after : List Statement} {position : Position} {opcode : Opcode} {operands : List Ident}
    (split : block.statements = before ++ .instruction position opcode operands :: after)
    (reads : opcode ∈ [.iload, .iinc]) : ∃ ident, operands.head? = some ident ∧ block.Initialized before ident.name := by
  have rules := wellFormed.blocks block member
  have listed : .instruction position opcode operands ∈ block.statements := by simp [split]
  obtain ⟨-, count⟩ := grammatical.instruction_shape block member position opcode operands listed
  simp only [List.mem_cons, List.not_mem_nil, or_false] at reads
  rcases reads with rfl | rfl
  · obtain ⟨name, rfl⟩ := List.length_eq_one_iff.mp count
    exact ⟨name, rfl, (rules.loaded before name ⟨position, after, split⟩).2⟩
  · obtain ⟨name, rest, rfl⟩ := List.exists_cons_of_length_eq_add_one count
    obtain ⟨literal, rfl⟩ := List.length_eq_one_iff.mp (Nat.succ.inj count)
    exact ⟨name, rfl, (rules.increased before name literal ⟨position, after, split⟩).2⟩

/-- A local that is read is a parameter, or an earlier instruction stores into it. Analysis knows the local by its
name, and the machine by its slot; the two are matched here. -/
theorem local_valued {before after : List Instruction} {instruction : Instruction}
    (split : block.code = before ++ instruction :: after) (reads : instruction.opcode ∈ [.iload, .iinc]) {name : Text}
    {slot : Nat} (named : instruction.operands.head? = some name) (found : block.linked.slot? name = some slot) :
    slot < block.linked.params.length ∨ ∃ store ∈ before, store.opcode = .istore ∧
      ∃ target, store.operands.head? = some target ∧ block.linked.slot? target = some slot := by
  obtain ⟨earlier, statement, later, statements, rfl, rfl, -⟩ := Block.split_statements split
  cases statement with
  | label => simp [Statement.build] at reads
  | instruction position opcode operands =>
    obtain ⟨ident, first, initialized⟩ := read_initialized grammatical wellFormed member statements reads
    have sameName : ident.name = name := by simpa [Statement.build, first] using named
    subst sameName
    rcases initialized with isParam | ⟨place, target, stored, same⟩
    · left
      obtain ⟨param, listed, same⟩ := List.mem_map.mp isParam
      obtain ⟨index, here⟩ := List.mem_iff_getElem?.mp listed
      have inside : index < (block.params.map Ident.name).length := by
        rw [List.length_map]
        exact (List.getElem?_eq_some_iff.mp here).1
      have declared : (block.params.map Ident.name ++ block.variables.map Ident.name)[index]? = some param.name := by
        rw [List.getElem?_append_left inside, List.getElem?_map, here]
        rfl
      have inSlot := ((block_linkable grammatical wellFormed member).slot_iff block.name ident.name index).mpr
        ⟨param.name, declared, same⟩
      cases found.symm.trans inSlot
      exact inside
    · right
      refine ⟨_, List.mem_map_of_mem stored, rfl, target.name, rfl, ?_⟩
      rw [Blueprint.slot?, same]
      exact found

/-- A block without jumps about which nothing is reported keeps the rules for straight lines. That instructions find
their values is known from the depths that analysis has followed. -/
theorem block_straight {program : Program} (followed : Analysis.Followed program block)
    (jumpless : ∀ position opcode operands, .instruction position opcode operands ∈ block.statements →
      opcode ∉ [.goto, .ifeq, .iflt, .ificmpeq]) : block.linked.Straight program := by
  refine ⟨?_, followed.fed, ?_, ?_⟩
  · intro instruction stands
    obtain ⟨statement, listed, rfl⟩ := List.mem_map.mp (List.mem_toArray.mp stands)
    cases statement with
    | label => rfl
    | instruction position opcode operands =>
      have other := jumpless position opcode operands listed
      change opcode.isJump = false
      cases opcode with
      | goto | ifeq | iflt | ificmpeq => simp at other
      | _ => rfl
  · intro before instruction after split isReturn
    exact labels_behind_return followed split isReturn
  · intro before instruction after split reads name slot named found
    exact local_valued grammatical wellFormed member split reads named found

end Accepted

/-- The program of an accepted tree without jumps about which nothing is reported keeps the rules for straight lines.
Besides its blocks, this asks that the main block has no parameters and that each method returns. -/
theorem tree_straight {given : Token → Prop} {tree : Tree} (grammatical : Source.Grammatical given tree)
    (wellFormed : tree.WellFormed) {main : Block} (blocks : tree.blocks = main :: tree.methods)
    (followed : ∀ block ∈ tree.blocks, Analysis.Followed (tree.linked main) block)
    (jumpless : ∀ block ∈ tree.blocks, ∀ position opcode operands,
      .instruction position opcode operands ∈ block.statements → opcode ∉ [.goto, .ifeq, .iflt, .ificmpeq]) :
    (tree.linked main).Straight := by
  refine ⟨?_, ?_, ?_⟩
  · rw [Tree.linked_blueprints blocks, List.forall_mem_map]
    intro block member
    exact block_straight grammatical wellFormed member (followed block member) (jumpless block member)
  · rintro _ ⟨⟩
    obtain ⟨known, isKnown, same⟩ := grammatical.blocks_eq
    cases blocks.symm.trans same
    obtain ⟨isMain, sound⟩ := grammatical.contents.main main isKnown
    change main.params.map Ident.name = []
    rw [(sound.main isMain).1, List.map_nil]
  · intro name blueprint found
    obtain ⟨method, member, -, rfl⟩ := (methods_mirror wellFormed main name blueprint).mp found
    obtain ⟨before, position, after, split⟩ := wellFormed.returns method member
    intro unreturned
    refine unreturned (Statement.instruction position .ireturn []).build ?_ rfl
    exact List.mem_map_of_mem (by simp [split])

/-- A source that compiles without warnings was analysed, and there was nothing to report. Notes about depths are not
reported, and are found all the same. -/
theorem Source.compile_silent (source : Source) (file : Text) (program : Program)
    (compiled : (source.compile file).2 = .ok program) (noWarnings : (source.compile file).1.warnings = []) :
    (source.compile file).1.analysis = some (Analysis.check (source.compile file).1.tree) ∧
      Analysis.Silent (Analysis.check (source.compile file).1.tree).findings := by
  obtain ⟨⟨noSyntaxErrors, noErrors⟩, -⟩ := (Review.build_ok_iff _ _).mp compiled
  have analysed : (source.compile file).1.analysis = some (Analysis.check (source.compile file).1.tree) :=
    if_pos (List.isEmpty_iff.mpr noSyntaxErrors)
  refine ⟨analysed, Analysis.silent_of_reports ?_ ?_⟩
  · change (source.compile file).1.errors = [] at noErrors
    rw [Review.errors, analysed] at noErrors
    exact noErrors
  · rw [Review.warnings, analysed] at noWarnings
    exact noWarnings

/-- A source without jumps that compiles without warnings gives a straight-line program, and analysis had the depths
at its instructions that follow from the table of stack uses. No machine comes in yet: this compares what analysis has
noted with the code of the program. -/
theorem Source.compile_straight (source : Source) (file : Text) (program : Program)
    (compiled : (source.compile file).2 = .ok program) (noWarnings : (source.compile file).1.warnings = [])
    (jumpless : ∀ block ∈ (source.compile file).1.tree.blocks, ∀ position opcode operands,
      .instruction position opcode operands ∈ block.statements → opcode ∉ [.goto, .ifeq, .iflt, .ificmpeq]) :
    program.Straight ∧ ∀ (place : Nat) blueprint, program.blueprints[place]? = some blueprint → ∀ index,
      (Analysis.check (source.compile file).1.tree).depthAt program place index =
        some (program.depthAfter 0 (blueprint.code.toList.take index)) := by
  obtain ⟨-, silent⟩ := source.compile_silent file program compiled noWarnings
  obtain ⟨grammatical, wellFormed, built⟩ := source.compile_tree file program compiled
  obtain ⟨main, blocks, builtMain, -⟩ := tree_build grammatical wellFormed
  cases built.symm.trans builtMain
  obtain ⟨notes, followed⟩ := Analysis.check_silent grammatical wellFormed main silent
  refine ⟨tree_straight grammatical wellFormed blocks followed jumpless, ?_⟩
  intro place blueprint found index
  refine depth_at_eq _ ?_ found index
  rw [Tree.linked_blueprints blocks, List.map_map]
  exact notes

/-- A hook that observes leaves the frames alone. The steps of a run with such a hook are steps of the relation that
is reasoned about. -/
theorem Machine.Observes.respects {State : Type} {hook : Hook State} (observes : Observes hook) :
    Respects Spares hook := by
  constructor
  · intro state machine
    rw [(observes state machine).1]
    exact .refl machine
  · intro state machine
    exact (observes state machine).2.imp_right .inl

/-- A source without jumps that compiles without errors and warnings gives a program whose runs never lack a value on
the stack and never read a local that is not set. At every instruction that a run comes to, and at every label in
front of a return, the stack is as high as analysis had it there. -/
theorem straight_line_sound (source : Source) (file : Text) (program : Program)
    (compiled : (source.compile file).2 = .ok program) (noWarnings : (source.compile file).1.warnings = [])
    (jumpless : ∀ block ∈ (source.compile file).1.tree.blocks, ∀ position opcode operands,
      .instruction position opcode operands ∈ block.statements → opcode ∉ [.goto, .ifeq, .iflt, .ificmpeq])
    (machine : Machine) (loaded : machine.program = program) (positive : 0 < machine.depthLimit) {State : Type}
    (hook : Hook State) (observes : Machine.Observes hook) (fuel : Nat) (state : State) :
    (∀ fault, (machine.run hook fuel state).ending = .trapped (.fault fault) →
      fault.kind ≠ .stackUnderflow ∧ fault.kind ≠ .unsetLocal) ∧
    ∃ analysis, (source.compile file).1.analysis = some analysis ∧ ∀ reached instruction,
      Stage.Reaches Machine.Spares (.between machine.restart) (.ready reached instruction) →
        ∃ frame callers, reached.frames = frame :: callers ∧ frame.blueprint ∈ program.blueprints ∧
          (instruction.opcode ≠ .label ∨ Unreturned (frame.blueprint.code.toList.take frame.pc.toNat) →
            ∀ place, program.blueprints[place]? = some frame.blueprint →
              analysis.depthAt program place frame.pc.toNat = some frame.stack.length) := by
  have linked := source.compile_linked file program compiled
  obtain ⟨straight, depths⟩ := source.compile_straight file program compiled noWarnings jumpless
  have upright := Stage.Upright.start linked loaded rfl positive
  have leveled {stage : Stage} (reaches : Stage.Reaches Machine.Spares (.between machine.restart) stage) :
      stage.Leveled program := (Stage.Leveled.start machine).reaches straight linked upright reaches
  constructor
  · intro fault ended
    have hasMain : machine.program.main?.isSome = true := by rw [loaded]; exact linked.has_main
    obtain ⟨stage, output, reaches, -, ends | ⟨failure, failed⟩⟩ :=
      Machine.run_reaches observes.respects machine hasMain fuel state
    · rw [ended] at ends
      cases ends with
      | interrupted _ raised =>
        -- A hook that observes raises no fault.
        obtain ⟨asked, reached, verdict⟩ := raised
        rcases (observes asked reached).2 with proceeds | ⟨reason, stops⟩
        · cases verdict.symm.trans proceeds
        · cases verdict.symm.trans stops
      | trapped =>
        have expected := leveled reaches fault rfl
        simp only [List.mem_cons, List.not_mem_nil, or_false, not_or] at expected
        exact expected
    · cases ended.symm.trans failed
  · refine ⟨_, (source.compile_silent file program compiled noWarnings).1, ?_⟩
    intro reached instruction reaches
    have here := upright.reaches linked (Stage.Reaches.imp Machine.Spares.touches reaches)
    obtain ⟨frame, callers, frames, -, stands⟩ := here.stands
    have sound : frame.Sound program := (here.stack frames).top_sound
    refine ⟨frame, callers, frames, sound.blueprint, fun counted place found => ?_⟩
    have level := (leveled reaches).2 frame (by rw [Machine.current?, frames, List.head?_cons])
    have unreturned : Unreturned (frame.blueprint.code.toList.take frame.pc.toNat) :=
      counted.elim ((straight.blocks _ sound.blueprint).unreturned stands) id
    rw [depths place frame.blueprint found, level.height unreturned]

/-- The program that calls a method has no jumps and is reported about in no way. At its call there are four values on
the stack, as analysis had it. -/
theorem addition_sound : ∃ program analysis, (addition.compile "a").2 = .ok program ∧
    (addition.compile "a").1.warnings = [] ∧ (addition.compile "a").1.analysis = some analysis ∧
    (∀ fault, (({ program } : Machine).run Machine.noHook 20 ()).ending = .trapped (.fault fault) →
      fault.kind ≠ .stackUnderflow ∧ fault.kind ≠ .unsetLocal) ∧
    analysis.depthAt program 0 4 = some 4 := by
  obtain ⟨noWarnings, noJumps⟩ : (addition.compile "a").1.warnings = [] ∧
      ∀ block ∈ (addition.compile "a").1.tree.blocks, ∀ instruction ∈ Analysis.instructionsOf block,
        instruction.2 ∉ [.goto, .ifeq, .iflt, .ificmpeq] := by
    decide +kernel
  obtain ⟨program, before, instruction, frame, method, compiled, reached, isCall, -, frames, stack, pc, first, -⟩ :=
    addition_reaches
  obtain ⟨noFault, analysis, analysed, depths⟩ := straight_line_sound addition "a" program compiled noWarnings
    (fun block member position opcode operands listed =>
      noJumps block member (position, opcode) (List.mem_filterMap.mpr ⟨_, listed, rfl⟩))
    { program } rfl (Nat.succ_pos _) Machine.noHook Machine.no_hook_observes 20 ()
  refine ⟨program, analysis, compiled, noWarnings, analysed, noFault, ?_⟩
  obtain ⟨top, callers, sameFrames, -, depth⟩ := depths before instruction reached
  cases frames.symm.trans sameFrames
  have atCall := depth (.inl (by rw [isCall]; decide)) 0 first
  rw [pc, stack] at atCall
  exact atCall

end IntegerMachine
