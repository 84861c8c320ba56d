import IntegerMachine.Proofs.Building
import IntegerMachine.Proofs.StoredImages
import IntegerMachine.Proofs.TokenTexts

/-!
# Programs from their images

A program that was linked is read back from its image. Opcodes are found by their names, and linking the stored
blocks once more gives the same tables: a block has the tables that its name, its locals and its code determine.
The names of constants are folded already, and folding them again changes nothing; the order in which constants are
stored does not matter.

Programs are made from sources and from blueprints. In both cases their texts are UTF-8, which is all that an image
asks of them but for its limits.
-/
namespace IntegerMachine

/-! ## What can be stored -/

/-- The texts of a blueprint. -/
def Blueprint.texts (blueprint : Blueprint) : List Text :=
  blueprint.name :: (blueprint.params ++ blueprint.vars ++ blueprint.code.toList.flatMap Instruction.operands)

/-- A blueprint within the limits of images: its lists are not too long for the reader, and its lines and the
lengths of its texts fit a word, as those of any machine do. -/
structure Blueprint.WithinLimits (blueprint : Blueprint) : Prop where
  params : blueprint.params.length ≤ Cbor.sizeLimit
  vars : blueprint.vars.length ≤ Cbor.sizeLimit
  code : blueprint.code.toList.length ≤ Cbor.sizeLimit
  texts : ∀ text ∈ blueprint.texts, text.length < 0x8000000000000000
  lines : ∀ instruction ∈ blueprint.code.toList, IsWord instruction.line

/-- A program within the limits of images. -/
structure Program.WithinLimits (program : Program) : Prop where
  constants : program.constants.length ≤ Cbor.sizeLimit
  names : ∀ constant ∈ program.constants, constant.1.length < 0x8000000000000000
  blueprints : program.blueprints.length ≤ Cbor.sizeLimit
  each : ∀ blueprint ∈ program.blueprints, blueprint.WithinLimits

/-- The limits of a blueprint can be checked. -/
instance (blueprint : Blueprint) : Decidable blueprint.WithinLimits :=
  decidable_of_iff (blueprint.params.length ≤ Cbor.sizeLimit ∧ blueprint.vars.length ≤ Cbor.sizeLimit ∧
      blueprint.code.toList.length ≤ Cbor.sizeLimit ∧
      (∀ text ∈ blueprint.texts, text.length < 0x8000000000000000) ∧
      ∀ instruction ∈ blueprint.code.toList, IsWord instruction.line)
    ⟨fun ⟨params, vars, code, texts, lines⟩ => ⟨params, vars, code, texts, lines⟩,
      fun ⟨params, vars, code, texts, lines⟩ => ⟨params, vars, code, texts, lines⟩⟩

/-- The limits of a program can be checked. -/
instance (program : Program) : Decidable program.WithinLimits :=
  decidable_of_iff (program.constants.length ≤ Cbor.sizeLimit ∧
      (∀ constant ∈ program.constants, constant.1.length < 0x8000000000000000) ∧
      program.blueprints.length ≤ Cbor.sizeLimit ∧ ∀ blueprint ∈ program.blueprints, blueprint.WithinLimits)
    ⟨fun ⟨constants, names, blueprints, each⟩ => ⟨constants, names, blueprints, each⟩,
      fun ⟨constants, names, blueprints, each⟩ => ⟨constants, names, blueprints, each⟩⟩

/-- The image of a program with its constants in the given order. -/
def Program.imageWith (program : Program) (order : List (Text × Cell)) : Image :=
  { program.image with constants := some order }

/-- A blueprint that was linked from texts in UTF-8. -/
def Blueprint.FromTexts (blueprint : Blueprint) : Prop :=
  ∃ name params vars code, link name params vars code = .ok blueprint ∧ name.isUtf8 = true ∧
    (∀ param ∈ params, param.isUtf8 = true) ∧ (∀ var ∈ vars, var.isUtf8 = true) ∧
    ∀ instruction ∈ code, ∀ operand ∈ instruction.operands, operand.isUtf8 = true

/-- A program that was compiled from a text, or linked from blueprints that were linked from texts in UTF-8. -/
inductive Program.Made : Program → Prop where
  | compiled (text : Text) (failure : Option Text) (file : Text) (program : Program)
      (accepted : ((Source.ofText text failure).compile file).2 = .ok program) : Made program
  | linked (constants : List (Text × Cell)) (blueprints : List Blueprint) (program : Program)
      (fromTexts : ∀ blueprint ∈ blueprints, blueprint.FromTexts)
      (accepted : link constants blueprints = .ok program) : Made program

/-! ## Blocks -/

/-- Assigned opcodes are in the list of all, so that what is checked of the list holds of every one of them. -/
theorem Opcode.mem_all_of_valid (opcode : Opcode) (valid : opcode.valid = true) : opcode ∈ all := by
  cases opcode with
  | unassigned code => cases valid
  | _ => decide

/-- Every opcode is found by its name, which can be stored. The label has its own way, since its name is no
mnemonic. -/
theorem Image.opcode_names : ∀ opcode ∈ Opcode.all, opcode? opcode.name = some opcode ∧
    opcode.name.isUtf8 = true ∧ opcode.name.length < 0x8000000000000000 := by
  decide +kernel

/-- Stored code is loaded if its opcodes are assigned. The index serves error messages only, and the induction lets it
run along. -/
theorem Image.load_code_stored (block : Text) (index : Nat) (code : List Instruction)
    (valid : ∀ instruction ∈ code, instruction.opcode.valid = true) :
    loadCode block index (code.map Instruction.stored) = .ok code := by
  induction code generalizing index with
  | nil => rfl
  | cons instruction rest ih =>
    rw [List.forall_mem_cons] at valid
    have found := (opcode_names _ (Opcode.mem_all_of_valid _ valid.1)).1
    simp only [List.map_cons, loadCode, Instruction.stored, found]
    rw [ih (index + 1) valid.2]
    rfl

/-- A blueprint that was linked is loaded. Only its name, locals and code are stored; linking them once more gives the
same tables, as these depend on nothing else. -/
theorem Image.load_blueprint_stored (blueprint : Blueprint) (fromTexts : blueprint.FromTexts) :
    loadBlueprint blueprint.stored = .ok blueprint := by
  obtain ⟨name, params, vars, code, accepted, _⟩ := fromTexts
  obtain ⟨linkable, rfl⟩ := (Blueprint.link_ok_iff _ _ _ _ _).mp accepted
  have loaded := load_code_stored name 0 code fun instruction member => (linkable.sound instruction member).valid
  simp only [loadBlueprint, Blueprint.stored, Blueprint.linked, loaded, bind, Except.bind]
  rw [accepted]
  rfl

/-- An instruction has at most two operands, so that a list of operands is never too long for the reader. -/
theorem Operands.count_le (operands : Operands) : operands.count ≤ 2 := by
  cases operands <;> decide

/-- A blueprint within the limits that was linked from texts in UTF-8 can be stored. Besides its own texts it stores
the names of its opcodes, which are known. -/
theorem Blueprint.stored_storable (blueprint : Blueprint) (fromTexts : blueprint.FromTexts)
    (within : blueprint.WithinLimits) : blueprint.stored.Storable := by
  obtain ⟨name, params, vars, code, accepted, nameEncoded, paramsEncoded, varsEncoded, codeEncoded⟩ := fromTexts
  obtain ⟨linkable, rfl⟩ := (Blueprint.link_ok_iff _ _ _ _ _).mp accepted
  have short (text : Text) (member : text ∈ name :: (params ++ vars ++ code.flatMap Instruction.operands)) :
      text.length < 0x8000000000000000 := within.texts text member
  have codeLength : (code.map Instruction.stored).length ≤ Cbor.sizeLimit := by
    rw [List.length_map]
    exact within.code
  refine ⟨⟨nameEncoded, short name (by simp)⟩, ⟨within.params, fun param member => ?_⟩,
    ⟨within.vars, fun var member => ?_⟩, codeLength, List.forall_mem_map.mpr fun instruction member => ?_⟩
  · exact ⟨paramsEncoded param member, short param (by simp [show param ∈ params from member])⟩
  · exact ⟨varsEncoded var member, short var (by simp [show var ∈ vars from member])⟩
  · have sound := linkable.sound instruction member
    obtain ⟨_, opcodeEncoded, opcodeShort⟩ := Image.opcode_names _ (Opcode.mem_all_of_valid _ sound.valid)
    have few : instruction.operands.length ≤ Cbor.sizeLimit := by
      have count := instruction.opcode.operands.count_le
      rw [sound.count, Cbor.sizeLimit]
      omega
    refine ⟨⟨opcodeEncoded, opcodeShort⟩, ⟨few, fun operand listed => ?_⟩, within.lines instruction member⟩
    refine ⟨codeEncoded instruction member operand listed, short operand ?_⟩
    simp only [List.mem_cons, List.mem_append, List.mem_flatMap]
    exact .inr (.inr ⟨instruction, member, listed⟩)

/-! ## Programs -/

section Linked

variable {constants : List (Text × Cell)} {blueprints : List Blueprint} {program : Program}
  (accepted : Program.link constants blueprints = .ok program)

include accepted

/-- A linked program has the blueprints that it was linked from, in their order. -/
theorem linked_blueprints : program.blueprints = blueprints := by
  obtain ⟨main, methods, rfl, _, rfl⟩ := (Program.link_ok_iff _ _ _).mp accepted
  rfl

/-- The constants of a linked program are in order, and their names are folded. This is what makes the program
independent of how they were given. -/
theorem linked_constants : Constants.Ordered program.constants ∧
    ∀ constant ∈ program.constants, ∃ name : Text, constant.1 = name.fold := by
  obtain ⟨main, methods, _, _, rfl⟩ := (Program.link_ok_iff _ _ _).mp accepted
  obtain ⟨ordered, members⟩ := Constants.of_list_ordered
    (constants.map fun constant => (constant.1.fold, constant.2))
  refine ⟨ordered, fun constant member => ?_⟩
  obtain ⟨given, _, rfl⟩ := List.mem_map.mp (members constant member)
  exact ⟨given.1, rfl⟩

/-- Linking the blueprints of a linked program with its constants in any order gives the program again. Folding and
sorting have nothing left to do. -/
theorem link_again (order : List (Text × Cell)) (reordered : order.Perm program.constants) :
    Program.link order program.blueprints = .ok program := by
  obtain ⟨ordered, folded⟩ := linked_constants accepted
  obtain ⟨main, methods, rfl, distinct, same⟩ := (Program.link_ok_iff _ _ _).mp accepted
  have settled : order.map (fun constant => (constant.1.fold, constant.2)) = order := by
    refine (List.map_congr_left fun constant member => ?_).trans (List.map_id' order)
    obtain ⟨name, isFold⟩ := folded constant (reordered.mem_iff.mp member)
    rw [isFold, Text.fold_fold, ← isFold]
  have pool : Constants.ofList (order.map fun constant => (constant.1.fold, constant.2)) = program.constants := by
    rw [settled, Constants.of_list_perm ordered.distinct reordered, ordered.of_list]
  refine (Program.link_ok_iff _ _ _).mpr ⟨main, methods, by rw [same]; rfl, distinct, ?_⟩
  rw [Program.linked, pool, same]
  rfl

variable (fromTexts : ∀ blueprint ∈ blueprints, blueprint.FromTexts)

include fromTexts

/-- The image of a linked program, with its constants in any order, is loaded as the program. The mark and the version
are those that loading asks for. -/
theorem load_image (order : List (Text × Cell)) (reordered : order.Perm program.constants) :
    (program.imageWith order).load = .ok program := by
  have loaded : (program.blueprints.map Blueprint.stored).mapM Image.loadBlueprint = .ok program.blueprints := by
    refine map_read _ fun blueprint member => Image.load_blueprint_stored blueprint (fromTexts blueprint ?_)
    rw [← linked_blueprints accepted]
    exact member
  have linked := link_again accepted order reordered
  simp only [Image.load, Program.imageWith, Program.image, ne_eq, not_true_eq_false, if_false, loaded, bind,
    Except.bind, Option.getD_some, linked]
  rfl

/-- The image of a linked program within the limits, with its constants in any order, can be stored. A permutation
changes neither the number of constants nor their names. -/
theorem image_storable (within : program.WithinLimits) (order : List (Text × Cell))
    (reordered : order.Perm program.constants) : (program.imageWith order).Storable where
  mark := ⟨show Image.imageMark.isUtf8 = true by decide, show Image.imageMark.length < 0x8000000000000000 by decide⟩
  version := show IsWord Image.imageVersion from ⟨by decide, by decide⟩
  fewConstants := by
    rintro _ ⟨⟩
    rw [reordered.length_eq]
    exact within.constants
  constants := by
    rintro _ ⟨⟩ constant member
    have listed := reordered.mem_iff.mp member
    obtain ⟨name, isFold⟩ := (linked_constants accepted).2 constant listed
    exact ⟨by rw [isFold, Text.fold_is_utf8], within.names constant listed⟩
  few := by
    rw [Program.imageWith, Program.image, List.length_map]
    exact within.blueprints
  blueprints := by
    refine List.forall_mem_map.mpr fun blueprint member => ?_
    refine blueprint.stored_storable (fromTexts blueprint ?_) (within.each blueprint member)
    rw [← linked_blueprints accepted]
    exact member

/-- A linked program is read back from the bytes of its image, whatever the order of its constants in it and whatever
follows them. -/
theorem decode_image (within : program.WithinLimits) (order : List (Text × Cell))
    (reordered : order.Perm program.constants) (junk : Text) :
    Program.decode ((program.imageWith order).encode ++ junk) = .ok program := by
  rw [Program.decode, Image.decode_encoded _ (image_storable accepted fromTexts within order reordered) junk]
  exact load_image accepted fromTexts order reordered

end Linked

/-! ## Compiled programs -/

section Compiled

variable {given : Token → Prop} (encoded : ∀ token, given token → token.text.isUtf8 = true)

include encoded

/-- Names that were tokens are UTF-8, as long as all tokens of the source are. -/
theorem name_from_encoded (ident : Ident) (sound : Source.NameFrom given ident) : ident.name.isUtf8 = true := by
  obtain ⟨token, available, rfl, _⟩ := sound
  exact encoded token available

/-- The operands of a statement that was read from tokens are UTF-8. They are texts of tokens, and so is the name of a
label. -/
theorem statement_encoded (statement : Statement) (sound : Source.StatementFrom given statement) :
    ∀ operand ∈ statement.build.operands, operand.isUtf8 = true := by
  cases sound with
  | label token available named => exact List.forall_mem_singleton.mpr (encoded token available)
  | instruction token opcode operands available assigned count kinds =>
    refine List.forall_mem_map.mpr fun ident member => ?_
    obtain ⟨index, found⟩ := List.mem_iff_getElem?.mp member
    have kind := kinds index ident found
    unfold Source.OperandFrom at kind
    split at kind
    · obtain ⟨literal, supplied, rfl, _⟩ := kind
      exact encoded literal supplied
    · exact name_from_encoded encoded ident kind

/-- The blueprint of a block of an accepted tree was linked from texts in UTF-8. The name of the main block is no
token, but a fixed text. -/
theorem block_from_texts {tree : Tree} (grammatical : Source.Grammatical given tree) (wellFormed : tree.WellFormed)
    (block : Block) (member : block ∈ tree.blocks) : block.linked.FromTexts := by
  have sound := grammatical.block_from block member
  have name : block.name.isUtf8 = true := by
    cases isMain : block.isMain with
    | true => rw [(sound.main isMain).2]; decide
    | false => exact name_well_encoded block.name (sound.named trivial isMain)
  refine ⟨_, _, _, _, (Blueprint.link_ok_iff _ _ _ _ _).mpr ⟨block_linkable grammatical wellFormed member, rfl⟩,
    name, ?_, ?_, ?_⟩
  · exact List.forall_mem_map.mpr fun param listed => name_from_encoded encoded param (sound.params param listed)
  · refine List.forall_mem_map.mpr fun var listed => ?_
    obtain ⟨declared, inBlock, inDeclared⟩ := List.mem_flatMap.mp listed
    exact name_from_encoded encoded var (sound.vars declared inBlock var inDeclared)
  · exact List.forall_mem_map.mpr fun statement listed =>
      statement_encoded encoded statement (sound.statements statement listed)

end Compiled

/-- A compiled program was linked from blueprints that were linked from texts in UTF-8. A source with other bytes has
syntax errors and is not compiled. -/
theorem Source.compile_from_texts (text : Text) (failure : Option Text) (file : Text) (program : Program)
    (compiled : ((ofText text failure).compile file).2 = .ok program) :
    ∃ constants blueprints, (∀ blueprint ∈ blueprints, blueprint.FromTexts) ∧
      Program.link constants blueprints = .ok program := by
  obtain ⟨grammatical, wellFormed, built⟩ := compile_tree _ file program compiled
  obtain ⟨⟨noSyntaxErrors, _⟩, _⟩ := (Review.build_ok_iff _ _).mp compiled
  have encoded := supplied_well_encoded text failure file noSyntaxErrors
  obtain ⟨main, _, same, anyOrder⟩ := tree_build grammatical wellFormed
  rw [same] at built
  cases built
  refine ⟨_, _, List.forall_mem_map.mpr fun block member => ?_, anyOrder _ (List.Perm.refl _)⟩
  exact block_from_texts encoded grammatical wellFormed block member

/-- A program that was compiled or linked is read back from its image, whatever follows it: the same constants, the
same blocks and the same tables. The order in which the constants are stored does not matter. The limits on the
lengths of lists are those that the reader of images sets. -/
theorem made_program_round_trips (program : Program) (made : program.Made) (within : program.WithinLimits)
    (junk : Text) :
    Program.decode (program.encode ++ junk) = .ok program ∧
      ∀ order, order.Perm program.constants →
        Program.decode ((program.imageWith order).encode ++ junk) = .ok program := by
  have linked : ∃ constants blueprints, (∀ blueprint ∈ blueprints, blueprint.FromTexts) ∧
      Program.link constants blueprints = .ok program := by
    cases made with
    | compiled text failure file _ compiled => exact Source.compile_from_texts text failure file program compiled
    | linked constants blueprints _ fromTexts accepted => exact ⟨constants, blueprints, fromTexts, accepted⟩
  obtain ⟨constants, blueprints, fromTexts, accepted⟩ := linked
  exact ⟨decode_image accepted fromTexts within program.constants (List.Perm.refl _) junk,
    fun order reordered => decode_image accepted fromTexts within order reordered junk⟩

/-- The sample compiles to a program within the limits, which is read back from its image with bytes behind it. -/
theorem sample_round_trips : ∃ program, (Analysis.sample.compile "s").2 = .ok program ∧ program.WithinLimits ∧
    Program.decode (program.encode ++ [0xFF, 0x00]) = .ok program := by
  have passes : (Analysis.sample.compile "s").2.toOption.any (fun program => decide program.WithinLimits) = true := by
    decide +kernel
  obtain ⟨program, compiled, within⟩ := exists_ok_of_any passes
  exact ⟨program, compiled, of_decide_eq_true within, (made_program_round_trips program
    (.compiled _ none "s" program compiled) (of_decide_eq_true within) [0xFF, 0x00]).1⟩

end IntegerMachine
