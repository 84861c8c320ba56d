import IntegerMachine.Proofs.CheckedParse

/-!
# The shape of trees with errors

Later stages take a tree as it is, also one with syntax errors, and look at operands without counting them. So it matters
what every tree has, whatever the bytes of its source were and whether the device has failed behind them: instructions
with as many operands as their opcode wants, operands of the right kind, and names that are names. A line with an error
may only leave a method without its name.
-/
namespace IntegerMachine

namespace Source

/-- A source has a literal with the given text: a quoted character, or a word that does not start with a full stop. -/
def SuppliesLiteral (source : Source) (text : Text) : Prop :=
  ∃ token, source.Supplies token ∧ token.text = text ∧
    (token.kind = .quoted ∨ token.kind = .word ∧ token.dotted = false)

/-- An instruction as later stages take it. -/
structure SoundInstruction (source : Source) (opcode : Opcode) (operands : List Ident) : Prop where
  valid : opcode.valid = true
  noLabel : opcode ≠ .label
  count : operands.length = opcode.operands.count
  literals : ∀ index operand, operands[index]? = some operand → operandKind opcode index = .literal →
    source.SuppliesLiteral operand.name
  names : ∀ index operand, operands[index]? = some operand → operandKind opcode index ≠ .literal →
    isName operand.name = true

/-- The contents of a block as later stages take them. -/
structure SoundBlock (source : Source) (block : Block) : Prop where
  params : ∀ param ∈ block.params, isName param.name = true
  vars : ∀ declared ∈ block.vars, ∀ ident ∈ declared.names, isName ident.name = true
  labels : ∀ position name, .label position name ∈ block.statements → isName name = true
  instructions : ∀ position opcode operands, .instruction position opcode operands ∈ block.statements →
    source.SoundInstruction opcode operands

/-- A tree as later stages take it, with the syntax errors that it has. -/
structure SoundTree (source : Source) (tree : Tree) (errors : List SyntaxError) : Prop where
  constants : ∀ constant ∈ tree.constants, isName constant.name = true ∧ source.SuppliesLiteral constant.value
  blocks : ∀ block ∈ tree.blocks, source.SoundBlock block
  main : ∀ block, tree.main = some block → block.isMain = true
  methods : ∀ block ∈ tree.methods, block.isMain = false
  named : errors = [] → ∀ block ∈ tree.methods, isName block.name = true

/-- A token that can be a literal is a quoted character or a word that does not start with a full stop. -/
theorem literal_kind {token : Token} (isLiteral : token.isLiteral = true) :
    token.kind = .quoted ∨ token.kind = .word ∧ token.dotted = false := by
  simpa [Token.isLiteral] using isLiteral

/-- A name that was a token is a name. -/
theorem NameFrom.named {given : Token → Prop} {ident : Ident} (from_ : NameFrom given ident) :
    isName ident.name = true := by
  obtain ⟨token, _, rfl, named⟩ := from_
  exact named

section

variable {source : Source} {clean : Prop}

/-- Instructions that were read from tokens of a source are sound. An instruction with operands of the wrong kind or
number is left out of the tree. -/
theorem StatementFrom.sound_instruction {position : Position} {opcode : Opcode} {operands : List Ident}
    (statement : StatementFrom source.Supplies (.instruction position opcode operands)) :
    source.SoundInstruction opcode operands := by
  cases statement with
  | instruction first _ _ _ assigned count kinds =>
    obtain ⟨valid, noLabel⟩ := Opcode.valid_of_instruction assigned
    refine ⟨valid, noLabel, count, ?_, ?_⟩
    · intro index operand found literal
      have wanted := kinds index operand found
      rw [OperandFrom, if_pos literal] at wanted
      obtain ⟨token, supplied, rfl, isLiteral⟩ := wanted
      exact ⟨token, supplied, rfl, literal_kind isLiteral⟩
    · intro index operand found name
      have wanted := kinds index operand found
      rw [OperandFrom, if_neg name] at wanted
      exact wanted.named

/-- Blocks that were read from tokens of a source are sound. Nothing is said of the name, which a line with an error
may lack. -/
theorem BlockFrom.sound_block {block : Block} (contents : BlockFrom source.Supplies clean block) :
    source.SoundBlock block := by
  constructor
  · intro param member
    exact (contents.params param member).named
  · intro declared member ident listed
    exact (contents.vars declared member ident listed).named
  · intro position name member
    cases contents.statements _ member with
    | label token _ named => exact named
  · intro position opcode operands member
    exact (contents.statements _ member).sound_instruction

/-- Trees that were read from tokens of a source are sound. That methods have names holds only if there were no
errors. -/
theorem TreeFrom.sound_tree {tree : Tree} {errors : List SyntaxError}
    (contents : TreeFrom source.Supplies (errors = []) tree) : source.SoundTree tree errors := by
  constructor
  · intro constant member
    obtain ⟨name, token, supplied, text, isLiteral⟩ := contents.constants constant member
    exact ⟨name.named, token, supplied, text, literal_kind isLiteral⟩
  · intro block member
    rcases List.mem_append.mp member with main | method
    · exact (contents.main block (Option.mem_toList.mp main)).2.sound_block
    · exact (contents.methods block method).2.sound_block
  · intro block known
    exact (contents.main block known).1
  · intro block member
    exact (contents.methods block member).1
  · intro faultless block member
    obtain ⟨unmarked, method⟩ := contents.methods block member
    exact method.named faultless unmarked

end

/-- Whatever the bytes of a source are, and whether or not the device fails behind them, no access of the parser goes
astray, and the tree is sound. -/
theorem parse_sound (file text : Text) (failure : Option Text) :
    let source := ofText text failure
    Checked.parse file source = .ok (source.parse file) ∧
      source.SoundTree (source.parse file).1 (source.parse file).2 := by
  intro source
  constructor
  · exact Checked.checked_parse_eq file source
  · exact (source.parse_from file).sound_tree

end Source

end IntegerMachine
