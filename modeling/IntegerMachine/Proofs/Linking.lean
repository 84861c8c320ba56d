import IntegerMachine.Proofs.Tables
import IntegerMachine.Proofs.WellFormed

/-!
# Linking

When a block can be linked, and what its tables are then, said about the whole of its code. Linking reads code
instruction by instruction and stops at the first mistake; what it computes without one depends on no order:
slots are the folded names of the locals, labels are found at the place where they stand, and immediate values are
those of the literal operands.

Linking a block is therefore a function of its name, its locals and its code, and succeeds exactly for linkable
blocks. The same holds of a program and the names of its methods.

What is known of a linked program, wherever it came from, is put down at the end: its tables are as long as its code,
and what is found in them lies in the code and among the locals.
-/
namespace IntegerMachine

/-- A computation in two parts gives a result exactly if the first part gives one for which the second does. -/
theorem bind_ok_iff {Error First Second : Type} (first : Except Error First) (next : First → Except Error Second)
    (result : Second) : (first >>= next) = .ok result ↔ ∃ value, first = .ok value ∧ next value = .ok result := by
  cases first with
  | error => simp [bind, Except.bind]
  | ok value => simp [bind, Except.bind]

/-- Where each element has a result, a list has the list of the results, in the same order. -/
theorem map_ok {Given Error Result : Type} {build : Given → Except Error Result} {result : Given → Result}
    (list : List Given) (built : ∀ element ∈ list, build element = .ok (result element)) :
    list.mapM build = .ok (list.map result) := by
  induction list with
  | nil => rfl
  | cons first rest ih =>
    rw [List.forall_mem_cons] at built
    rw [List.mapM_cons, built.1, ih built.2]
    rfl

/-- A result that passes a test is there. So a test by evaluation shows both that something compiles and what holds of
it. -/
theorem exists_ok_of_any {Error Result : Type} {result : Except Error Result} {test : Result → Bool}
    (passes : result.toOption.any test = true) : ∃ value, result = .ok value ∧ test value = true := by
  cases result with
  | error => cases passes
  | ok value => exact ⟨value, rfl, passes⟩

namespace Blueprint

/-- An instruction that can be linked wherever it stands. -/
structure Sound (instruction : Instruction) : Prop where
  valid : instruction.opcode.valid = true
  count : instruction.operands.length = instruction.opcode.operands.count
  literal : takesLiteral instruction.opcode = true → IsLiteral (instruction.operands.getLastD [])

/-- The value of the literal operand of an instruction; zero where there is none. -/
def valueOf (instruction : Instruction) : Cell :=
  if takesLiteral instruction.opcode then literalValue (instruction.operands.getLastD []) else 0

/-- The folded names of the labels of code that starts at an index, with the places where they stand. -/
def labelsFrom (index : Nat) : List Instruction → List (Text × Nat)
  | [] => []
  | instruction :: rest =>
    if instruction.opcode = .label then
      ((instruction.operands.headD []).fold, index) :: labelsFrom (index + 1) rest
    else labelsFrom (index + 1) rest

/-- The rules that locals and code have to keep to be linked. -/
structure Linkable (locals : List Text) (code : List Instruction) : Prop where
  /-- Locals have different names. -/
  slots : (locals.map Text.fold).Nodup
  /-- Every instruction can be linked. -/
  sound : ∀ instruction ∈ code, Sound instruction
  /-- Labels have different names. -/
  labels : ((labelsFrom 0 code).map Prod.fst).Nodup

/-- A block with the tables that linking gives it. -/
def linked (name : Text) (params vars : List Text) (code : List Instruction) : Blueprint :=
  { name, params, vars, code := code.toArray
    labels := labelsFrom 0 code
    slots := (params ++ vars).map Text.fold
    immediates := (code.map valueOf).toArray }

/-! ## Blocks -/

/-- Slots are given to locals exactly if their names are different from each other and from those before them. The
induction carries the names before them, which grow by one at each step. -/
theorem link_slots_ok_iff (block : Text) (before names slots : List Text) (distinct : before.Nodup) :
    linkSlots block before names = .ok slots ↔
      (before ++ names.map Text.fold).Nodup ∧ slots = before ++ names.map Text.fold := by
  induction names generalizing before with
  | nil => simp [linkSlots, distinct, eq_comm]
  | cons name rest ih =>
    by_cases known : name.fold ∈ before
    · rw [linkSlots, if_pos known]
      refine ⟨nofun, fun ⟨nodup, _⟩ => ?_⟩
      exact absurd rfl ((List.nodup_append.mp nodup).2.2 _ known _ List.mem_cons_self)
    · rw [linkSlots, if_neg known, ih _ (nodup_snoc.mpr ⟨distinct, known⟩), List.append_assoc]
      rfl

/-- The shape of an instruction is accepted exactly if its opcode is assigned and it has as many operands as it
wants. -/
theorem check_shape_ok_iff (block : Text) (index : Nat) (instruction : Instruction) :
    checkShape block index instruction = .ok () ↔ instruction.opcode.valid = true ∧
      instruction.operands.length = instruction.opcode.operands.count := by
  rw [checkShape]
  cases instruction.opcode.valid with
  | false => simp
  | true => by_cases count : instruction.operands.length = instruction.opcode.operands.count <;> simp [count]

/-- An instruction has an immediate value exactly if its operand is a literal where it wants one. The literal is the
last operand. -/
theorem immediate_ok_iff (block : Text) (index : Nat) (instruction : Instruction) (value : Cell) :
    immediate block index instruction = .ok value ↔
      (takesLiteral instruction.opcode = true → IsLiteral (instruction.operands.getLastD [])) ∧
        value = valueOf instruction := by
  rw [immediate, valueOf, IsLiteral, literalValue]
  cases takesLiteral instruction.opcode with
  | false => simp [eq_comm]
  | true => cases Literal.parse (instruction.operands.getLastD []) <;> simp [eq_comm]

/-- A label is entered into the table exactly if its name is new; other instructions leave the table alone. -/
theorem link_label_ok_iff (block : Text) (index : Nat) (instruction : Instruction) (before labels : List (Text × Nat))
    (distinct : (before.map Prod.fst).Nodup) :
    linkLabel block index instruction before = .ok labels ↔
      ((before ++ labelsFrom index [instruction]).map Prod.fst).Nodup ∧
        labels = before ++ labelsFrom index [instruction] := by
  by_cases isLabel : instruction.opcode = .label
  · have new : ((before ++ labelsFrom index [instruction]).map Prod.fst).Nodup ↔
        ¬ (before.lookup (instruction.operands.headD []).fold).isSome = true := by
      rw [lookup_is_some_iff, List.map_append, labelsFrom, if_pos isLabel]
      exact nodup_snoc.trans (and_iff_right distinct)
    rw [new, linkLabel, if_pos isLabel, labelsFrom, if_pos isLabel, labelsFrom]
    dsimp only
    by_cases known : (before.lookup (instruction.operands.headD []).fold).isSome = true
    · rw [if_pos known]
      exact ⟨nofun, fun fresh => absurd known fresh.1⟩
    · rw [if_neg known]
      exact ⟨fun same => ⟨known, (Except.ok.inj same).symm⟩, fun fresh => congrArg _ fresh.2.symm⟩
  · simp [linkLabel, labelsFrom, isLabel, distinct, eq_comm]

/-- The labels of code are those of its first instruction and those behind it, which start at the next index. -/
theorem labels_from_cons (index : Nat) (instruction : Instruction) (rest : List Instruction) :
    labelsFrom index (instruction :: rest) = labelsFrom index [instruction] ++ labelsFrom (index + 1) rest := by
  by_cases isLabel : instruction.opcode = .label <;> simp [labelsFrom, isLabel]

/-- Linking an instruction and then the code behind it succeeds exactly if both do. The label is entered before the
code behind it is looked at, so that it is in the way of later labels. -/
theorem link_code_cons_ok_iff (block : Text) (index : Nat) (before : List (Text × Nat)) (instruction : Instruction)
    (rest : List Instruction) (tables : List (Text × Nat) × List Cell) :
    linkCode block index before (instruction :: rest) = .ok tables ↔
      checkShape block index instruction = .ok () ∧
      ∃ labels, linkLabel block index instruction before = .ok labels ∧
      ∃ value, immediate block index instruction = .ok value ∧
      ∃ later, linkCode block (index + 1) labels rest = .ok later ∧ tables = (later.1, value :: later.2) := by
  simp only [linkCode, bind_ok_iff]
  constructor
  · rintro ⟨_, shape, labels, label, value, immediate, later, code, same⟩
    exact ⟨shape, labels, label, value, immediate, later, code, (Except.ok.inj same).symm⟩
  · rintro ⟨shape, labels, label, value, immediate, later, code, rfl⟩
    exact ⟨(), shape, labels, label, value, immediate, later, code, rfl⟩

/-- Code is linked exactly if each instruction can be linked and the names of the labels are different from each other
and from those before them. -/
theorem link_code_ok_iff (block : Text) (index : Nat) (before : List (Text × Nat)) (code : List Instruction)
    (tables : List (Text × Nat) × List Cell) (distinct : (before.map Prod.fst).Nodup) :
    linkCode block index before code = .ok tables ↔ (∀ instruction ∈ code, Sound instruction) ∧
      ((before ++ labelsFrom index code).map Prod.fst).Nodup ∧
      tables = (before ++ labelsFrom index code, code.map valueOf) := by
  induction code generalizing index before tables with
  | nil => simp [linkCode, labelsFrom, distinct, eq_comm]
  | cons instruction rest ih =>
    rw [link_code_cons_ok_iff, labels_from_cons, List.forall_mem_cons, ← List.append_assoc, check_shape_ok_iff]
    simp only [link_label_ok_iff block index instruction before _ distinct, immediate_ok_iff]
    constructor
    · rintro ⟨⟨valid, count⟩, labels, ⟨nodup, rfl⟩, value, ⟨literal, rfl⟩, later, code, rfl⟩
      obtain ⟨sound, nodupAll, rfl⟩ := (ih _ _ _ nodup).mp code
      exact ⟨⟨⟨valid, count, literal⟩, sound⟩, nodupAll, rfl⟩
    · rintro ⟨⟨own, sound⟩, nodupAll, rfl⟩
      have nodup : ((before ++ labelsFrom index [instruction]).map Prod.fst).Nodup := by
        rw [List.map_append] at nodupAll
        exact (List.nodup_append.mp nodupAll).1
      exact ⟨⟨own.valid, own.count⟩, _, ⟨nodup, rfl⟩, _, ⟨own.literal, rfl⟩, _,
        (ih _ _ _ nodup).mpr ⟨sound, nodupAll, rfl⟩, rfl⟩

/-- A block is linked exactly if it is linkable, and then gets its tables. Nothing is left of the order in which
linking looks at things. -/
theorem link_ok_iff (name : Text) (params vars : List Text) (code : List Instruction) (blueprint : Blueprint) :
    link name params vars code = .ok blueprint ↔
      Linkable (params ++ vars) code ∧ blueprint = linked name params vars code := by
  simp only [link, bind_ok_iff, link_slots_ok_iff name [] _ _ List.nodup_nil,
    link_code_ok_iff name 0 [] code _ List.nodup_nil, List.nil_append]
  constructor
  · rintro ⟨slots, ⟨distinct, rfl⟩, tables, ⟨sound, labels, rfl⟩, same⟩
    exact ⟨⟨distinct, sound, labels⟩, (Except.ok.inj same).symm⟩
  · rintro ⟨linkable, rfl⟩
    exact ⟨_, ⟨linkable.slots, rfl⟩, _, ⟨linkable.sound, linkable.labels, rfl⟩, rfl⟩

/-- The table of labels has exactly the labels of the code with their places, counted from the index at which the code
starts. -/
theorem mem_labels_from (index : Nat) (code : List Instruction) (name : Text) (place : Nat) :
    (name, place) ∈ labelsFrom index code ↔ ∃ distance instruction, place = index + distance ∧
      code[distance]? = some instruction ∧ instruction.opcode = .label ∧
      (instruction.operands.headD []).fold = name := by
  induction code generalizing index with
  | nil => simp [labelsFrom]
  | cons first rest ih =>
    rw [labels_from_cons, List.mem_append, ih]
    constructor
    · rintro (here | ⟨distance, instruction, rfl, found, isLabel, named⟩)
      · by_cases isLabel : first.opcode = .label
        · rw [labelsFrom, if_pos isLabel, labelsFrom, List.mem_singleton, Prod.mk.injEq] at here
          exact ⟨0, first, by omega, rfl, isLabel, here.1.symm⟩
        · rw [labelsFrom, if_neg isLabel, labelsFrom] at here
          cases here
      · exact ⟨distance + 1, instruction, by omega, by simpa using found, isLabel, named⟩
    · rintro ⟨distance, instruction, rfl, found, isLabel, rfl⟩
      cases distance with
      | zero =>
        obtain rfl : first = instruction := by simpa using found
        simp [labelsFrom, isLabel]
      | succ distance =>
        exact .inr ⟨distance, instruction, by omega, by simpa using found, isLabel, rfl⟩

/-- The names in the table of labels are those of the labels of the code, in their order. -/
theorem labels_from_names (index : Nat) (code : List Instruction) :
    (labelsFrom index code).map Prod.fst =
      (code.filter fun instruction => instruction.opcode = .label).map fun instruction =>
        (instruction.operands.headD []).fold := by
  induction code generalizing index with
  | nil => rfl
  | cons instruction rest ih =>
    by_cases isLabel : instruction.opcode = .label <;> simp [labelsFrom, isLabel, ih]

/-- Whether an instruction is the label with the given name. -/
def isLabel (name : Text) (instruction : Instruction) : Bool :=
  instruction.opcode = .label && (instruction.operands.headD []).fold = name.fold

/-- What is found in the table of labels is what is found by going through the code. If several labels had the same
name, the first one would be found in both. -/
theorem lookup_labels_from (index : Nat) (code : List Instruction) (name : Text) :
    (labelsFrom index code).lookup name.fold = (code.findIdx? (isLabel name)).map (· + index) := by
  induction code generalizing index with
  | nil => rfl
  | cons instruction rest ih =>
    rw [List.findIdx?_cons]
    by_cases label : instruction.opcode = .label
    · rw [labelsFrom, if_pos label, lookup_first]
      by_cases same : name.fold = (instruction.operands.headD []).fold
      · simp [isLabel, label, same]
      · have other : isLabel name instruction = false := by
          rw [isLabel, decide_eq_false (Ne.symm same), Bool.and_false]
        rw [if_neg same, ih, other]
        simp [Function.comp_def, Nat.add_assoc, Nat.add_comm 1]
    · have other : isLabel name instruction = false := by simp [isLabel, label]
      rw [labelsFrom, if_neg label, ih, other]
      simp [Function.comp_def, Nat.add_assoc, Nat.add_comm 1]

namespace Linkable

variable {params vars : List Text} {code : List Instruction} (linkable : Linkable (params ++ vars) code)

include linkable

/-- A label is found at the place where it stands, and no other name is. That names are different makes the place
unique. -/
theorem label_iff (name label : Text) (place : Nat) :
    (linked name params vars code).label? label = some place ↔ ∃ instruction, code[place]? = some instruction ∧
      instruction.opcode = .label ∧ (instruction.operands.headD []).fold = label.fold := by
  rw [label?, linked, lookup_iff_mem linkable.labels, mem_labels_from]
  simp only [Nat.zero_add]
  constructor
  · rintro ⟨_, instruction, rfl, found⟩
    exact ⟨instruction, found⟩
  · rintro ⟨instruction, found⟩
    exact ⟨place, instruction, rfl, found⟩

/-- A local is found in the slot of its place, and no other name is. -/
theorem slot_iff (name asked : Text) (place : Nat) :
    (linked name params vars code).slot? asked = some place ↔
      ∃ declared, (params ++ vars)[place]? = some declared ∧ declared.fold = asked.fold := by
  rw [slot?, linked, place_iff linkable.slots, List.getElem?_map, Option.map_eq_some_iff]

end Linkable

end Blueprint

/-! ## Programs -/

namespace Program

/-- The method table of blueprints. -/
def methodTable (methods : List Blueprint) : List (Text × Blueprint) :=
  methods.map fun method => (method.name.fold, method)

/-- What is found in a method table is what is found by going through the methods, in their order. -/
theorem lookup_method_table (methods : List Blueprint) (name : Text) :
    (methodTable methods).lookup name.fold = methods.find? fun method => method.name.fold = name.fold := by
  induction methods with
  | nil => rfl
  | cons method rest ih =>
    change ((method.name.fold, method) :: methodTable rest).lookup name.fold = _
    rw [lookup_first, List.find?_cons]
    by_cases same : name.fold = method.name.fold
    · rw [if_pos same, decide_eq_true same.symm]
    · rw [if_neg same, decide_eq_false (Ne.symm same), ih]

/-- A method table is made exactly if the names of methods are different from each other and from those before
them. -/
theorem link_methods_ok_iff (before : List (Text × Blueprint)) (methods : List Blueprint)
    (table : List (Text × Blueprint)) (distinct : (before.map Prod.fst).Nodup) :
    linkMethods before methods = .ok table ↔
      ((before ++ methodTable methods).map Prod.fst).Nodup ∧ table = before ++ methodTable methods := by
  induction methods generalizing before with
  | nil => simp [linkMethods, methodTable, distinct, eq_comm]
  | cons method rest ih =>
    by_cases known : (before.lookup method.name.fold).isSome = true
    · rw [linkMethods, if_pos known]
      rw [lookup_is_some_iff] at known
      refine ⟨nofun, fun ⟨nodup, _⟩ => ?_⟩
      rw [List.map_append] at nodup
      exact absurd rfl ((List.nodup_append.mp nodup).2.2 _ known _ List.mem_cons_self)
    · rw [linkMethods, if_neg known]
      rw [lookup_is_some_iff] at known
      have longer : ((before ++ [(method.name.fold, method)]).map Prod.fst).Nodup := by
        rw [List.map_append]
        exact nodup_snoc.mpr ⟨distinct, known⟩
      rw [ih _ longer, List.append_assoc]
      rfl

/-- The program of constants, a main block and methods, with the table that linking makes. -/
def linked (constants : List (Text × Cell)) (main : Blueprint) (methods : List Blueprint) : Program :=
  { constants := .ofList (constants.map fun constant => (constant.1.fold, constant.2))
    blueprints := main :: methods
    methods := methodTable methods }

/-- Blueprints are linked exactly if there is a main block and the methods behind it have different names. The main
block is the first one, whatever it is called. -/
theorem link_ok_iff (constants : List (Text × Cell)) (blueprints : List Blueprint) (program : Program) :
    link constants blueprints = .ok program ↔ ∃ main methods, blueprints = main :: methods ∧
      (methods.map fun method => method.name.fold).Nodup ∧ program = linked constants main methods := by
  cases blueprints with
  | nil => simp [link]
  | cons main methods =>
    have names : (methodTable methods).map Prod.fst = methods.map fun method => method.name.fold := by
      rw [methodTable, List.map_map]
      rfl
    simp only [link, bind_ok_iff, link_methods_ok_iff [] methods _ List.nodup_nil, List.nil_append, names]
    constructor
    · rintro ⟨table, ⟨distinct, rfl⟩, same⟩
      exact ⟨main, methods, rfl, distinct, (Except.ok.inj same).symm⟩
    · rintro ⟨_, _, same, distinct, rfl⟩
      cases same
      exact ⟨_, ⟨distinct, rfl⟩, rfl⟩

end Program

/-! ## What linking guarantees -/

namespace Blueprint

/-- A blueprint that linking has given. -/
def Linked (blueprint : Blueprint) : Prop := ∃ name params vars code, link name params vars code = .ok blueprint

namespace Linked

variable {blueprint : Blueprint} (isLinked : blueprint.Linked)

include isLinked

/-- Every instruction has an assigned opcode and the operands that it wants, and a literal where it wants one. -/
theorem sound (instruction : Instruction) (stands : instruction ∈ blueprint.code) : Sound instruction := by
  obtain ⟨name, params, vars, code, accepted⟩ := isLinked
  obtain ⟨linkable, rfl⟩ := (link_ok_iff _ _ _ _ _).mp accepted
  exact linkable.sound instruction (List.mem_toArray.mp stands)

/-- The slots are those of the locals, parameters first. -/
theorem slots_eq : blueprint.slots = blueprint.locals.map Text.fold := by
  obtain ⟨name, params, vars, code, accepted⟩ := isLinked
  obtain ⟨_, rfl⟩ := (link_ok_iff _ _ _ _ _).mp accepted
  rfl

/-- Different locals have different slots, since their folded names are different. -/
theorem slots_nodup : blueprint.slots.Nodup := by
  obtain ⟨name, params, vars, code, accepted⟩ := isLinked
  obtain ⟨linkable, rfl⟩ := (link_ok_iff _ _ _ _ _).mp accepted
  exact linkable.slots

/-- The immediate value of an instruction is that of its literal operand, and stands at the place of the
instruction. -/
theorem immediate_of_code {place : Nat} {instruction : Instruction}
    (stands : blueprint.code[place]? = some instruction) : blueprint.immediates[place]? = some (valueOf instruction) := by
  obtain ⟨name, params, vars, code, accepted⟩ := isLinked
  obtain ⟨_, rfl⟩ := (link_ok_iff _ _ _ _ _).mp accepted
  rw [linked, List.getElem?_toArray] at stands ⊢
  rw [List.getElem?_map, stands, Option.map_some]

/-- There is an immediate value for each instruction, also for those without a literal, where it is zero. -/
theorem immediates_size : blueprint.immediates.size = blueprint.code.size := by
  obtain ⟨name, params, vars, code, accepted⟩ := isLinked
  obtain ⟨_, rfl⟩ := (link_ok_iff _ _ _ _ _).mp accepted
  simp [linked]

/-- A label that is found stands in the code. A jump to it therefore stays in its block. -/
theorem label_inside {label : Text} {index : Nat} (found : blueprint.label? label = some index) :
    index < blueprint.code.size := by
  obtain ⟨name, params, vars, code, accepted⟩ := isLinked
  obtain ⟨linkable, rfl⟩ := (link_ok_iff _ _ _ _ _).mp accepted
  obtain ⟨instruction, stands, _⟩ := (linkable.label_iff name label index).mp found
  exact (List.getElem?_eq_some_iff.mp stands).1

/-- A label is found where it stands first in the code. A machine that searches the code for labels would go to the
same place. -/
theorem label_eq_scan (label : Text) : blueprint.label? label = blueprint.code.toList.findIdx? (isLabel label) := by
  obtain ⟨name, params, vars, code, accepted⟩ := isLinked
  obtain ⟨_, rfl⟩ := (link_ok_iff _ _ _ _ _).mp accepted
  rw [label?, linked, lookup_labels_from]
  simp

/-- A slot that is found is the slot of a local, so that a frame has a place for it. -/
theorem slot_inside {asked : Text} {slot : Nat} (found : blueprint.slot? asked = some slot) :
    slot < blueprint.locals.length := by
  obtain ⟨name, params, vars, code, accepted⟩ := isLinked
  obtain ⟨linkable, rfl⟩ := (link_ok_iff _ _ _ _ _).mp accepted
  obtain ⟨declared, listed, _⟩ := (linkable.slot_iff name asked slot).mp found
  exact (List.getElem?_eq_some_iff.mp listed).1

/-- A local is found in the slot of its place. -/
theorem slot_of_local {declared : Text} {slot : Nat} (listed : blueprint.locals[slot]? = some declared) :
    blueprint.slot? declared = some slot := by
  obtain ⟨name, params, vars, code, accepted⟩ := isLinked
  obtain ⟨linkable, rfl⟩ := (link_ok_iff _ _ _ _ _).mp accepted
  exact (linkable.slot_iff name declared slot).mpr ⟨declared, listed, rfl⟩

end Linked

end Blueprint

namespace Program

/-- A program that linking has given from linked blueprints. -/
def Linked (program : Program) : Prop :=
  ∃ constants blueprints, (∀ blueprint ∈ blueprints, blueprint.Linked) ∧ link constants blueprints = .ok program

namespace Linked

variable {program : Program} (isLinked : program.Linked)

include isLinked

/-- The blueprints of a linked program are linked, so that all that is said of linked blueprints holds of each. -/
theorem blueprints (blueprint : Blueprint) (member : blueprint ∈ program.blueprints) : blueprint.Linked := by
  obtain ⟨constants, given, each, accepted⟩ := isLinked
  obtain ⟨main, methods, rfl, _, rfl⟩ := (link_ok_iff _ _ _).mp accepted
  exact each blueprint member

/-- A linked program has a main block, since linking refuses an empty list of blueprints. -/
theorem main : ∃ main, program.main? = some main := by
  obtain ⟨constants, given, _, accepted⟩ := isLinked
  obtain ⟨main, methods, rfl, _, rfl⟩ := (link_ok_iff _ _ _).mp accepted
  exact ⟨main, rfl⟩

/-- The same as a test, which is what a run asks first. -/
theorem has_main : program.main?.isSome = true := by
  obtain ⟨main, isMain⟩ := isLinked.main
  rw [isMain, Option.isSome_some]

/-- A method is the first block of its name behind the main block. -/
theorem method_eq_scan (name : Text) :
    program.method? name = program.blueprints.tail.find? fun method => method.name.fold = name.fold := by
  obtain ⟨constants, given, _, accepted⟩ := isLinked
  obtain ⟨main, methods, rfl, _, rfl⟩ := (link_ok_iff _ _ _).mp accepted
  exact lookup_method_table methods name

/-- A method that is found is one of the blocks, and so it is linked like them. -/
theorem method_member {name : Text} {method : Blueprint} (found : program.method? name = some method) :
    method ∈ program.blueprints := by
  obtain ⟨constants, given, _, accepted⟩ := isLinked
  obtain ⟨main, methods, rfl, _, rfl⟩ := (link_ok_iff _ _ _).mp accepted
  obtain ⟨before, after, table, _⟩ := List.lookup_eq_some_iff.mp found
  have listed : (name.fold, method) ∈ (linked constants main methods).methods := by
    rw [table]
    exact List.mem_append_right before List.mem_cons_self
  obtain ⟨declared, member, same⟩ := List.mem_map.mp listed
  rw [← (Prod.mk.inj same).2]
  exact List.mem_cons_of_mem main member

end Linked

end Program

end IntegerMachine
