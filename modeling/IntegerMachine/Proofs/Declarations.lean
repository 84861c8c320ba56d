import IntegerMachine.Analysis.Check
import IntegerMachine.Proofs.SymbolTable
import IntegerMachine.Proofs.WellFormed

/-!
# Declaring constants, methods and labels

The first two passes of analysis. For each function there is a law that says when it reports no error, and one that
says what the table knows afterwards. Names are declared one by one into a table that changes; that no error comes
up is nevertheless a statement about the whole list of names, namely that they are different and new.

A table that was filled without errors is described by what was added to it, never by its list of symbols. What it
says after an error does not matter, except for labels, whose scopes must be left in order for the third pass.
-/
namespace IntegerMachine.Analysis

open SymbolTable

/-! ## Findings without errors -/

/-- There are no errors among findings. -/
def Clean (findings : List Finding) : Prop := ofSeverity .error findings = []

/-- Without findings there are no errors. -/
@[simp] theorem clean_nil : Clean [] := rfl

/-- Findings are without errors exactly if both parts are. -/
@[simp] theorem clean_append (first second : List Finding) :
    Clean (first ++ second) ↔ Clean first ∧ Clean second := by
  simp [Clean, ofSeverity, List.filterMap_append]

/-- Notes about the depth of the stack are no errors. -/
@[simp] theorem clean_depth (position : Position) (opcode : Opcode) (depth : Nat) (rest : List Finding) :
    Clean (.depth position opcode depth :: rest) ↔ Clean rest := by
  simp [Clean, ofSeverity]

/-- A problem in front of findings must be a warning. -/
@[simp] theorem clean_found (position : Position) (problem : Problem) (rest : List Finding) :
    Clean (found position problem :: rest) ↔ problem.severity = .warning ∧ Clean rest := by
  cases severity : problem.severity <;>
    simp [Clean, ofSeverity, found, Diagnostic.severity, severity]

/-! ## Tables that get more names -/

/-- The table `after` knows the folded names as symbols of a kind in the active scope; apart from that it says what
the table `before` says. -/
structure Adds (kind : SymbolKind) (names : List Text) (before after : SymbolTable) : Prop where
  scope : after.scope = before.scope
  kinds : ∀ scope name, after.kind? scope name =
    if before.scope = scope ∧ name.fold ∈ names then some kind else before.kind? scope name

namespace Adds

/-- A table that is not changed gets no names. -/
theorem refl (kind : SymbolKind) (table : SymbolTable) : Adds kind [] table table :=
  ⟨rfl, by simp⟩

/-- A symbol that is added makes its folded name known in the active scope, under its kind. -/
theorem add (table : SymbolTable) (name : Text) (position : Position) (info : SymbolInfo) :
    Adds info.kind [name.fold] table (table.add name position info) := by
  refine ⟨rfl, fun scope other => ?_⟩
  rw [kind_add]
  simp only [List.mem_singleton, eq_comm]

/-- Names that are added in two steps are added together. The later ones may hide earlier ones, which have the same
kind. -/
theorem trans {kind : SymbolKind} {first second : List Text} {before between after : SymbolTable}
    (earlier : Adds kind first before between) (later : Adds kind second between after) :
    Adds kind (first ++ second) before after := by
  refine ⟨later.scope.trans earlier.scope, fun scope name => ?_⟩
  rw [later.kinds, earlier.kinds, earlier.scope]
  by_cases here : before.scope = scope <;> by_cases inFirst : name.fold ∈ first <;>
    by_cases inSecond : name.fold ∈ second <;> simp [here, inFirst, inSecond]

/-- A name is unknown afterwards if it was unknown before and is none of those added. -/
theorem unknown_iff {kind : SymbolKind} {names : List Text} {before after : SymbolTable}
    (adds : Adds kind names before after) (name : Text) :
    after.kind? after.scope name = none ↔ name.fold ∉ names ∧ before.kind? before.scope name = none := by
  rw [adds.scope, adds.kinds]
  by_cases member : name.fold ∈ names <;> simp [member]

end Adds

/-- Nothing is known about a name in the active scope exactly if look-up there finds no symbol. -/
theorem lookup_local_none (table : SymbolTable) (name : Text) :
    table.lookupLocal? name = none ↔ table.kind? table.scope name = none := by
  rw [kind_of_found, Option.map_eq_none_iff, lookupLocal?]

/-- A list of names is declared one by one: they are new and different exactly if the first is new and the others are
new and different once the first is known. It is the step of each induction below. -/
theorem unknown_distinct_cons {Declared : Type} (nameOf : Declared → Text) {kind : SymbolKind}
    {before after : SymbolTable} (first : Declared) (rest : List Declared)
    (adds : Adds kind [(nameOf first).fold] before after) :
    ((first :: rest).map fun declared => (nameOf declared).fold).Nodup ∧
        (∀ declared ∈ first :: rest, before.kind? before.scope (nameOf declared) = none) ↔
      before.kind? before.scope (nameOf first) = none ∧
        (rest.map fun declared => (nameOf declared).fold).Nodup ∧
        ∀ declared ∈ rest, after.kind? after.scope (nameOf declared) = none := by
  simp only [adds.unknown_iff, List.mem_singleton, List.map_cons, List.nodup_cons, List.forall_mem_cons,
    List.mem_map, not_exists, not_and]
  constructor
  · rintro ⟨⟨absent, distinct⟩, own, others⟩
    exact ⟨own, distinct, fun declared listed => ⟨absent declared listed, others declared listed⟩⟩
  · rintro ⟨own, distinct, others⟩
    exact ⟨⟨fun declared listed => (others declared listed).1, distinct⟩, own,
      fun declared listed => (others declared listed).2⟩

/-! ## The first pass -/

/-- A constant is declared without error if its value is a literal and its name is new, and is then known. -/
theorem declare_constant_spec (table : SymbolTable) (constant : ConstantDecl) :
    (Clean (declareConstant table constant).2 ↔
      IsLiteral constant.value ∧ table.kind? table.scope constant.name = none) ∧
    (Clean (declareConstant table constant).2 →
      Adds .constant [constant.name.fold] table (declareConstant table constant).1) := by
  cases parsed : Literal.parse constant.value with
  | error error => simp [declareConstant, parsed, IsLiteral, Problem.severity]
  | ok value =>
    have literal : IsLiteral constant.value := ⟨value, parsed⟩
    cases known : table.lookupLocal? constant.name with
    | some symbol =>
      have taken : table.kind? table.scope constant.name ≠ none := by
        rw [Ne, ← lookup_local_none, known]
        exact Option.some_ne_none symbol
      simp [declareConstant, parsed, known, taken, Problem.severity]
    | none =>
      have fresh := (lookup_local_none table constant.name).mp known
      have added : Adds .constant [constant.name.fold] table _ :=
        Adds.add table constant.name constant.position (.constant value)
      simpa [declareConstant, parsed, known, literal, fresh] using added

/-- Constants are declared without errors exactly if their values are literals and their names are different and new;
they are then known. An error in the first one would leave it unknown, but then nothing is said about the table. -/
theorem declare_constants_spec (table : SymbolTable) (constants : List ConstantDecl) :
    (Clean (declareConstants table constants).2 ↔
      (∀ constant ∈ constants, IsLiteral constant.value) ∧
      (constants.map fun constant => constant.name.fold).Nodup ∧
      ∀ constant ∈ constants, table.kind? table.scope constant.name = none) ∧
    (Clean (declareConstants table constants).2 →
      Adds .constant (constants.map fun constant => constant.name.fold) table
        (declareConstants table constants).1) := by
  induction constants generalizing table with
  | nil => exact ⟨by simp [declareConstants], fun _ => Adds.refl .constant table⟩
  | cons constant rest ih =>
    have unfolded : declareConstants table (constant :: rest) =
        ((declareConstants (declareConstant table constant).1 rest).1, (declareConstant table constant).2 ++
          (declareConstants (declareConstant table constant).1 rest).2) := rfl
    obtain ⟨cleanFirst, addsFirst⟩ := declare_constant_spec table constant
    obtain ⟨cleanRest, addsRest⟩ := ih (declareConstant table constant).1
    rw [unfolded, clean_append]
    refine ⟨?_, fun clean => (addsFirst clean.1).trans (addsRest clean.2)⟩
    rw [List.forall_mem_cons, and_assoc]
    constructor
    · rintro ⟨first, later⟩
      obtain ⟨literals, fresh⟩ := cleanRest.mp later
      have own := cleanFirst.mp first
      exact ⟨own.1, literals, (unknown_distinct_cons ConstantDecl.name constant rest (addsFirst first)).mpr
        ⟨own.2, fresh⟩⟩
    · rintro ⟨literal, literals, fresh⟩
      have first := cleanFirst.mpr ⟨literal, fresh.2 constant List.mem_cons_self⟩
      have others := (unknown_distinct_cons ConstantDecl.name constant rest (addsFirst first)).mp fresh
      exact ⟨first, cleanRest.mpr ⟨literals, others.2⟩⟩

/-- No parameter is reported exactly if none repeats one before it or one that was seen. Names that were seen are kept
in folded form. -/
theorem distinct_params_clean_iff (method : Text) (seen : List Text) (params : List Ident) :
    Clean (distinctParams method seen params).2 ↔
      (params.map fun param => param.name.fold).Nodup ∧ ∀ param ∈ params, param.name.fold ∉ seen := by
  induction params generalizing seen with
  | nil => simp [distinctParams]
  | cons param rest ih =>
    by_cases known : param.name.fold ∈ seen
    · have reported : (distinctParams method seen (param :: rest)).2 =
          found param.position (.duplicateParam param.name method) :: (distinctParams method seen rest).2 := by
        simp [distinctParams, known]
      simp [reported, Problem.severity, known]
    · have unreported : (distinctParams method seen (param :: rest)).2 =
          (distinctParams method (param.name.fold :: seen) rest).2 := by
        simp [distinctParams, known]
      rw [unreported, ih, List.forall_mem_cons]
      simp only [List.map_cons, List.nodup_cons, List.mem_cons, not_or, List.mem_map, not_exists, not_and]
      constructor
      · rintro ⟨distinct, others⟩
        exact ⟨⟨fun later listed => (others later listed).1, distinct⟩, known,
          fun later listed => (others later listed).2⟩
      · rintro ⟨⟨absent, distinct⟩, _, others⟩
        exact ⟨distinct, fun later listed => ⟨absent later listed, others later listed⟩⟩

/-- A method is declared without error if its name is new and its parameters are different, and is then known. -/
theorem declare_method_spec (table : SymbolTable) (method : Block) :
    (Clean (declareMethod table method).2.2 ↔
      method.paramNames.Nodup ∧ table.kind? table.scope method.name = none) ∧
    (Clean (declareMethod table method).2.2 → (declareMethod table method).1 = true ∧
      Adds .method [method.name.fold] table (declareMethod table method).2.1) := by
  cases known : table.lookupLocal? method.name with
  | some symbol =>
    have taken : table.kind? table.scope method.name ≠ none := by
      rw [Ne, ← lookup_local_none, known]
      exact Option.some_ne_none symbol
    simp [declareMethod, known, taken, Problem.severity]
  | none =>
    have fresh := (lookup_local_none table method.name).mp known
    have added : Adds .method [method.name.fold] table _ := Adds.add table method.name method.position
      (.method (distinctParams method.name [] method.params).1)
    have params := distinct_params_clean_iff method.name [] method.params
    simp only [List.not_mem_nil, not_false_eq_true, implies_true, and_true] at params
    simp only [declareMethod, known, params, fresh, and_true, Block.paramNames]
    exact ⟨trivial, fun _ => ⟨trivial, added⟩⟩

/-- Methods are declared without errors exactly if their names are different and new and each has different
parameters; they are then known, and no block is left out. The main block is passed over, whatever it is called. -/
theorem declare_blocks_spec (table : SymbolTable) (blocks : List Block) :
    (Clean (declareBlocks table blocks).2.2 ↔
      (∀ method ∈ blocks.filter (fun block => !block.isMain), method.paramNames.Nodup) ∧
      ((blocks.filter fun block => !block.isMain).map fun method => method.name.fold).Nodup ∧
      ∀ method ∈ blocks.filter (fun block => !block.isMain), table.kind? table.scope method.name = none) ∧
    (Clean (declareBlocks table blocks).2.2 → (declareBlocks table blocks).2.1 = blocks ∧
      Adds .method ((blocks.filter fun block => !block.isMain).map fun method => method.name.fold) table
        (declareBlocks table blocks).1) := by
  induction blocks generalizing table with
  | nil => exact ⟨by simp [declareBlocks], fun _ => ⟨rfl, Adds.refl .method table⟩⟩
  | cons block rest ih =>
    cases isMain : block.isMain with
    | true =>
      have unfolded : declareBlocks table (block :: rest) =
          ((declareBlocks table rest).1, block :: (declareBlocks table rest).2.1, (declareBlocks table rest).2.2) := by
        simp only [declareBlocks, isMain, if_true]
      obtain ⟨cleanRest, addsRest⟩ := ih table
      rw [unfolded, List.filter_cons_of_neg (by simp [isMain])]
      exact ⟨cleanRest, fun clean => ⟨congrArg _ (addsRest clean).1, (addsRest clean).2⟩⟩
    | false =>
      obtain ⟨cleanFirst, addsFirst⟩ := declare_method_spec table block
      obtain ⟨cleanRest, addsRest⟩ := ih (declareMethod table block).2.1
      have unfolded : declareBlocks table (block :: rest) =
          ((declareBlocks (declareMethod table block).2.1 rest).1,
            if (declareMethod table block).1 then block :: (declareBlocks (declareMethod table block).2.1 rest).2.1
            else (declareBlocks (declareMethod table block).2.1 rest).2.1,
            (declareMethod table block).2.2 ++ (declareBlocks (declareMethod table block).2.1 rest).2.2) := by
        simp only [declareBlocks, isMain, Bool.false_eq_true, if_false]
      rw [unfolded, clean_append, List.filter_cons_of_pos (by simp [isMain])]
      constructor
      · rw [List.forall_mem_cons, and_assoc]
        constructor
        · rintro ⟨first, later⟩
          obtain ⟨params, fresh⟩ := cleanRest.mp later
          have own := cleanFirst.mp first
          exact ⟨own.1, params, (unknown_distinct_cons Block.name block _ (addsFirst first).2).mpr
            ⟨own.2, fresh⟩⟩
        · rintro ⟨param, params, fresh⟩
          have first := cleanFirst.mpr ⟨param, fresh.2 block List.mem_cons_self⟩
          have others := (unknown_distinct_cons Block.name block _ (addsFirst first).2).mp fresh
          exact ⟨first, cleanRest.mpr ⟨params, others.2⟩⟩
      · rintro ⟨first, later⟩
        obtain ⟨declared, added⟩ := addsFirst first
        obtain ⟨kept, others⟩ := addsRest later
        refine ⟨?_, added.trans others⟩
        dsimp only
        rw [if_pos declared, kept]

/-! ## The second pass -/

/-- Look-up in the active scope finds no symbol of a kind exactly if the name is not of that kind there. -/
theorem lookup_local_filter_none (table : SymbolTable) (name : Text) (kind : SymbolKind) :
    (table.lookupLocal? name).filter (fun symbol => symbol.kind = kind) = none ↔
      table.kind? table.scope name ≠ some kind := by
  rw [kind_of_found, lookupLocal?, Option.filter_eq_none_iff]
  cases table.find? table.scope name <;> simp

/-- The folded names of the labels among statements. Instructions contribute none. -/
theorem mem_label_names {statements : List Statement} {folded : Text} :
    folded ∈ statements.filterMap Statement.labelName? ↔
      ∃ position name, .label position name ∈ statements ∧ name.fold = folded := by
  rw [List.mem_filterMap]
  constructor
  · rintro ⟨statement, listed, named⟩
    cases statement with
    | label position name => exact ⟨position, name, listed, Option.some.inj named⟩
    | instruction position opcode operands => cases named
  · rintro ⟨position, name, listed, rfl⟩
    exact ⟨.label position name, listed, rfl⟩

/-- Labels are declared without errors exactly if their names are different and no label of the scope has one of them
before. The folded names that are collected are then those of the labels. Symbols of other kinds are not in the way of
labels. -/
theorem declare_labels_spec (table : SymbolTable) (statements : List Statement) :
    (Clean (declareLabels table statements).2.2 ↔
      (statements.filterMap Statement.labelName?).Nodup ∧
      ∀ position name, .label position name ∈ statements → table.kind? table.scope name ≠ some .label) ∧
    (Clean (declareLabels table statements).2.2 →
      (declareLabels table statements).2.1 = statements.filterMap Statement.labelName?) := by
  fun_induction declareLabels table statements with
  | case1 => simp
  | case2 table position opcode operands rest ih =>
    rw [List.filterMap_cons_none (show Statement.labelName? (.instruction position opcode operands) = none from rfl)]
    simpa using ih
  | case3 table position name rest symbol known =>
    have taken : table.kind? table.scope name = some .label := by
      apply Decidable.byContradiction
      intro other
      rw [(lookup_local_filter_none table name .label).mpr other] at known
      cases known
    constructor
    · simp only [clean_found, Problem.severity, reduceCtorEq, false_and, false_iff]
      exact fun wellNamed => wellNamed.2 position name List.mem_cons_self taken
    · simp [Problem.severity]
  | case4 table position name rest unknown _ names findings declared ih =>
    have fresh := (lookup_local_filter_none table name .label).mp unknown
    obtain ⟨cleanRest, namesRest⟩ := ih
    rw [declared] at cleanRest namesRest
    rw [List.filterMap_cons_some (show Statement.labelName? (.label position name) = some name.fold from rfl)]
    refine ⟨?_, fun clean => congrArg _ (namesRest clean)⟩
    rw [cleanRest, List.nodup_cons]
    simp only [scope_add, kind_add, true_and, SymbolInfo.kind]
    constructor
    · rintro ⟨distinct, others⟩
      refine ⟨⟨?_, distinct⟩, ?_⟩
      · intro member
        obtain ⟨later, laterName, listed, same⟩ := mem_label_names.mp member
        exact others later laterName listed (if_pos same.symm)
      · intro at' asked listed
        rcases List.mem_cons.mp listed with here | later
        · cases here
          exact fresh
        · intro known
          refine others at' asked later ?_
          rw [known]
          exact ite_self _
    · rintro ⟨⟨absent, distinct⟩, others⟩
      refine ⟨distinct, fun at' asked listed => ?_⟩
      have different : name.fold ≠ asked.fold :=
        fun same => absent (mem_label_names.mpr ⟨at', asked, listed, same.symm⟩)
      rw [if_neg different]
      exact others at' asked (List.mem_cons_of_mem _ listed)

/-- Declaring labels gives names of the active scope the kind of labels and changes nothing else, whether or not there
are errors. The third pass relies on this even for blocks with labels that were refused. -/
theorem declare_labels_kind (table : SymbolTable) (statements : List Statement) :
    (declareLabels table statements).1.scope = table.scope ∧ ∀ scope name,
      (declareLabels table statements).1.kind? scope name = table.kind? scope name ∨
        table.scope = scope ∧ (declareLabels table statements).1.kind? scope name = some .label := by
  fun_induction declareLabels table statements with
  | case1 => exact ⟨rfl, fun _ _ => .inl rfl⟩
  | case2 table _ _ _ _ ih => exact ih
  | case3 table _ _ _ _ _ _ _ _ declared ih =>
    rw [declared] at ih
    exact ih
  | case4 table position name rest _ _ names findings declared ih =>
    rw [declared] at ih
    refine ⟨ih.1, fun scope asked => ?_⟩
    rcases ih.2 scope asked with same | labelled
    · rw [kind_add] at same
      split at same
      · rename_i here
        exact .inr ⟨here.1, same⟩
      · exact .inl same
    · exact .inr labelled

/-- The labels of the first of some blocks are declared in its scope, and then those of the others, starting from the
global scope again. -/
theorem collect_labels_cons (table : SymbolTable) (block : Block) (rest : List Block) :
    collectLabels table (block :: rest) =
      let own := declareLabels (table.enter (scopeOf block)) block.statements
      let others := collectLabels own.1.exit rest
      (others.1, (scopeOf block, own.2.1) :: others.2.1, own.2.2 ++ others.2.2) := rfl

/-- Collecting the labels of blocks gives names of their scopes the kind of labels and changes nothing else. The
global scope, in particular, is as the first pass has left it. -/
theorem collect_labels_kind (table : SymbolTable) (blocks : List Block) (scope name : Text) :
    (collectLabels table blocks).1.kind? scope name = table.kind? scope name ∨
      scope ∈ blocks.map scopeOf ∧ (collectLabels table blocks).1.kind? scope name = some .label := by
  induction blocks generalizing table with
  | nil => exact .inl rfl
  | cons block rest ih =>
    obtain ⟨_, kinds⟩ := declare_labels_kind (table.enter (scopeOf block)) block.statements
    rw [collect_labels_cons]
    rcases ih (declareLabels (table.enter (scopeOf block)) block.statements).1.exit with same | ⟨member, labelled⟩
    · rcases kinds scope name with before | ⟨here, labelled⟩
      · exact .inl (same.trans before)
      · exact .inr ⟨List.mem_map.mpr ⟨block, List.mem_cons_self, here⟩, same.trans labelled⟩
    · exact .inr ⟨List.mem_cons_of_mem _ member, labelled⟩

/-- The labels of blocks with scopes of their own are collected without errors exactly if each block has different
labels. The folded names of the labels are then kept for each scope. If two blocks shared a scope, the labels of one
would be in the way of the other. -/
theorem collect_labels_spec (table : SymbolTable) (blocks : List Block) (apart : (blocks.map scopeOf).Nodup)
    (unlabelled : ∀ block ∈ blocks, ∀ name, table.kind? (scopeOf block) name ≠ some .label) :
    (Clean (collectLabels table blocks).2.2 ↔ ∀ block ∈ blocks, block.labelNames.Nodup) ∧
    (Clean (collectLabels table blocks).2.2 →
      (collectLabels table blocks).2.1 = blocks.map fun block => (scopeOf block, block.labelNames)) := by
  induction blocks generalizing table with
  | nil => simp [collectLabels]
  | cons block rest ih =>
    rw [List.map_cons, List.nodup_cons] at apart
    rw [List.forall_mem_cons] at unlabelled
    obtain ⟨cleanOwn, namesOwn⟩ := declare_labels_spec (table.enter (scopeOf block)) block.statements
    obtain ⟨_, kinds⟩ := declare_labels_kind (table.enter (scopeOf block)) block.statements
    have unlabelledRest : ∀ other ∈ rest, ∀ name,
        (declareLabels (table.enter (scopeOf block)) block.statements).1.exit.kind? (scopeOf other) name ≠
          some .label := by
      intro other member name
      rcases kinds (scopeOf other) name with before | ⟨here, _⟩
      · exact fun known => unlabelled.2 other member name (before.symm.trans known)
      · exact absurd (List.mem_map.mpr ⟨other, member, here.symm⟩) apart.1
    obtain ⟨cleanRest, namesRest⟩ := ih _ apart.2 unlabelledRest
    have new : ∀ position name, .label position name ∈ block.statements →
        (table.enter (scopeOf block)).kind? (scopeOf block) name ≠ some .label :=
      fun _ name _ => unlabelled.1 name
    rw [collect_labels_cons]
    dsimp only
    rw [clean_append, List.forall_mem_cons, cleanOwn, cleanRest]
    constructor
    · constructor
      · rintro ⟨own, others⟩
        exact ⟨own.1, others⟩
      · rintro ⟨own, others⟩
        exact ⟨⟨own, new⟩, others⟩
    · rintro ⟨own, others⟩
      rw [namesOwn (cleanOwn.mpr own), namesRest (cleanRest.mpr others)]
      rfl

end IntegerMachine.Analysis
