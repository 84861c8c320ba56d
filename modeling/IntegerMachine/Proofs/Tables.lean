import IntegerMachine.Program

/-!
# Tables of names

Labels, methods and constants are found in tables of names and slots in a list of names. Where names are different,
each entry is found under its own name.

The constant pool is a table in the order of names. What is found in it depends on the last constant of each name
only, and if the names are different then the order in which constants come in does not matter at all: two
insertions may be exchanged. A pool that is filled once more from its own constants is the same pool.
-/
namespace IntegerMachine

/-! ## Look-up -/

/-- The first entry is found under its name, and all other names are looked up behind it. It hides later entries of
the same name. -/
theorem lookup_first {Value : Type} (first : Text × Value) (rest : List (Text × Value)) (name : Text) :
    (first :: rest).lookup name = if name = first.1 then some first.2 else rest.lookup name := by
  rw [List.lookup_cons]
  by_cases same : name = first.1
  · rw [if_pos same, same, beq_self_eq_true]
  · rw [if_neg same, beq_eq_false_iff_ne.mpr same]

/-- An entry of a table with different names is found under its name. No other entry can hide it. -/
theorem lookup_of_mem {Value : Type} {table : List (Text × Value)} (distinct : (table.map Prod.fst).Nodup)
    {name : Text} {value : Value} (member : (name, value) ∈ table) : table.lookup name = some value := by
  induction table with
  | nil => cases member
  | cons first rest ih =>
    rw [List.map_cons, List.nodup_cons] at distinct
    rw [lookup_first]
    rcases List.mem_cons.mp member with rfl | later
    · rw [if_pos rfl]
    · have different : name ≠ first.1 := by
        rintro rfl
        exact distinct.1 (List.mem_map.mpr ⟨_, later, rfl⟩)
      rw [if_neg different]
      exact ih distinct.2 later

/-- In a table with different names, an entry is found exactly under its name. By this, look-ups can be turned into
memberships and back. -/
theorem lookup_iff_mem {Value : Type} {table : List (Text × Value)} (distinct : (table.map Prod.fst).Nodup)
    (name : Text) (value : Value) : table.lookup name = some value ↔ (name, value) ∈ table := by
  refine ⟨fun found => ?_, lookup_of_mem distinct⟩
  obtain ⟨before, after, rfl, _⟩ := List.lookup_eq_some_iff.mp found
  exact List.mem_append_right before List.mem_cons_self

/-- What is found in a table of different names does not depend on its order, since it does not depend on more than
the entries. -/
theorem lookup_perm {Value : Type} {table order : List (Text × Value)} (distinct : (table.map Prod.fst).Nodup)
    (reordered : order.Perm table) (name : Text) : order.lookup name = table.lookup name := by
  have distinctOrder : (order.map Prod.fst).Nodup := (reordered.map Prod.fst).nodup_iff.mpr distinct
  refine Option.ext fun value => ?_
  rw [lookup_iff_mem distinctOrder, lookup_iff_mem distinct, reordered.mem_iff]

/-- A name is found in a table exactly if it is one of its names. -/
theorem lookup_is_some_iff {Value : Type} (table : List (Text × Value)) (name : Text) :
    (table.lookup name).isSome = true ↔ name ∈ table.map Prod.fst := by
  rw [List.lookup_isSome_iff, List.mem_map]
  simp only [beq_iff_eq, @eq_comm _ name]

/-- Names with one more behind them are different exactly if they were before and the new one is none of them. -/
theorem nodup_snoc {names : List Text} {name : Text} : (names ++ [name]).Nodup ↔ names.Nodup ∧ name ∉ names := by
  rw [List.nodup_append]
  constructor
  · exact fun ⟨distinct, _, apart⟩ => ⟨distinct, fun member => apart name member name List.mem_cons_self rfl⟩
  · rintro ⟨distinct, absent⟩
    refine ⟨distinct, by simp, ?_⟩
    rintro other member _ last rfl
    rw [List.mem_singleton.mp last] at member
    exact absent member

/-- Each of different names is found at its own place and nowhere else. This is how slots are assigned to the locals
of a block. -/
theorem place_iff {names : List Text} (distinct : names.Nodup) (place : Nat) (name : Text) :
    names.idxOf? name = some place ↔ names[place]? = some name := by
  rw [List.idxOf?_eq_some_iff, List.getElem?_eq_some_iff]
  constructor
  · rintro ⟨inside, same, _⟩
    exact ⟨inside, same⟩
  · rintro ⟨inside, rfl⟩
    refine ⟨inside, rfl, fun earlier before same => ?_⟩
    exact List.pairwise_iff_getElem.mp distinct earlier place (by omega) inside before same

/-! ## The order of texts -/

namespace Text

/-- Comparing the other way round gives the opposite answer. The induction follows the comparison byte by byte. -/
theorem compare_swap (first second : Text) : (compare first second).swap = compare second first := by
  fun_induction compare first second with
  | case1 => rfl
  | case2 => rfl
  | case3 => rfl
  | case4 first rest first' rest' less => simp [compare, less, UInt8.lt_asymm less]
  | case5 first rest first' rest' notLess greater => simp [compare, greater]
  | case6 first rest first' rest' notLess notGreater ih => simp [compare, notLess, notGreater, ih]

/-- Only equal texts compare as equal. The pool replaces a constant in this case and in no other. -/
theorem compare_eq_iff (first second : Text) : compare first second = .eq ↔ first = second := by
  fun_induction compare first second with
  | case1 => simp
  | case2 => simp
  | case3 => simp
  | case4 first rest first' rest' less => simp [UInt8.ne_of_lt less]
  | case5 first rest first' rest' notLess greater => simp [(UInt8.ne_of_lt greater).symm]
  | case6 first rest first' rest' notLess notGreater ih =>
    have same : first = first' := UInt8.le_antisymm (UInt8.not_lt.mp notGreater) (UInt8.not_lt.mp notLess)
    simp [ih, same]

/-- The order is transitive. Together with the laws above it is the order of words in a dictionary, by bytes. -/
theorem compare_trans {first second third : Text} (earlier : compare first second = .lt)
    (later : compare second third = .lt) : compare first third = .lt := by
  fun_induction compare first second generalizing third with
  | case1 | case3 | case5 => cases earlier
  | case2 =>
    cases third with
    | nil => cases later
    | cons => rfl
  | case4 first rest first' rest' less =>
    cases third with
    | nil => cases later
    | cons head tail =>
      have notAfter : first' ≤ head := by
        apply UInt8.not_lt.mp
        intro after
        simp [compare, UInt8.lt_asymm after, after] at later
      simp [compare, UInt8.lt_of_lt_of_le less notAfter]
  | case6 first rest first' rest' notLess notGreater ih =>
    have same : first = first' := UInt8.le_antisymm (UInt8.not_lt.mp notGreater) (UInt8.not_lt.mp notLess)
    subst same
    cases third with
    | nil => cases later
    | cons head tail =>
      unfold compare at later ⊢
      split
      · rfl
      · rename_i notBefore
        rw [if_neg notBefore] at later
        split
        · rename_i after
          rw [if_pos after] at later
          cases later
        · rename_i notAfter
          rw [if_neg notAfter] at later
          exact ih earlier later

end Text

/-! ## The constant pool -/

namespace Constants

/-- A constant that was added is found under its name, and all others are found as before. It does not matter whether
the pool is in order. -/
theorem lookup_insert (name : Text) (value : Cell) (pool : Constants) (asked : Text) :
    (insert name value pool).lookup asked = if asked = name then some value else pool.lookup asked := by
  induction pool with
  | nil => by_cases same : asked = name <;> simp [insert, same]
  | cons first rest ih =>
    cases order : Text.compare name first.1 with
    | lt => by_cases same : asked = name <;> simp [insert, order, lookup_first, same]
    | eq =>
      obtain rfl := (Text.compare_eq_iff name first.1).mp order
      by_cases same : asked = first.1 <;> simp [insert, order, lookup_first, same]
    | gt =>
      have different : first.1 ≠ name := by
        intro same
        rw [(Text.compare_eq_iff name first.1).mpr same.symm] at order
        cases order
      by_cases same : asked = first.1 <;> simp [insert, order, lookup_first, same, different, ih]

/-- Two insertions of different names may be exchanged; it is enough to look at one order of the names. The induction
is on the pool, and the first name of it is compared with both. -/
theorem insert_comm_of_lt {name other : Text} (value otherValue : Cell) (less : Text.compare name other = .lt)
    (pool : Constants) :
    insert name value (insert other otherValue pool) = insert other otherValue (insert name value pool) := by
  have greater : Text.compare other name = .gt := by rw [← Text.compare_swap, less]; rfl
  induction pool with
  | nil => simp [insert, less, greater]
  | cons first rest ih =>
    cases place : Text.compare other first.1 with
    | lt => simp [insert, place, less, greater, Text.compare_trans less place]
    | eq =>
      obtain rfl := (Text.compare_eq_iff other first.1).mp place
      simp [insert, place, less, greater]
    | gt =>
      cases own : Text.compare name first.1 with
      | lt => simp [insert, place, own, greater]
      | eq => simp [insert, place, own, greater]
      | gt => simp [insert, place, own, ih]

/-- Two insertions of different names may be exchanged, and the results are not only found alike but are the same
pool. -/
theorem insert_comm {name other : Text} (different : name ≠ other) (value otherValue : Cell) (pool : Constants) :
    insert name value (insert other otherValue pool) = insert other otherValue (insert name value pool) := by
  cases order : Text.compare name other with
  | lt => exact insert_comm_of_lt value otherValue order pool
  | eq => exact absurd ((Text.compare_eq_iff name other).mp order) different
  | gt =>
    have less : Text.compare other name = .lt := by rw [← Text.compare_swap, order]; rfl
    exact (insert_comm_of_lt otherValue value less pool).symm

/-- The order in which constants of different names come in does not matter. It would if a name came twice, since the
last constant of a name counts. -/
theorem of_list_perm {constants order : List (Text × Cell)} (distinct : (constants.map Prod.fst).Nodup)
    (reordered : order.Perm constants) : ofList order = ofList constants := by
  refine (reordered.symm.foldl_eq' ?_ []).symm
  intro first firstMember second secondMember pool
  by_cases same : first = second
  · rw [same]
  · refine insert_comm (fun sameName => same ?_) second.2 first.2 pool
    have found := lookup_of_mem distinct firstMember
    have foundSecond := lookup_of_mem distinct secondMember
    rw [sameName, found] at foundSecond
    exact Prod.ext sameName.symm (Option.some.inj foundSecond)

/-- Constants of different names are found in their pool as they are found in the list of them. -/
theorem lookup_of_list {constants : List (Text × Cell)} (distinct : (constants.map Prod.fst).Nodup) (asked : Text) :
    (ofList constants).lookup asked = constants.lookup asked := by
  have added (pool : Constants) : (constants.foldl (fun pool constant => pool.insert constant.1 constant.2)
      pool).lookup asked = (constants.lookup asked).or (pool.lookup asked) := by
    induction constants generalizing pool with
    | nil => simp
    | cons first rest ih =>
      rw [List.map_cons, List.nodup_cons] at distinct
      rw [List.foldl_cons, ih distinct.2, lookup_insert, lookup_first]
      by_cases same : asked = first.1
      · have absent : rest.lookup asked = none := by
          rw [← Option.not_isSome_iff_eq_none, lookup_is_some_iff, same]
          exact distinct.1
        rw [absent, if_pos same, if_pos same]
        rfl
      · simp [same]
  rw [ofList, added [], List.lookup_nil, Option.or_none]

/-- The names of a pool ascend. -/
def Ordered (pool : Constants) : Prop := pool.Pairwise fun first second => Text.compare first.1 second.1 = .lt

/-- A pool with a constant added holds nothing but that constant and those that were in it. One of the same name may
be gone. -/
theorem mem_insert {name : Text} {value : Cell} {pool : Constants} {constant : Text × Cell}
    (member : constant ∈ insert name value pool) : constant = (name, value) ∨ constant ∈ pool := by
  induction pool with
  | nil => simpa [insert] using member
  | cons first rest ih =>
    cases order : Text.compare name first.1 with
    | lt => simpa [insert, order] using member
    | eq =>
      simp only [insert, order, List.mem_cons] at member
      exact member.imp_right (List.mem_cons_of_mem first)
    | gt =>
      simp only [insert, order, List.mem_cons] at member
      rcases member with rfl | later
      · exact .inr List.mem_cons_self
      · exact (ih later).imp_right (List.mem_cons_of_mem first)

/-- Names still ascend when a constant is added. It is put in front of the first name above it, or takes the place of
its own name. -/
theorem Ordered.insert {pool : Constants} (ordered : Ordered pool) (name : Text) (value : Cell) :
    Ordered (pool.insert name value) := by
  induction pool with
  | nil => exact List.pairwise_singleton _ _
  | cons first rest ih =>
    obtain ⟨below, orderedRest⟩ := List.pairwise_cons.mp ordered
    unfold Constants.insert
    cases order : Text.compare name first.1 with
    | lt =>
      refine List.pairwise_cons.mpr ⟨fun constant member => ?_, ordered⟩
      rcases List.mem_cons.mp member with rfl | later
      · exact order
      · exact Text.compare_trans order (below constant later)
    | eq =>
      obtain rfl := (Text.compare_eq_iff name first.1).mp order
      exact List.pairwise_cons.mpr ⟨below, orderedRest⟩
    | gt =>
      refine List.pairwise_cons.mpr ⟨fun constant member => ?_, ih orderedRest⟩
      rcases mem_insert member with rfl | later
      · rw [← Text.compare_swap, order]
        rfl
      · exact below constant later

/-- The names of a pool of any constants ascend, and everything in it is one of the constants. Names may be repeated
in the list. -/
theorem of_list_ordered (constants : List (Text × Cell)) :
    Ordered (ofList constants) ∧ ∀ constant ∈ ofList constants, constant ∈ constants := by
  have added (pool : Constants) (ordered : Ordered pool) :
      Ordered (constants.foldl (fun pool constant => pool.insert constant.1 constant.2) pool) ∧
        ∀ constant ∈ constants.foldl (fun pool constant => pool.insert constant.1 constant.2) pool,
          constant ∈ constants ∨ constant ∈ pool := by
    induction constants generalizing pool with
    | nil => exact ⟨ordered, fun _ => .inr⟩
    | cons first rest ih =>
      obtain ⟨orderedRest, members⟩ := ih (pool.insert first.1 first.2) (ordered.insert first.1 first.2)
      refine ⟨orderedRest, fun constant member => ?_⟩
      rcases members constant member with later | here
      · exact .inl (List.mem_cons_of_mem first later)
      · rcases mem_insert here with rfl | before
        · exact .inl List.mem_cons_self
        · exact .inr before
  obtain ⟨ordered, members⟩ := added [] List.Pairwise.nil
  exact ⟨ordered, fun constant member => (members constant member).resolve_right List.not_mem_nil⟩

/-- Ascending names are different, so that each constant of a pool is found under its name. -/
theorem Ordered.distinct {pool : Constants} (ordered : Ordered pool) : (pool.map Prod.fst).Nodup := by
  refine List.pairwise_map.mpr (ordered.imp fun less same => ?_)
  rw [(Text.compare_eq_iff _ _).mpr same] at less
  cases less

/-- A constant whose name is above all others comes last. This is what happens when a pool is filled from ascending
names. -/
theorem insert_last {pool : Constants} {name : Text} (value : Cell)
    (above : ∀ constant ∈ pool, Text.compare constant.1 name = .lt) :
    insert name value pool = pool ++ [(name, value)] := by
  induction pool with
  | nil => rfl
  | cons first rest ih =>
    rw [List.forall_mem_cons] at above
    have greater : Text.compare name first.1 = .gt := by rw [← Text.compare_swap, above.1]; rfl
    simp [insert, greater, ih above.2]

/-- A pool is the pool of its own constants. A program that is stored and read again therefore has the pool that it
had. -/
theorem Ordered.of_list {pool : Constants} (ordered : Ordered pool) : ofList pool = pool := by
  have added (before : Constants) (together : Ordered (before ++ pool)) :
      pool.foldl (fun pool constant => pool.insert constant.1 constant.2) before = before ++ pool := by
    induction pool generalizing before with
    | nil => simp
    | cons first rest ih =>
      have above : ∀ constant ∈ before, Text.compare constant.1 first.1 = .lt :=
        fun constant member => (List.pairwise_append.mp together).2.2 constant member first List.mem_cons_self
      rw [List.foldl_cons, insert_last first.2 above, ih (List.pairwise_cons.mp ordered).2, List.append_assoc]
      · rfl
      · rwa [List.append_assoc]
  exact added [] ordered

end Constants

end IntegerMachine
