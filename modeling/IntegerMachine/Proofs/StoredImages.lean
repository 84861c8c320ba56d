import IntegerMachine.Image
import IntegerMachine.Proofs.DataItems
import IntegerMachine.Proofs.Linking

/-!
# Stored images

Writing an image and reading the bytes gives the image back, whatever follows them. Texts, numbers and lists are
read back as they were; a record is read entry by entry, and an entry that was left out was left out because the
record has that value to begin with.

What can be stored is bounded by the reader: texts are UTF-8, lists and maps have at most as many entries as the
reader allows, and lengths and numbers fit a word of 64 bits.
-/
namespace IntegerMachine

/-! ## Values -/

/-- A text that can be stored. -/
structure Text.Storable (text : Text) : Prop where
  wellFormed : text.isUtf8 = true
  short : text.length < 0x8000000000000000

/-- A list of texts that can be stored. -/
structure Text.AllStorable (texts : List Text) : Prop where
  few : texts.length ≤ Cbor.sizeLimit
  each : ∀ text ∈ texts, text.Storable

/-- A number that fits a word. -/
def IsWord (number : Int) : Prop := -0x8000000000000000 ≤ number ∧ number < 0x8000000000000000

/-- Whether a number fits a word can be checked. -/
instance (number : Int) : Decidable (IsWord number) :=
  inferInstanceAs (Decidable (-0x8000000000000000 ≤ number ∧ number < 0x8000000000000000))

/-- A list is read back if its elements are. -/
theorem map_read {Given Written Error : Type} {write : Given → Written} {read : Written → Except Error Given}
    (list : List Given) (faithful : ∀ element ∈ list, read (write element) = .ok element) :
    (list.map write).mapM read = .ok list := by
  rw [List.mapM_map]
  exact (map_ok list faithful).trans (congrArg _ (List.map_id' list))

namespace Cbor.Item

/-- A text that is UTF-8 is read back. It is written in one chunk, and what stands for a missing text does not come
in. -/
theorem text_or_of_text (missing content : Text) (wellFormed : content.isUtf8 = true) :
    (ofText content).textOr missing = .ok content := by
  have chunks : chunksText [content] = .ok content := by
    simp [chunksText, wellFormed]
  exact chunks

/-- The item of a number stands for that number; it has no tag and is not null. Negative numbers have items of their
own, in which they are counted from minus one down. -/
theorem number_of_int (number : Int) : (ofInt number).number? = some number ∧ (ofInt number).isNull = false ∧
    ∃ found, (ofInt number).untagged = .ok (found, ofInt number) := by
  by_cases below : number < 0
  · simp only [ofInt, below, if_true, number?, isNull, untagged, true_and, Option.some.injEq]
    exact ⟨by omega, _, rfl⟩
  · simp only [ofInt, below, if_false, number?, isNull, untagged, true_and, Option.some.injEq]
    exact ⟨by omega, _, rfl⟩

/-- A number that fits its bits is read back. One that does not fit is refused by the reader, so that the bound cannot
be left out. -/
theorem int_or_of_int (missing : Int) (bits : Nat) (wanted : Text) (number : Int)
    (fits : -(Nat.pow 2 (bits - 1) : Int) ≤ number ∧ number < (Nat.pow 2 (bits - 1) : Int)) :
    (ofInt number).intOr missing bits wanted = .ok number := by
  obtain ⟨value, notNull, found, plain⟩ := number_of_int number
  simp only [intOr, plain, bind, Except.bind, notNull, Bool.false_eq_true, if_false, value, if_pos fits]
  rfl

/-- A number that fits a word can be written. It nests nothing, so that any number of levels will do. -/
theorem writable_of_int (levels : Nat) (number : Int) (fits : IsWord number) : (ofInt number).Writable levels := by
  unfold IsWord at fits
  by_cases below : number < 0
  · rw [ofInt, if_pos below]
    exact .negative levels _ (by omega)
  · rw [ofInt, if_neg below]
    exact .unsigned levels _ (by omega)

/-- An array of readable elements is read back, also if it is empty. -/
theorem list_of_array {Element : Type} (wanted : Text) (read : Item → Except Error Element)
    (write : Element → Item) (elements : List Element)
    (faithful : ∀ element ∈ elements, read (write element) = .ok element) :
    (array (elements.map write)).listOf wanted read = .ok elements :=
  map_read elements faithful

/-- A list that is written as null when it is empty is read back, since the reader takes nothing for the empty
list. -/
theorem list_of_list_or_null {Element : Type} (wanted : Text) (read : Item → Except Error Element)
    (write : Element → Item) (elements : List Element)
    (faithful : ∀ element ∈ elements, read (write element) = .ok element) :
    (ofListOrNull (elements.map write)).listOf wanted read = .ok elements := by
  cases elements with
  | nil => rfl
  | cons first rest => exact list_of_array wanted read write (first :: rest) faithful

/-- Texts that are UTF-8 are read back. -/
theorem list_of_texts (wanted : Text) (texts : List Text) (wellFormed : ∀ text ∈ texts, text.isUtf8 = true) :
    (ofTexts texts).listOf wanted (textOr []) = .ok texts :=
  list_of_array wanted _ _ texts fun text member => text_or_of_text [] text (wellFormed text member)

/-- A field of a record is set to the value that was read. -/
theorem read_into {Value Record : Type} {read : Except Error Value} {value : Value} {update : Value → Record}
    (reads : read = .ok value) : (read >>= fun value => pure (update value)) = .ok (update value) := by
  rw [reads]
  rfl

/-- An entry puts its value into the record; an entry that is left out leaves the record as it is. The key has to be
new among those met so far, since only the first entry for a field counts. -/
theorem read_entry {Record : Type} {kind : Text} {fields : List (Field Record)} {met : List String} {record : Record}
    (updated : Record) {key : String} {value : Item} {present : Bool} {rest : List (Item × Item)}
    {read : Record → Item → Except Error Record} (wellFormed : Text.isUtf8 key = true)
    (named : fieldOf? fields key = some { name := key, read }) (new : key ∉ met)
    (absent : present = false → record = updated) (reads : read record value = .ok updated) :
    readFields kind fields met record (entry key value present ++ rest) =
      readFields kind fields (if present then key :: met else met) updated rest := by
  cases present with
  | false =>
    rw [absent rfl]
    rfl
  | true =>
    have name : chunksText [Text.ofString key] = .ok (Text.ofString key) := by
      simp [chunksText, wellFormed]
    simp only [entry, if_true, List.singleton_append, ofText, readFields, name, bind, Except.bind, named, if_neg new,
      reads]

/-- A text that can be stored can be written. -/
theorem writable_of_text (levels : Nat) (text : Text) (storable : text.Storable) : (ofText text).Writable levels :=
  .text levels text storable.short

/-- An array of writable elements can be written, with one more level of nesting, if it is not longer than the reader
allows. -/
theorem writable_array {Element : Type} (levels : Nat) (write : Element → Item) (elements : List Element)
    (few : elements.length ≤ sizeLimit) (each : ∀ element ∈ elements, (write element).Writable levels) :
    (array (elements.map write)).Writable (levels + 1) := by
  apply Writable.array
  · rw [List.length_map]
    exact few
  · intro item member
    obtain ⟨element, listed, rfl⟩ := List.mem_map.mp member
    exact each element listed

/-- Texts that can be stored can be written, as the array of them. -/
theorem writable_of_texts (levels : Nat) (texts : List Text) (storable : Text.AllStorable texts) :
    (ofTexts texts).Writable (levels + 1) :=
  writable_array levels ofText texts storable.few fun text listed =>
    writable_of_text levels text (storable.each text listed)

/-- A list can be written as null or with writable elements. -/
theorem writable_of_list_or_null {Element : Type} (levels : Nat) (write : Element → Item) (elements : List Element)
    (few : elements.length ≤ sizeLimit) (each : ∀ element ∈ elements, (write element).Writable levels) :
    (ofListOrNull (elements.map write)).Writable (levels + 1) := by
  cases elements with
  | nil => exact .simple _ _ (by decide)
  | cons first rest => exact writable_array levels write (first :: rest) few each

/-- At most a number of entries that can be written. -/
structure WritableEntries (levels count : Nat) (entries : List (Item × Item)) : Prop where
  few : entries.length ≤ count
  keys : ∀ entry ∈ entries, entry.1.Writable levels
  values : ∀ entry ∈ entries, entry.2.Writable levels

namespace WritableEntries

/-- An entry of a record can be written if its value can. One that is left out counts as an entry all the same, which
only makes the bound larger. -/
theorem one {levels : Nat} {key : String} {value : Item} (present : Bool)
    (short : (Text.ofString key).length < 0x8000000000000000) (writable : value.Writable levels) :
    WritableEntries levels 1 (entry key value present) := by
  cases present with
  | false => exact ⟨by simp [entry], by simp [entry], by simp [entry]⟩
  | true => exact ⟨by simp [entry], by simpa [entry] using .text levels key short, by simpa [entry] using writable⟩

/-- Entries behind others can be written, and their numbers are added. -/
theorem append {levels count more : Nat} {entries others : List (Item × Item)}
    (first : WritableEntries levels count entries) (second : WritableEntries levels more others) :
    WritableEntries levels (count + more) (entries ++ others) :=
  ⟨by rw [List.length_append]; exact Nat.add_le_add first.few second.few,
    List.forall_mem_append.mpr ⟨first.keys, second.keys⟩, List.forall_mem_append.mpr ⟨first.values, second.values⟩⟩

/-- A map of entries that can be written can be written, with one more level of nesting. -/
theorem map {levels count : Nat} {entries : List (Item × Item)} (all : WritableEntries levels count entries)
    (small : count ≤ sizeLimit) : (Item.map entries).Writable (levels + 1) :=
  .map levels entries (Nat.le_trans all.few small) all.keys all.values

end WritableEntries

end Cbor.Item

open Cbor

/-! ## Instructions -/

namespace StoredInstruction

/-- An instruction that can be stored. -/
structure Storable (stored : StoredInstruction) : Prop where
  opcode : stored.opcode.Storable
  operands : Text.AllStorable stored.operands
  line : IsWord stored.line

/-- An instruction is read back from its item. It is read entry by entry; operands and line may have been left out,
and are empty and zero to begin with. -/
theorem of_item_item (stored : StoredInstruction) (storable : stored.Storable) : ofItem stored.item = .ok stored := by
  have opcode := Item.text_or_of_text [] stored.opcode storable.opcode.wellFormed
  have operands := Item.list_of_texts "[]string" stored.operands fun text member =>
    (storable.operands.each text member).wellFormed
  have line := Item.int_or_of_int 0 64 "int" stored.line storable.line
  change Item.readFields "vm.instructionImage" fields [] {} (_ ++ _ ++ _) = _
  rw [List.append_assoc, ← List.append_nil (Item.entry "line" _ _)]
  refine Eq.trans (Item.read_entry { opcode := stored.opcode } (by decide) (by rfl) (by decide) (by simp)
    (Item.read_into opcode)) ?_
  refine Eq.trans (Item.read_entry { opcode := stored.opcode, operands := stored.operands } (by decide) (by rfl)
    (by decide) (by simp_all) (Item.read_into operands)) ?_
  refine Eq.trans (Item.read_entry stored (by decide) (by rfl) (by split <;> decide) ?_ (Item.read_into line)) ?_
  · -- The line is left out only if it is zero, which is what the record starts with.
    intro absent
    have zero : stored.line = 0 := by simpa using absent
    rw [← zero]
  · rfl

/-- An instruction can be written. It is a map that holds an array of texts, and therefore takes two levels. -/
theorem writable_item (levels : Nat) (stored : StoredInstruction) (storable : stored.Storable) :
    stored.item.Writable (levels + 2) := by
  have opcode := Item.writable_of_text (levels + 1) stored.opcode storable.opcode
  have operands := Item.writable_of_texts levels stored.operands storable.operands
  have line := Item.writable_of_int (levels + 1) stored.line storable.line
  exact (((Item.WritableEntries.one _ (by decide) opcode).append
    (.one _ (by decide) operands)).append (.one _ (by decide) line)).map (by decide)

end StoredInstruction

/-! ## Blueprints -/

namespace StoredBlueprint

/-- A blueprint that can be stored. -/
structure Storable (stored : StoredBlueprint) : Prop where
  name : stored.name.Storable
  params : Text.AllStorable stored.params
  vars : Text.AllStorable stored.vars
  few : stored.code.length ≤ sizeLimit
  code : ∀ instruction ∈ stored.code, instruction.Storable

/-- A blueprint is read back from its item. Its code is read back since each of its instructions is. -/
theorem of_item_item (stored : StoredBlueprint) (storable : stored.Storable) : ofItem stored.item = .ok stored := by
  have name := Item.text_or_of_text [] stored.name storable.name.wellFormed
  have params := Item.list_of_texts "[]string" stored.params fun text member =>
    (storable.params.each text member).wellFormed
  have vars := Item.list_of_texts "[]string" stored.vars fun text member =>
    (storable.vars.each text member).wellFormed
  have code := Item.list_of_list_or_null "[]vm.instructionImage" StoredInstruction.ofItem StoredInstruction.item
    stored.code fun instruction member => instruction.of_item_item (storable.code instruction member)
  change Item.readFields "vm.blueprintImage" fields [] {} (_ ++ _ ++ _ ++ _) = _
  rw [List.append_assoc, List.append_assoc, ← List.append_nil (Item.entry "code" _)]
  refine Eq.trans (Item.read_entry { name := stored.name } (by decide) (by rfl) (by decide) (by simp)
    (Item.read_into name)) ?_
  refine Eq.trans (Item.read_entry { name := stored.name, params := stored.params } (by decide) (by rfl)
    (by decide) (by simp_all) (Item.read_into params)) ?_
  refine Eq.trans (Item.read_entry { name := stored.name, params := stored.params, vars := stored.vars } (by decide)
    (by rfl) (by split <;> decide) (by simp_all) (Item.read_into vars)) ?_
  refine Eq.trans (Item.read_entry stored (by decide) (by rfl) (by (repeat' split) <;> decide) (by simp)
    (Item.read_into code)) ?_
  rfl

/-- A blueprint can be written. It is a map with the array of its instructions, and therefore takes two levels more
than these. -/
theorem writable_item (levels : Nat) (stored : StoredBlueprint) (storable : stored.Storable) :
    stored.item.Writable (levels + 4) := by
  have name := Item.writable_of_text (levels + 3) stored.name storable.name
  have params := Item.writable_of_texts (levels + 2) stored.params storable.params
  have vars := Item.writable_of_texts (levels + 2) stored.vars storable.vars
  have code := Item.writable_of_list_or_null (levels + 2) StoredInstruction.item stored.code storable.few
    fun instruction member => instruction.writable_item levels (storable.code instruction member)
  exact ((((Item.WritableEntries.one _ (by decide) name).append
    (.one _ (by decide) params)).append (.one _ (by decide) vars)).append
    (.one _ (by decide) code)).map (by decide)

end StoredBlueprint

/-! ## Images -/

namespace Image

/-- An image that can be stored. -/
structure Storable (image : Image) : Prop where
  mark : image.mark.Storable
  version : IsWord image.version
  fewConstants : ∀ constants ∈ image.constants, constants.length ≤ sizeLimit
  constants : ∀ constants ∈ image.constants, ∀ constant ∈ constants, constant.1.Storable
  few : image.blueprints.length ≤ sizeLimit
  blueprints : ∀ blueprint ∈ image.blueprints, blueprint.Storable

/-- Constants are read back, whatever the entry before them was. An entry before them is only repeated by entries
without a name or a value, and there are none of these. -/
theorem read_constants_written (name : Text) (value : Int) (constants : List (Text × Cell))
    (wellFormed : ∀ constant ∈ constants, constant.1.isUtf8 = true) :
    readConstants name value
      (constants.map fun constant => (.ofText constant.1, .ofInt constant.2.toInt)) = .ok constants := by
  induction constants generalizing name value with
  | nil => rfl
  | cons constant rest ih =>
    rw [List.forall_mem_cons] at wellFormed
    have first := Item.text_or_of_text name constant.1 wellFormed.1
    have second := Item.int_or_of_int value 32 "vm.Cell" constant.2.toInt
      ⟨constant.2.le_toInt, constant.2.toInt_lt⟩
    simp only [List.map_cons, readConstants, first, second, ih _ _ wellFormed.2, bind, Except.bind,
      Int32.ofInt_toInt]
    rfl

/-- The constants of an image are read back, also if there are none. No constants at all and an empty list of them are
told apart. -/
theorem constants_of_item (constants : Option (List (Text × Cell)))
    (storable : ∀ list ∈ constants, ∀ constant ∈ list, constant.1.Storable) :
    constantsOf ((constants.map constantsItem).getD .null) = .ok constants := by
  cases constants with
  | none => rfl
  | some list =>
    have read := read_constants_written [] 0 list fun constant member =>
      (storable list rfl constant member).wellFormed
    change (readConstants [] 0 _ >>= fun list => pure (some list)) = _
    rw [read]
    rfl

/-- The item of constants can be written. Their values are cells, and so fit a word without being asked to. -/
theorem writable_constants (levels : Nat) (constants : Option (List (Text × Cell)))
    (few : ∀ list ∈ constants, list.length ≤ sizeLimit)
    (storable : ∀ list ∈ constants, ∀ constant ∈ list, constant.1.Storable) :
    ((constants.map constantsItem).getD .null).Writable (levels + 1) := by
  cases constants with
  | none => exact .simple _ _ (by decide)
  | some list =>
    apply Item.Writable.map
    · rw [List.length_map]
      exact few list rfl
    · rw [List.forall_mem_map]
      intro constant member
      exact Item.writable_of_text levels _ (storable list rfl constant member)
    · rw [List.forall_mem_map]
      intro constant _
      have low := constant.2.le_toInt
      have high := constant.2.toInt_lt
      exact Item.writable_of_int levels _ ⟨by omega, by omega⟩

/-- An image is read back from its item. Nothing is asked of its mark and version but that they can be stored; whether
they are the right ones is checked later. -/
theorem of_item_item (image : Image) (storable : image.Storable) : ofItem image.item = .ok image := by
  have mark := Item.text_or_of_text [] image.mark storable.mark.wellFormed
  have version := Item.int_or_of_int 0 64 "int" image.version storable.version
  have constants := constants_of_item image.constants storable.constants
  have blueprints := Item.list_of_list_or_null "[]vm.blueprintImage" StoredBlueprint.ofItem StoredBlueprint.item
    image.blueprints fun blueprint member => blueprint.of_item_item (storable.blueprints blueprint member)
  change Item.readFields "vm.image" fields [] {} (_ ++ _ ++ _ ++ _) = _
  rw [List.append_assoc, List.append_assoc, ← List.append_nil (Item.entry "blueprints" _)]
  refine Eq.trans (Item.read_entry { mark := image.mark } (by decide) (by rfl) (by decide) (by simp)
    (Item.read_into mark)) ?_
  refine Eq.trans (Item.read_entry { mark := image.mark, version := image.version } (by decide) (by rfl)
    (by decide) (by simp) (Item.read_into version)) ?_
  refine Eq.trans (Item.read_entry
    { mark := image.mark, version := image.version, constants := image.constants } (by decide) (by rfl)
    (by decide) (by simp) (Item.read_into constants)) ?_
  refine Eq.trans (Item.read_entry image (by decide) (by rfl) (by decide) (by simp) (Item.read_into blueprints)) ?_
  rfl

/-- An image can be written. It is a map with the array of its blueprints, and therefore takes two levels more than
these: six in all. -/
theorem writable_item (levels : Nat) (image : Image) (storable : image.Storable) :
    image.item.Writable (levels + 6) := by
  have mark := Item.writable_of_text (levels + 5) image.mark storable.mark
  have version := Item.writable_of_int (levels + 5) image.version storable.version
  have constants := writable_constants (levels + 4) image.constants storable.fewConstants storable.constants
  have blueprints := Item.writable_of_list_or_null (levels + 4) StoredBlueprint.item image.blueprints storable.few
    fun blueprint member => blueprint.writable_item levels (storable.blueprints blueprint member)
  exact ((((Item.WritableEntries.one _ (by decide) mark).append
    (.one _ (by decide) version)).append (.one _ (by decide) constants)).append
    (.one _ (by decide) blueprints)).map (by decide)

/-- An image is read back from its bytes, whatever follows them. The reader stops behind the first item, and its limit
of nesting is above what an image takes. -/
theorem decode_encoded (image : Image) (storable : image.Storable) (junk : Text) :
    decode (image.encode ++ junk) = .ok image := by
  -- An image takes six levels of nesting; the reader allows 26 more.
  rw [decode, encode, read_encoded image.item (image.writable_item 26 storable) junk]
  exact image.of_item_item storable

end Image

end IntegerMachine
