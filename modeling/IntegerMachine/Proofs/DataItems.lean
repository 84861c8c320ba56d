import IntegerMachine.Cbor.Read

/-!
# Reading written items

Reading the bytes of an item gives the item back and leaves what follows alone. A head announces its number in the
shortest of five forms, and each form is read as the number it was written for. What remains is an induction over
the nesting: the elements of an array and the keys and values of a map are read one after the other by the reader of
the level below.

The theorem is about the items that images are made of: numbers, texts in one chunk, null, and arrays and maps of
such items. The reader sets the bounds that it asks for.
-/
namespace IntegerMachine.Cbor

/-! ## Numbers -/

/-- A number takes as many bytes as it is given, whether it needs them or not. -/
theorem big_endian_length (count number : Nat) : (bigEndian count number).length = count := by
  induction count generalizing number with
  | zero => rfl
  | succ count ih => simp [bigEndian, ih]

/-- A byte behind others is the least significant one. -/
theorem of_big_endian_snoc (bytes : Text) (byte : UInt8) :
    ofBigEndian (bytes ++ [byte]) = ofBigEndian bytes * 256 + byte.toNat := by
  simp [ofBigEndian, List.foldl_append]

/-- A number that fits its bytes is read back. The induction is on the number of bytes; the last one is the remainder,
and the others are the number divided by the size of a byte. -/
theorem of_big_endian (count number : Nat) (fits : number < Nat.pow 256 count) :
    ofBigEndian (bigEndian count number) = number := by
  induction count generalizing number with
  | zero =>
    have zero : number = 0 := Nat.lt_one_iff.mp fits
    simp [zero, bigEndian, ofBigEndian]
  | succ count ih =>
    have upper : number / 256 < Nat.pow 256 count :=
      Nat.div_lt_of_lt_mul (by rw [Nat.mul_comm]; exact fits)
    have lower : (number % 256).toUInt8.toNat = number % 256 := by
      simp [Nat.toUInt8]
    rw [bigEndian, of_big_endian_snoc, ih (number / 256) upper, lower]
    omega

/-- Taking as many bytes as stand in front splits them off, and nothing of what follows is looked at. -/
theorem take_bytes_append (front rest : Text) : takeBytes front.length (front ++ rest) = .ok (front, rest) := by
  simp [takeBytes]

/-! ## Heads -/

/-- The first byte of an item tells its major type. It has three bits for it, which is why there are eight types. -/
theorem major_of_initial (major info : Nat) (known : major < 8) (short : info < 32) :
    majorOf (initial major info) = major := by
  simp only [majorOf, initial, Nat.toUInt8, UInt8.toNat_ofNat']
  omega

/-- The first byte of an item tells the additional information, which has the other five bits. -/
theorem info_of_initial (major info : Nat) (short : info < 32) :
    infoOf (initial major info) = info := by
  simp only [infoOf, initial, Nat.toUInt8, UInt8.toNat_ofNat']
  omega

/-- A number behind the first byte is read back, whatever the number of bytes it is written in. Heads make use of four
such lengths. -/
theorem long_head_encoded (first : UInt8) (count number : Nat) (rest : Text) (fits : number < Nat.pow 256 count) :
    longHead first count (bigEndian count number ++ rest) =
      .ok ({ major := majorOf first, info := infoOf first, number := some number }, rest) := by
  have taken : takeBytes count (bigEndian count number ++ rest) = .ok (bigEndian count number, rest) := by
    have split := take_bytes_append (bigEndian count number) rest
    rwa [big_endian_length] at split
  rw [longHead, taken]
  simp only [bind, Except.bind, of_big_endian count number fits]
  rfl

/-- A number below 24 stands in the first byte. The larger values of the additional information announce bytes behind
it. -/
theorem short_head_encoded (major number : Nat) (rest : Text) (known : major < 8) (short : number < 24) :
    readHead (head major number ++ rest) = .ok ({ major, info := number, number := some number }, rest) := by
  have plain : head major number = [initial major number] := by simp [head, short]
  rw [plain, List.singleton_append, readHead]
  simp only [major_of_initial major number known (by omega), info_of_initial major number (by omega), short,
    if_true]

/-- A head is read as the number it was written for. The cases are those of the writer; simple values are left out,
since some of them have no longer form. -/
theorem head_encoded (major number : Nat) (rest : Text) (known : major < 7) (fits : number < 0x10000000000000000) :
    ∃ info, readHead (head major number ++ rest) = .ok ({ major, info, number := some number }, rest) := by
  have majors : ∀ info < 32, majorOf (initial major info) = major :=
    fun info short => major_of_initial major info (by omega) short
  have infos : ∀ info < 32, infoOf (initial major info) = info :=
    info_of_initial major
  by_cases short : number < 24
  · exact ⟨number, short_head_encoded major number rest (by omega) short⟩
  by_cases one : number < 0x100
  · refine ⟨24, ?_⟩
    have notSimple : ¬ (major = 7 ∧ number < 32) := by omega
    simp only [head, short, one, if_true, if_false, List.cons_append, readHead, majors 24 (by decide),
      infos 24 (by decide), Nat.lt_irrefl, byteHead, long_head_encoded _ 1 number rest one, bind, Except.bind,
      Option.getD_some, notSimple]
    rfl
  by_cases two : number < 0x10000
  · refine ⟨25, ?_⟩
    simp [head, short, one, two, readHead, majors 25 (by decide), infos 25 (by decide),
      long_head_encoded _ 2 number rest two]
  by_cases four : number < 0x100000000
  · refine ⟨26, ?_⟩
    simp [head, short, one, two, four, readHead, majors 26 (by decide), infos 26 (by decide),
      long_head_encoded _ 4 number rest four]
  · refine ⟨27, ?_⟩
    simp [head, short, one, two, four, readHead, majors 27 (by decide), infos 27 (by decide),
      long_head_encoded _ 8 number rest fits]

/-- A head starts with a byte of its major type, in each of the five forms. The reader looks at this byte before it
reads the head. -/
theorem head_starts (major number : Nat) (known : major < 8) :
    ∃ first rest, head major number = first :: rest ∧ majorOf first = major := by
  have start : ∀ info < 32, ∀ rest, ∃ first tail,
      initial major info :: rest = first :: tail ∧ majorOf first = major :=
    fun info short rest => ⟨_, _, rfl, major_of_initial major info known short⟩
  unfold head
  repeat' split
  · exact start number (by omega) []
  · exact start 24 (by decide) _
  · exact start 25 (by decide) _
  · exact start 26 (by decide) _
  · exact start 27 (by decide) _

/-- An item that is not a tag is read as a plain one. Only tags are looked through, and images are written without
them. -/
theorem read_item_head (nested : Option Reader) (major number : Nat) (rest : Text) (known : major < 8)
    (plain : major ≠ 6) :
    readItem nested (head major number ++ rest) = readPlain nested (head major number ++ rest) := by
  obtain ⟨first, tail, starts, majorFirst⟩ := head_starts major number known
  have noTag : startsWithTag (head major number ++ rest) = false := by
    simp [starts, startsWithTag, majorFirst, plain]
  rw [readItem, noTag]
  rfl

/-! ## Items -/

/-- The items that are written, with arrays and maps nested up to a number of levels. -/
inductive Item.Writable : Nat → Item → Prop where
  | unsigned (levels value : Nat) (fits : value < 0x10000000000000000) : Writable levels (.unsigned value)
  | negative (levels value : Nat) (fits : value < 0x10000000000000000) : Writable levels (.negative value)
  | text (levels : Nat) (content : Text) (fits : content.length < 0x8000000000000000) :
      Writable levels (.text [content])
  | array (levels : Nat) (items : List Item) (few : items.length ≤ sizeLimit)
      (elements : ∀ item ∈ items, Writable levels item) : Writable (levels + 1) (.array items)
  | map (levels : Nat) (entries : List (Item × Item)) (few : entries.length ≤ sizeLimit)
      (keys : ∀ entry ∈ entries, Writable levels entry.1)
      (values : ∀ entry ∈ entries, Writable levels entry.2) : Writable (levels + 1) (.map entries)
  | simple (levels value : Nat) (short : value < 24) : Writable levels (.simple value)

/-- Items that a reader gives back are read one after the other. The reader leaves what follows alone, so that the
next one starts where the last one has ended. -/
theorem read_many_encoded (reader : Reader) (items : List Item)
    (faithful : ∀ item ∈ items, ∀ rest, reader (item.encode ++ rest) = .ok (item, rest)) (rest : Text) :
    readMany reader items.length (encodeItems items ++ rest) = .ok (items, rest) := by
  induction items with
  | nil => simp [readMany, encodeItems]
  | cons item items ih =>
    have first := faithful item List.mem_cons_self (encodeItems items ++ rest)
    have others := ih fun other member => faithful other (List.mem_cons_of_mem _ member)
    rw [encodeItems, List.append_assoc, List.length_cons, readMany, first]
    simp only [bind, Except.bind, others]
    rfl

/-- The keys and values of entries, one after the other. -/
def flatten (entries : List (Item × Item)) : List Item := entries.flatMap fun entry => [entry.1, entry.2]

/-- A map is written as its keys and values one after the other, so that maps can be treated like arrays of twice the
length. -/
theorem encode_entries_eq (entries : List (Item × Item)) : encodeEntries entries = encodeItems (flatten entries) := by
  induction entries with
  | nil => rfl
  | cons entry rest ih =>
    simp only [encodeEntries, ih, flatten, List.flatMap_cons, List.cons_append, List.nil_append, encodeItems,
      List.append_assoc]

/-- There are two items for each entry. The head of a map counts entries, while the reader reads items. -/
theorem flatten_length (entries : List (Item × Item)) : (flatten entries).length = 2 * entries.length := by
  induction entries with
  | nil => rfl
  | cons entry rest ih =>
    simp only [flatten, List.flatMap_cons, List.length_append, List.length_cons, List.length_nil] at ih ⊢
    omega

/-- Keys and values are paired up again. Of an even number of items none is left over. -/
theorem pair_up_flatten (entries : List (Item × Item)) : pairUp (flatten entries) = .ok entries := by
  induction entries with
  | nil => rfl
  | cons entry rest ih =>
    simp only [flatten, List.flatMap_cons, List.cons_append, List.nil_append] at ih ⊢
    simp only [pairUp, ih, bind, Except.bind]
    rfl

/-- A list of announced length is read by the reader of the level below. The width is one for arrays and two for maps,
and the length must be within the limit that the reader sets. -/
theorem read_elements_encoded (nested : Reader) (width major info count : Nat) (items : List Item) (rest : Text)
    (few : count ≤ sizeLimit) (size : items.length = width * count)
    (faithful : ∀ item ∈ items, ∀ rest, nested (item.encode ++ rest) = .ok (item, rest)) :
    readElements nested width { major, info, number := some count } (encodeItems items ++ rest) =
      .ok (items, rest) := by
  have notHuge : ¬ 0x8000000000000000 ≤ count := by
    simp only [sizeLimit] at few
    omega
  simp only [readElements, notHuge, if_false, checkSize, Nat.not_lt.mpr few, bind, Except.bind]
  rw [← size]
  exact read_many_encoded nested items faithful rest

/-- A number from zero on is read back. -/
theorem read_unsigned_encoded (nested : Option Reader) (value : Nat) (rest : Text)
    (fits : value < 0x10000000000000000) :
    readItem nested ((Item.unsigned value).encode ++ rest) = .ok (.unsigned value, rest) := by
  obtain ⟨info, read⟩ := head_encoded 0 value rest (by decide) fits
  rw [Item.encode, read_item_head nested 0 value rest (by decide) (by decide), readPlain, read]
  rfl

/-- A number below zero is read back. -/
theorem read_negative_encoded (nested : Option Reader) (value : Nat) (rest : Text)
    (fits : value < 0x10000000000000000) :
    readItem nested ((Item.negative value).encode ++ rest) = .ok (.negative value, rest) := by
  obtain ⟨info, read⟩ := head_encoded 1 value rest (by decide) fits
  rw [Item.encode, read_item_head nested 1 value rest (by decide) (by decide), readPlain, read]
  rfl

/-- A simple value that stands in its head is read back. Null is one of them, and larger ones would need a second
byte. -/
theorem read_simple_encoded (nested : Option Reader) (value : Nat) (rest : Text) (short : value < 24) :
    readItem nested ((Item.simple value).encode ++ rest) = .ok (.simple value, rest) := by
  have small : value ≤ 24 := by omega
  rw [Item.encode, read_item_head nested 7 value rest (by decide) (by decide), readPlain,
    short_head_encoded 7 value rest (by decide) short]
  simp only [bind, Except.bind, small, if_true]
  rfl

/-- A text in one chunk is read back, whatever its bytes are. Whether they are UTF-8 is asked later, when the item is
turned into a value. -/
theorem read_text_encoded (nested : Option Reader) (content rest : Text)
    (fits : content.length < 0x8000000000000000) :
    readItem nested ((Item.text [content]).encode ++ rest) = .ok (.text [content], rest) := by
  obtain ⟨info, read⟩ := head_encoded 3 content.length (content ++ rest) (by decide) (by omega)
  have notHuge : ¬ 0x8000000000000000 ≤ content.length := by omega
  have string : readString { major := 3, info, number := some content.length } (content ++ rest) =
      .ok ([content], rest) := by
    simp only [readString, readContent, notHuge, if_false, take_bytes_append, bind, Except.bind]
    rfl
  simp only [Item.encode, List.flatten_cons, List.flatten_nil, List.append_nil, List.append_assoc]
  rw [read_item_head nested 3 content.length (content ++ rest) (by decide) (by decide), readPlain, read]
  simp only [bind, Except.bind, string]
  rfl

/-- An array is read back if the nested reader gives its elements back. There must be a nested reader, which is to say
a level left to go down. -/
theorem read_array_encoded (nested : Reader) (items : List Item) (rest : Text) (few : items.length ≤ sizeLimit)
    (faithful : ∀ item ∈ items, ∀ rest, nested (item.encode ++ rest) = .ok (item, rest)) :
    readItem (some nested) ((Item.array items).encode ++ rest) = .ok (.array items, rest) := by
  have fits : items.length < 0x10000000000000000 := by
    simp only [sizeLimit] at few
    omega
  obtain ⟨info, read⟩ := head_encoded 4 items.length (encodeItems items ++ rest) (by decide) fits
  have list := read_elements_encoded nested 1 4 info items.length items rest few (by omega) faithful
  rw [Item.encode, List.append_assoc, read_item_head _ 4 items.length _ (by decide) (by decide), readPlain, read]
  simp only [bind, Except.bind, deeper, list]
  rfl

/-- A map is read back if the nested reader gives its keys and values back, in the order in which they were
written. -/
theorem read_map_encoded (nested : Reader) (entries : List (Item × Item)) (rest : Text)
    (few : entries.length ≤ sizeLimit)
    (keys : ∀ entry ∈ entries, ∀ rest, nested (entry.1.encode ++ rest) = .ok (entry.1, rest))
    (values : ∀ entry ∈ entries, ∀ rest, nested (entry.2.encode ++ rest) = .ok (entry.2, rest)) :
    readItem (some nested) ((Item.map entries).encode ++ rest) = .ok (.map entries, rest) := by
  have fits : entries.length < 0x10000000000000000 := by
    simp only [sizeLimit] at few
    omega
  have faithful : ∀ item ∈ flatten entries, ∀ rest, nested (item.encode ++ rest) = .ok (item, rest) := by
    intro item member
    obtain ⟨entry, listed, isPart⟩ := List.mem_flatMap.mp member
    simp only [List.mem_cons, List.not_mem_nil, or_false] at isPart
    rcases isPart with rfl | rfl
    · exact keys entry listed
    · exact values entry listed
  obtain ⟨info, read⟩ := head_encoded 5 entries.length (encodeItems (flatten entries) ++ rest) (by decide) fits
  have list := read_elements_encoded nested 2 5 info entries.length (flatten entries) rest few
    (flatten_length entries) faithful
  rw [Item.encode, encode_entries_eq, List.append_assoc,
    read_item_head _ 5 entries.length _ (by decide) (by decide), readPlain, read]
  simp only [bind, Except.bind, deeper, list, pair_up_flatten]
  rfl

/-- A written item is read back, whatever follows it. The induction is on the nesting: the reader of an array or a map
passes what is nested in it to the reader of the level below. -/
theorem read_within_encoded (levels : Nat) (item : Item) (writable : item.Writable levels) (rest : Text) :
    readWithin levels (item.encode ++ rest) = .ok (item, rest) := by
  have anyLevel (levels : Nat) : ∃ nested, readWithin levels = readItem nested := by
    cases levels with
    | zero => exact ⟨none, rfl⟩
    | succ levels => exact ⟨some (readWithin levels), rfl⟩
  induction writable generalizing rest with
  | unsigned levels value fits =>
    obtain ⟨nested, reader⟩ := anyLevel levels
    rw [reader, read_unsigned_encoded nested value rest fits]
  | negative levels value fits =>
    obtain ⟨nested, reader⟩ := anyLevel levels
    rw [reader, read_negative_encoded nested value rest fits]
  | text levels content fits =>
    obtain ⟨nested, reader⟩ := anyLevel levels
    rw [reader, read_text_encoded nested content rest fits]
  | simple levels value short =>
    obtain ⟨nested, reader⟩ := anyLevel levels
    rw [reader, read_simple_encoded nested value rest short]
  | array levels items few elements ih => exact read_array_encoded (readWithin levels) items rest few ih
  | map levels entries few keys values keysIh valuesIh =>
    exact read_map_encoded (readWithin levels) entries rest few keysIh valuesIh

/-- The first item of a byte string is a written item in front of anything. That there are bytes at all is checked
first, and a written item is never empty. -/
theorem read_encoded (item : Item) (writable : item.Writable levelLimit) (rest : Text) :
    read (item.encode ++ rest) = .ok (item, rest) := by
  have whole := read_within_encoded levelLimit item writable rest
  cases bytes : item.encode ++ rest with
  | nil =>
    have ended : readWithin levelLimit [] = .error .ended := rfl
    rw [bytes, ended] at whole
    contradiction
  | cons first others => rw [read, ← bytes, whole, bytes, List.isEmpty_cons, if_neg Bool.false_ne_true]

end IntegerMachine.Cbor
