import IntegerMachine.Toml.Quoted

/-!
# Parsing TOML

A document is a sequence of statements on lines of their own. The text must be UTF-8, without control characters
other than tabs and line ends. Only the form of the statements is checked here.
-/
namespace IntegerMachine.Toml

/-- Whether no character is a control character; a carriage return must have a line feed behind it. -/
def isClean : List Char → Bool
  | [] => true
  | '\r' :: '\n' :: rest => isClean rest
  | character :: rest =>
    (character == '\t' || character == '\n' ||
      (0x20 ≤ character.toNat && character.toNat ≠ 0x7F)) && isClean rest

/-- The characters without the blanks in front. -/
def skipBlanks (characters : List Char) : List Char := characters.dropWhile isBlank

/-- The characters without the comment in front, if there is one. -/
def skipComment : List Char → List Char
  | '#' :: rest => rest.dropWhile fun character => !isLineEnd character
  | characters => characters

/-- The characters without blanks, line ends and comments in front. Fuel is the number of characters. -/
def skipSpace : Nat → List Char → List Char
  | 0, characters => characters
  | _ + 1, [] => []
  | fuel + 1, character :: rest =>
    if isBlank character || isLineEnd character then skipSpace fuel rest
    else if character = '#' then skipSpace fuel (skipComment (character :: rest))
    else character :: rest

/-- The characters without all space in front. -/
def skipAll (characters : List Char) : List Char := skipSpace (characters.length + 1) characters

/-- Reads a given character. -/
def mark? (mark : Char) : List Char → Option (List Char)
  | [] => none
  | first :: rest => if first = mark then some rest else none

/-- Reads a part of a key. Strings of several lines are not allowed. -/
def readPart : Reader Text := fun characters =>
  match characters with
  | '"' :: rest => readLineString '"' (rest.length + 1) rest
  | '\'' :: rest => readLineString '\'' (rest.length + 1) rest
  | _ =>
    let part := characters.takeWhile isBareKey
    if part.isEmpty then none else some (.ofCharacters part, characters.drop part.length)

/-- Reads a key with points between its parts. Fuel is the number of characters. -/
def readKey : Nat → Reader Key
  | 0, _ => none
  | fuel + 1, characters => do
    let (part, rest) ← readPart (skipBlanks characters)
    match skipBlanks rest with
    | '.' :: rest =>
      let (parts, rest) ← readKey fuel rest
      return (part :: parts, rest)
    | rest => return ([part], rest)

/-- Whether a character can belong to a number, a date, a time or a truth value. -/
def isWordCharacter (character : Char) : Bool :=
  character.isAlphanum || character ∈ ['_', '+', '-', '.', ':']

/-- Reads a word. A blank between a date and a time belongs to it. -/
def readWord (characters : List Char) : List Char × List Char :=
  let word := characters.takeWhile isWordCharacter
  let rest := characters.drop word.length
  match rest with
  | ' ' :: digit :: _ =>
    if isDay word && digit.isDigit then
      let clock := rest.tail.takeWhile isWordCharacter
      (word ++ ' ' :: clock, rest.drop (clock.length + 1))
    else (word, rest)
  | _ => (word, rest)

/-- Reads the items of an array after its bracket, given a reader for values. -/
def readItems (value : Reader Value) : Nat → Reader (List Value)
  | 0, _ => none
  | fuel + 1, characters =>
    match skipAll characters with
    | ']' :: rest => some ([], rest)
    | characters => do
      let (item, rest) ← value characters
      match skipAll rest with
      | ',' :: rest =>
        let (items, rest) ← readItems value fuel rest
        return (item :: items, rest)
      | ']' :: rest => return ([item], rest)
      | _ => none

/-- Reads the entries of an inline table after its brace, given a reader for values. -/
def readEntries (value : Reader Value) : Nat → Reader (List (Key × Value))
  | 0, _ => none
  | fuel + 1, characters =>
    match skipAll characters with
    | '\x7d' :: rest => some ([], rest)
    | characters => do
      let (key, rest) ← readKey (characters.length + 1) characters
      let rest ← mark? '=' (skipBlanks rest)
      let (item, rest) ← value (skipBlanks rest)
      match skipAll rest with
      | ',' :: rest =>
        let (entries, rest) ← readEntries value fuel rest
        return ((key, item) :: entries, rest)
      | '\x7d' :: rest => return ([(key, item)], rest)
      | _ => none

/-- Reads a value. Fuel bounds how deeply values are nested; the number of characters is enough. -/
def readValue : Nat → Reader Value
  | 0, _ => none
  | fuel + 1, characters =>
    match characters with
    | '"' :: rest => (readString '"' rest).map fun (content, rest) => (.string content, rest)
    | '\'' :: rest => (readString '\'' rest).map fun (content, rest) => (.string content, rest)
    | '[' :: rest =>
      (readItems (readValue fuel) (rest.length + 1) rest).map fun (items, rest) =>
        (.array items, rest)
    | '\x7b' :: rest =>
      (readEntries (readValue fuel) (rest.length + 1) rest).map fun (entries, rest) =>
        (.table entries, rest)
    | _ =>
      let (word, rest) := readWord characters
      (scalar? word).map fun value => (value, rest)

/-- Reads the rest of a line, on which only a comment may stand. -/
def endLine? (characters : List Char) : Option (List Char) :=
  match skipComment (skipBlanks characters) with
  | [] => some []
  | character :: rest => if isLineEnd character then some rest else none

/-- Reads a statement. -/
def readStatement : Reader Statement := fun characters =>
  let fuel := characters.length + 1
  match characters with
  | '[' :: '[' :: rest => do
    let (key, rest) ← readKey fuel rest
    let rest ← mark? ']' rest
    let rest ← mark? ']' rest
    return (.element key, ← endLine? rest)
  | '[' :: rest => do
    let (key, rest) ← readKey fuel rest
    let rest ← mark? ']' rest
    return (.table key, ← endLine? rest)
  | _ => do
    let (key, rest) ← readKey fuel characters
    let rest ← mark? '=' rest
    let (value, rest) ← readValue fuel (skipBlanks rest)
    return (.assign key value, ← endLine? rest)

/-- Reads statements to the end. Fuel is the number of characters. -/
def readStatements : Nat → List Char → Option (List Statement)
  | 0, _ => none
  | fuel + 1, characters =>
    match skipAll characters with
    | [] => some []
    | characters => do
      let (statement, rest) ← readStatement characters
      return statement :: (← readStatements fuel rest)

/-- The characters without a mark of the byte order in front. -/
def skipByteOrderMark : List Char → List Char
  | '\uFEFF' :: rest => rest
  | characters => characters

/-- The statements of a text. -/
def parse? (text : Text) : Option (List Statement) :=
  if !text.isUtf8 then none
  else
    let characters := skipByteOrderMark text.characters
    if isClean characters then readStatements (characters.length + 1) characters else none

end IntegerMachine.Toml
