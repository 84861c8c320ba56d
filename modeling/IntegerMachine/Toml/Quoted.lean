import IntegerMachine.Toml.Scalar

/-!
# TOML strings

Strings stand between double quotes, where a backslash starts an escape, or between single quotes, where nothing
does. Three quotes enclose a string of several lines: a line feed right after them does not count, and up to two
quotes may stand right before the closing ones, three behind an escaped backslash.
-/
namespace IntegerMachine.Toml

/-- A reader: what it read and the rest, or nothing if it cannot read. -/
abbrev Reader (α : Type) := List Char → Option (α × List Char)

/-- The code point written by exactly so many hexadecimal digits. -/
def codePoint? (count : Nat) (characters : List Char) : Option (Char × List Char) :=
  let word := characters.take count
  if word.length ≠ count ∨ '_' ∈ word then none
  else match digits? 16 word with
    | none => none
    | some point =>
      if point.isValidChar then some (Char.ofNat point, characters.drop count) else none

/-- Reads an escape after its backslash. -/
def escape? : Reader Char
  | [] => none
  | letter :: rest =>
    match letter with
    | 'b' => some (Char.ofNat 8, rest)
    | 't' => some ('\t', rest)
    | 'n' => some ('\n', rest)
    | 'f' => some (Char.ofNat 12, rest)
    | 'r' => some ('\r', rest)
    | 'e' => some (Char.ofNat 27, rest)
    | '"' => some ('"', rest)
    | '\\' => some ('\\', rest)
    | 'x' => codePoint? 2 rest
    | 'u' => codePoint? 4 rest
    | 'U' => codePoint? 8 rest
    | _ => none

/-- Whether a character is a blank. -/
def isBlank (character : Char) : Bool := character == ' ' || character == '\t'

/-- Whether a character belongs to the end of a line. -/
def isLineEnd (character : Char) : Bool := character == '\n' || character == '\r'

/-- Reads the rest of a string on one line, up to its quote. Fuel is the number of characters. -/
def readLineString (quote : Char) : Nat → Reader Text
  | 0, _ => none
  | _ + 1, [] => none
  | fuel + 1, character :: rest =>
    if character = quote then some ([], rest)
    else if isLineEnd character then none
    else if character = '\\' ∧ quote = '"' then do
      let (escaped, rest) ← escape? rest
      let (content, rest) ← readLineString quote fuel rest
      return (Text.ofChar escaped ++ content, rest)
    else do
      let (content, rest) ← readLineString quote fuel rest
      return (Text.ofChar character ++ content, rest)

/-- The characters after a backslash at the end of a line: all blanks and line ends are skipped. -/
def continued? (characters : List Char) : Option (List Char) :=
  match characters.dropWhile isBlank with
  | character :: rest =>
    if isLineEnd character then some (rest.dropWhile fun c => isBlank c || isLineEnd c) else none
  | [] => none

/-- The number of quotes at the end of a string of several lines, with the closing ones. -/
def quoteLimit : Nat := 5

/-- Reads the rest of a string of several lines, up to its quotes, of which there may be so many. Fuel is the number
of characters. -/
def readBlockString (quote : Char) : Nat → Nat → Reader Text
  | _, 0, _ => none
  | _, _ + 1, [] => none
  | limit, fuel + 1, character :: rest =>
    if character = quote then
      let run := (rest.takeWhile (· == quote)).length + 1
      if 3 ≤ run then
        if run ≤ limit then
          some ((List.replicate (run - 3) quote).flatMap Text.ofChar, rest.drop (run - 1))
        else none
      else do
        let (content, rest) ← readBlockString quote quoteLimit fuel rest
        return (Text.ofChar character ++ content, rest)
    else if character = '\\' ∧ quote = '"' then
      match continued? rest with
      | some rest => readBlockString quote quoteLimit fuel rest
      | none => do
        let letter? := rest.head?
        let (escaped, rest) ← escape? rest
        let limit := if letter? = some '\\' then quoteLimit + 1 else quoteLimit
        let (content, rest) ← readBlockString quote limit fuel rest
        return (Text.ofChar escaped ++ content, rest)
    else do
      let (content, rest) ← readBlockString quote quoteLimit fuel rest
      return (Text.ofChar character ++ content, rest)

/-- The characters without a line end in front. -/
def skipLineEnd : List Char → List Char
  | '\r' :: '\n' :: rest => rest
  | '\n' :: rest => rest
  | characters => characters

/-- Reads a string that starts with the given quote, which is already read. -/
def readString (quote : Char) : Reader Text := fun characters =>
  match characters with
  | second :: third :: rest =>
    if second = quote ∧ third = quote then
      let inside := skipLineEnd rest
      readBlockString quote quoteLimit (inside.length + 1) inside
    else readLineString quote (characters.length + 1) characters
  | _ => readLineString quote (characters.length + 1) characters

end IntegerMachine.Toml
