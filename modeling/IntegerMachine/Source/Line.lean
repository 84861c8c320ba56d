import IntegerMachine.Source.Token

/-!
# Token lines

The statements of a source are lines of tokens. Lines without tokens are passed over; what there was to
complain about in them is kept with the line after them.
-/
namespace IntegerMachine

/-- A line with at least one token. -/
structure TokenLine where
  /-- The complaints made since the line before. -/
  complaints : List SyntaxError
  first : Token
  rest : List Token
  deriving DecidableEq, Repr

/-- The tokens of a line. -/
def TokenLine.tokens (line : TokenLine) : List Token := line.first :: line.rest

namespace Source

/-- Lines, and the complaints made after the last one. -/
structure Lines where
  lines : List TokenLine
  complaints : List SyntaxError
  deriving DecidableEq, Repr

/-- Gathers items into lines; complaints and tokens of the current line come first. -/
def gather (complaints : List SyntaxError) (tokens : List Token) : List Item → Lines
  | [] =>
    match tokens with
    | [] => { lines := [], complaints }
    | first :: rest => { lines := [{ complaints, first, rest }], complaints := [] }
  | item :: items =>
    let complaints := complaints ++ item.complaints
    match item.token with
    | none => gather complaints tokens items
    | some token =>
      if token.kind = .mark '\n' then
        match tokens with
        | [] => gather complaints [] items
        | first :: rest =>
          let lines := gather [] [] items
          { lines with lines := { complaints, first, rest } :: lines.lines }
      else gather complaints (tokens ++ [token]) items

/-- The lines of a source. -/
def lines (source : Source) : Lines := gather [] [] source.items

end Source

end IntegerMachine
