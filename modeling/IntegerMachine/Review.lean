import IntegerMachine.Analysis.Check
import IntegerMachine.Delivery
import IntegerMachine.Source.Parse

/-!
# Reviews

A review is a parse tree with everything there is to say against it. A source with syntax errors is not
analysed.
-/
namespace IntegerMachine

/-- A tree with the errors and warnings about it. -/
structure Review where
  tree : Tree
  syntaxErrors : List SyntaxError
  /-- What analysis has found; absent after syntax errors. -/
  analysis : Option Analysis.Result
  deriving DecidableEq, Repr

/-- Parses a source, and analyses it if it has no syntax errors. -/
def Source.review (file : Text) (source : Source) : Review :=
  let (tree, syntaxErrors) := source.parse file
  { tree, syntaxErrors, analysis := if syntaxErrors.isEmpty then some (Analysis.check tree) else none }

/-- Why a source is refused. -/
inductive Refusal where
  | syntaxErrors (errors : List SyntaxError)
  | errors (errors : List Diagnostic)
  deriving DecidableEq, Repr

/-- The errors of a refusal, one on a line. -/
def Refusal.message (file : Text) : Refusal → Text
  | .syntaxErrors found => .join "\n" (found.map (SyntaxError.text file))
  | .errors found => .join "\n" (found.map (Diagnostic.text file))

namespace Review

/-- The name of the file, for messages. -/
def file (review : Review) : Text := review.tree.file

/-- The errors found by analysis. -/
def errors (review : Review) : List Diagnostic :=
  (review.analysis.map Analysis.Result.errors).getD []

/-- The warnings found by analysis. -/
def warnings (review : Review) : List Diagnostic :=
  (review.analysis.map Analysis.Result.warnings).getD []

/-- Why the source is refused, if it is. -/
def refusal? (review : Review) : Option Refusal :=
  if !review.syntaxErrors.isEmpty then some (.syntaxErrors review.syntaxErrors)
  else if !review.errors.isEmpty then some (.errors review.errors)
  else none

/-- A syntax error as it stands in a report. -/
def syntaxLine (file : Text) (error : SyntaxError) : Text :=
  .concat [error.position.within file, ": ", Severity.error.name, ": ", error.message file, "\n"]

/-- A diagnostic as it stands in a report. -/
def diagnosticLine (file : Text) (diagnostic : Diagnostic) : Text :=
  .concat [diagnostic.text file, "\n"]

/-- The report: syntax errors, errors and warnings, each on a line and in one write. -/
def report (review : Review) : Document :=
  review.syntaxErrors.map (syntaxLine review.file) ++
    (review.errors ++ review.warnings).map (diagnosticLine review.file)

/-- The remark that a source was not analysed. -/
def skipMessage (review : Review) : Text :=
  .concat [review.file, ": ", .ofNat review.syntaxErrors.length,
    " syntax error(s), skipping analysis"]

end Review

end IntegerMachine
