import IntegerMachine.Analysis.Check
import IntegerMachine.Analysis.Diagnostic
import IntegerMachine.Analysis.Symbol
import IntegerMachine.Blueprint
import IntegerMachine.Build
import IntegerMachine.Calendar
import IntegerMachine.Cbor.Error
import IntegerMachine.Cbor.Item
import IntegerMachine.Cbor.Read
import IntegerMachine.Cbor.Value
import IntegerMachine.CommandLine.Flag
import IntegerMachine.CommandLine.Host
import IntegerMachine.CommandLine.Number
import IntegerMachine.CommandLine.Session
import IntegerMachine.CommandLine.World
import IntegerMachine.Config
import IntegerMachine.Debugger
import IntegerMachine.Decimal
import IntegerMachine.Delivery
import IntegerMachine.Failure
import IntegerMachine.Fault
import IntegerMachine.Frame
import IntegerMachine.Image
import IntegerMachine.Input
import IntegerMachine.LineTracker
import IntegerMachine.Listing
import IntegerMachine.Literal
import IntegerMachine.Log
import IntegerMachine.Machine.Basic
import IntegerMachine.Machine.Run
import IntegerMachine.Machine.Step
import IntegerMachine.Main
import IntegerMachine.Opcode
import IntegerMachine.Output
import IntegerMachine.Program
import IntegerMachine.Review
import IntegerMachine.Sink
import IntegerMachine.Snapshot
import IntegerMachine.Source.Complaint
import IntegerMachine.Source.Line
import IntegerMachine.Source.Parse
import IntegerMachine.Source.Position
import IntegerMachine.Source.Token
import IntegerMachine.Source.Tree
import IntegerMachine.Text.Base64
import IntegerMachine.Text.Basic
import IntegerMachine.Text.Case
import IntegerMachine.Text.Digit
import IntegerMachine.Text.Letter
import IntegerMachine.Text.Printable
import IntegerMachine.Text.Quoted
import IntegerMachine.Text.Utf8
import IntegerMachine.Toml.Document
import IntegerMachine.Toml.Parse
import IntegerMachine.Toml.Quoted
import IntegerMachine.Toml.Scalar
import IntegerMachine.Toml.Value
import IntegerMachine.Yaml.Number
import IntegerMachine.Yaml.Scalar
import IntegerMachine.Yaml.Timestamp
import IntegerMachine.Proofs.Declarations
import IntegerMachine.Proofs.Acceptance
import IntegerMachine.Proofs.Linking
import IntegerMachine.Proofs.Building
import IntegerMachine.Proofs.Resolution
import IntegerMachine.Proofs.Faults
import IntegerMachine.Proofs.DataItems
import IntegerMachine.Proofs.StoredImages
import IntegerMachine.Proofs.TokenTexts
import IntegerMachine.Proofs.ImageRoundTrip
import IntegerMachine.Proofs.Stages
import IntegerMachine.Proofs.Effects
import IntegerMachine.Proofs.CallStack
import IntegerMachine.Proofs.IndexSafety
import IntegerMachine.Proofs.Activation
import IntegerMachine.Proofs.StraightLine
import IntegerMachine.Proofs.DepthNotes
import IntegerMachine.Proofs.StackDepth
import IntegerMachine.Proofs.Termination
import IntegerMachine.Proofs.Reference
import IntegerMachine.Proofs.Refinement
import IntegerMachine.Proofs.Returns
import IntegerMachine.Proofs.HandOver
import IntegerMachine.Proofs.Grammar
import IntegerMachine.Proofs.LineSteps
import IntegerMachine.Proofs.ParseGrammar
import IntegerMachine.Proofs.FoldedTrees
import IntegerMachine.Proofs.Respelling
import IntegerMachine.Proofs.Spelling
import IntegerMachine.Proofs.Reordering
import IntegerMachine.Proofs.Isolation
import IntegerMachine.Proofs.Visits
import IntegerMachine.Proofs.Decoding
import IntegerMachine.Proofs.LiteralGrammar
import IntegerMachine.Proofs.PreciseFaults
import IntegerMachine.Proofs.StackUses
import IntegerMachine.Proofs.Scanning
import IntegerMachine.Proofs.FoldedNames
import IntegerMachine.Proofs.Wording
import IntegerMachine.Proofs.ListingText
import IntegerMachine.Proofs.ListingGrammar
import IntegerMachine.Proofs.ListingRoundTrip
import IntegerMachine.Proofs.StoppedRuns
import IntegerMachine.Proofs.Devices
import IntegerMachine.Proofs.LineInput
import IntegerMachine.Proofs.WrittenBytes
import IntegerMachine.Proofs.SharedInput
import IntegerMachine.Proofs.TableHistory
import IntegerMachine.Proofs.CheckedParse
import IntegerMachine.Proofs.MissingValues
import IntegerMachine.Proofs.TreeShape
import IntegerMachine.Proofs.TokenGrammar
import IntegerMachine.Proofs.LineComments
import IntegerMachine.Proofs.PartialLines
import IntegerMachine.Proofs.ReadingOrder
import IntegerMachine.Proofs.RefusedWrites
import IntegerMachine.Proofs.ErrorOrder
