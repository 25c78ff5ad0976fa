import SpokenList.Assistant
import SpokenList.Checked
import SpokenList.Checked.Account
import SpokenList.CommandLine
import SpokenList.Execution
import SpokenList.FloorPolicy
import SpokenList.Interpretation
import SpokenList.Item
import SpokenList.Journal
import SpokenList.Journal.Setup
import SpokenList.Json.Basic
import SpokenList.Json.Decimal
import SpokenList.Json.Reader
import SpokenList.Json.Shortest
import SpokenList.Json.Shown
import SpokenList.Json.Writer
import SpokenList.Ledger
import SpokenList.Limits
import SpokenList.Main
import SpokenList.Outcome
import SpokenList.Plan.Basic
import SpokenList.Plan.Summary
import SpokenList.Plan.Wire
import SpokenList.Proofs.Accounting
import SpokenList.Proofs.Additions
import SpokenList.Proofs.Arrangement
import SpokenList.Proofs.Beginnings
import SpokenList.Proofs.BlankNames
import SpokenList.Proofs.Blocks
import SpokenList.Proofs.BrokenNotes
import SpokenList.Proofs.CanonicalForms
import SpokenList.Proofs.CanonicalSegments
import SpokenList.Proofs.Coercion
import SpokenList.Proofs.ColumnKey
import SpokenList.Proofs.Commands
import SpokenList.Proofs.CommonForm
import SpokenList.Proofs.CompiledPlans
import SpokenList.Proofs.Delimiters
import SpokenList.Proofs.DistinctKeys
import SpokenList.Proofs.DrawnNumbers
import SpokenList.Proofs.Enumerations
import SpokenList.Proofs.FailedWrites
import SpokenList.Proofs.FillerWords
import SpokenList.Proofs.FinishedNames
import SpokenList.Proofs.Floor
import SpokenList.Proofs.Grammar
import SpokenList.Proofs.Groups
import SpokenList.Proofs.Interchange
import SpokenList.Proofs.Interpretation
import SpokenList.Proofs.ItemByItem
import SpokenList.Proofs.ItemNames
import SpokenList.Proofs.Ledger
import SpokenList.Proofs.Lowering
import SpokenList.Proofs.Mentions
import SpokenList.Proofs.NormalForm
import SpokenList.Proofs.Notes
import SpokenList.Proofs.Numbering
import SpokenList.Proofs.Numerals
import SpokenList.Proofs.OneName
import SpokenList.Proofs.Openings
import SpokenList.Proofs.Previews
import SpokenList.Proofs.Quantities
import SpokenList.Proofs.QuantityLimits
import SpokenList.Proofs.Rereading
import SpokenList.Proofs.Rows
import SpokenList.Proofs.ScratchList
import SpokenList.Proofs.Segments
import SpokenList.Proofs.Service
import SpokenList.Proofs.Sessions
import SpokenList.Proofs.Standing
import SpokenList.Proofs.Summaries
import SpokenList.Proofs.Trimming
import SpokenList.Proofs.Undoing
import SpokenList.Proofs.UnnamedRows
import SpokenList.Proofs.Wire
import SpokenList.Proofs.Words
import SpokenList.Proofs.WorkingCopy
import SpokenList.Proposal.Basic
import SpokenList.Proposal.Coerce
import SpokenList.ScratchList
import SpokenList.Service
import SpokenList.Service.Address
import SpokenList.Service.Endpoint
import SpokenList.Settings
import SpokenList.Text.Abridged
import SpokenList.Text.Basic
import SpokenList.Text.Blank
import SpokenList.Text.Capital
import SpokenList.Text.CaseTable
import SpokenList.Text.CodeUnit
import SpokenList.Text.DecimalDigit
import SpokenList.Text.Encoding
import SpokenList.Text.FieldNumeral
import SpokenList.Text.LowerCase
import SpokenList.Text.Numeral
import SpokenList.Text.Printable
import SpokenList.Text.Quoted
import SpokenList.Text.WordCharacter
import SpokenList.Utterance.Compile
import SpokenList.Utterance.Group
import SpokenList.Utterance.ItemName
import SpokenList.Utterance.Phrase
import SpokenList.Utterance.Quantity
import SpokenList.Utterance.Segment
import SpokenList.Utterance.Vocabulary
import SpokenList.Word
import SpokenList.Write
