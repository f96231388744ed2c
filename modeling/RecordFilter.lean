import RecordFilter.Condition
import RecordFilter.Condition.Read
import RecordFilter.Date
import RecordFilter.Decimal
import RecordFilter.Failure
import RecordFilter.File
import RecordFilter.Json
import RecordFilter.Json.Read
import RecordFilter.Json.Token
import RecordFilter.Json.Write
import RecordFilter.Main
import RecordFilter.Moment
import RecordFilter.Operator
import RecordFilter.Outcome
import RecordFilter.Predicate
import RecordFilter.Predicate.Compile
import RecordFilter.Predicate.Listing
import RecordFilter.Predicate.Text
import RecordFilter.Proofs.Calls
import RecordFilter.Proofs.Composition
import RecordFilter.Proofs.Cuts
import RecordFilter.Proofs.Declarations
import RecordFilter.Proofs.Excerpts
import RecordFilter.Proofs.Failures
import RecordFilter.Proofs.Grammar
import RecordFilter.Proofs.Leaves
import RecordFilter.Proofs.Lexemes
import RecordFilter.Proofs.Literals
import RecordFilter.Proofs.LongestMatch
import RecordFilter.Proofs.Lookup
import RecordFilter.Proofs.Meaning
import RecordFilter.Proofs.Paths
import RecordFilter.Proofs.Places
import RecordFilter.Proofs.Reading
import RecordFilter.Proofs.Redeclarations
import RecordFilter.Proofs.Refusals
import RecordFilter.Proofs.Rendering
import RecordFilter.Proofs.Resuming
import RecordFilter.Proofs.RoundTrip
import RecordFilter.Proofs.Rules
import RecordFilter.Proofs.Runs
import RecordFilter.Proofs.Scanning
import RecordFilter.Proofs.Seams
import RecordFilter.Proofs.Slices
import RecordFilter.Proofs.Spacing
import RecordFilter.Proofs.Spans
import RecordFilter.Proofs.Strings
import RecordFilter.Proofs.Suffixes
import RecordFilter.Proofs.Tiling
import RecordFilter.Proofs.Typing
import RecordFilter.Proofs.Validation
import RecordFilter.Proofs.Widening
import RecordFilter.Query
import RecordFilter.Session
import RecordFilter.Settings
import RecordFilter.Settings.Json
import RecordFilter.Shape
import RecordFilter.Shape.Json
import RecordFilter.Shape.Resolve
import RecordFilter.Span
import RecordFilter.Text.Character
import RecordFilter.Text.Digits
import RecordFilter.Text.Escape
import RecordFilter.Text.Layout
import RecordFilter.Text.Lines
import RecordFilter.Text.Measure
import RecordFilter.Text.Order
import RecordFilter.Text.Slice
import RecordFilter.Token
import RecordFilter.Token.Scan
import RecordFilter.Unicode.Alphabetic
import RecordFilter.Unicode.GraphemeExtend
import RecordFilter.Unicode.Numeric
import RecordFilter.Unicode.Unprintable
import RecordFilter.Vocabulary
import RecordFilter.Vocabulary.Check
