import Backtrack.Text
import Backtrack.Text.Class
import Backtrack.Text.Quoted
import Backtrack.Range
import Backtrack.Span
import Backtrack.Span.Adjust
import Backtrack.Decimal.Shortest
import Backtrack.Forks
import Backtrack.Parser.Build
import Backtrack.Grammar
import Backtrack.Lexeme.Word
import Backtrack.Lexeme.Integer
import Backtrack.Lexeme.Real
import Backtrack.Lexeme.Quoted
import Backtrack.Location
import Backtrack.Proofs.StreamTree
import Backtrack.Proofs.Progress
import Backtrack.Proofs.Transactions
import Backtrack.Proofs.Context
import Backtrack.Proofs.Rollback
import Backtrack.Script
import Backtrack.Peg
import Backtrack.Proofs.Depth
import Backtrack.Proofs.Nesting
import Backtrack.Proofs.Derivation
import Backtrack.Proofs.Conformance
import Backtrack.Proofs.Refinement
import Backtrack.Parser.Parts
import Backtrack.Proofs.Simulation
import Backtrack.Proofs.Ahead
import Backtrack.Proofs.Inlining
import Backtrack.Proofs.Endings
import Backtrack.Proofs.LeftRecursion
import Backtrack.Calls
import Backtrack.Proofs.Stickiness
import Backtrack.Proofs.Repetition
import Backtrack.Proofs.Tiling
import Backtrack.Proofs.Sources
import Backtrack.Proofs.Answers
import Backtrack.Proofs.Lexemes
import Backtrack.Proofs.Findings
import Backtrack.Proofs.Literals
import Backtrack.Proofs.Membership
import Backtrack.Proofs.Scanning
import Backtrack.Proofs.Utf8
import Backtrack.Proofs.Figures
import Backtrack.Proofs.IntegerScan
import Backtrack.Proofs.IntegerRoundTrip
import Backtrack.Proofs.QuotedScan
import Backtrack.Proofs.QuotedEncoding
import Backtrack.Proofs.Lookahead
import Backtrack.Proofs.Reporting
import Backtrack.Proofs.Upshots
import Backtrack.Proofs.Alternation
import Backtrack.Proofs.Equations
import Backtrack.Proofs.Unfolding
import Backtrack.Proofs.RealScan
import Backtrack.Proofs.Rounding
import Backtrack.Proofs.RealValues
import Backtrack.Proofs.RawQuoted
import Backtrack.Proofs.Words
import Backtrack.Visits
import Backtrack.Parser.Bare
import Backtrack.Proofs.Traces
import Backtrack.Proofs.Transparency
import Backtrack.Proofs.TraceSpans
import Backtrack.Proofs.Locations
import Backtrack.Proofs.NestedPairs
