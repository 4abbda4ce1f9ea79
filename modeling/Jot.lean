import Jot.Main
import Jot.Pattern.Expression
import Jot.Proofs.Position
import Jot.Proofs.Conservation
import Jot.Proofs.Annotations
import Jot.Proofs.Agreement
import Jot.Proofs.Boundary
import Jot.Proofs.Errors
import Jot.Proofs.Layout
import Jot.Proofs.Nesting
import Jot.Proofs.Delimiter
import Jot.Proofs.Written.Basic
import Jot.Proofs.Written.Lexing
import Jot.Proofs.Written.Reading
import Jot.Proofs.Expression.Ends
import Jot.Proofs.Expression.Recognizers
import Jot.Proofs.Expression.Patterns
import Jot.Proofs.Truncation
import Jot.Proofs.Segmentation
import Jot.Proofs.Written.Link
import Jot.Proofs.Written.Calendar
import Jot.Proofs.Written.Date
import Jot.Proofs.Written.DatePattern
import Jot.Proofs.Written.CanonicalDate
import Jot.Proofs.Call.Level
import Jot.Proofs.Call.Scan
import Jot.Proofs.Call.Spine
import Jot.Proofs.Ownership
import Jot.Proofs.Spans
import Jot.Proofs.Written.Reaction
import Jot.Proofs.Written.Label
import Jot.Proofs.Written.Marker
import Jot.Proofs.Written.Quantity
import Jot.Proofs.Written.Event
import Jot.Proofs.Call.Argument
import Jot.Proofs.Diagnosis
import Jot.Proofs.Fallback
import Jot.Proofs.Interruption.Token
import Jot.Proofs.Interruption.Note
import Jot.Proofs.Call.Orderly
import Jot.Proofs.Formation
import Jot.Proofs.Relocation
import Jot.Proofs.WhiteSpace
import Jot.Proofs.LeadingSpace
import Jot.Proofs.Expression.Words
import Jot.Proofs.BareLabel
import Jot.Proofs.EventLabel
import Jot.Proofs.Call.Adjacency
import Jot.Proofs.Lines
import Jot.Proofs.ClosingQuote
import Jot.Proofs.Files.Path
import Jot.Proofs.Files.Selection
import Jot.Proofs.Files.Sources
