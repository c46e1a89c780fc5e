import RecordQuery.Builder
import RecordQuery.Casting.Registry
import RecordQuery.Casting.Rule
import RecordQuery.Error.Report
import RecordQuery.Schema.Data
import RecordQuery.Specification
import RecordQuery.Proofs.Arguments
import RecordQuery.Proofs.Calendar.Sums
import RecordQuery.Proofs.Casting.Preservation
import RecordQuery.Proofs.Casting.Together
import RecordQuery.Proofs.ColumnText
import RecordQuery.Proofs.Conjunction
import RecordQuery.Proofs.Enumerations
import RecordQuery.Proofs.Equality
import RecordQuery.Proofs.Handles
import RecordQuery.Proofs.Loading
import RecordQuery.Proofs.Refusal
import RecordQuery.Proofs.Sharing
import RecordQuery.Proofs.Printing
import RecordQuery.Proofs.Reachable
import RecordQuery.Proofs.Resolution
import RecordQuery.Proofs.LetterCase
import RecordQuery.Proofs.Membership
import RecordQuery.Proofs.Ordering
import RecordQuery.Proofs.Recovery
import RecordQuery.Proofs.Repetition
import RecordQuery.Proofs.Sorting.Execution
import RecordQuery.Proofs.Sorting.Selection
import RecordQuery.Proofs.Sql.Agreement
import RecordQuery.Proofs.Sql.Joins
import RecordQuery.Proofs.Sql.Leaves
import RecordQuery.Proofs.Stability
import RecordQuery.Proofs.Stored
import RecordQuery.Proofs.StoredText
import RecordQuery.Proofs.TextLists
import RecordQuery.Proofs.Totality
