import RecordSearch.Main
import RecordSearch.Proofs.Accounting
import RecordSearch.Proofs.Agreement
import RecordSearch.Proofs.Blame
import RecordSearch.Proofs.Confinement
import RecordSearch.Proofs.Failure
import RecordSearch.Proofs.Spelled
import RecordSearch.Proofs.Positions
import RecordSearch.Proofs.Prepared
import RecordSearch.Proofs.Shift
import RecordSearch.Proofs.Planned
import RecordSearch.Proofs.KeyText
import RecordSearch.Proofs.SortName
import RecordSearch.Proofs.Stopping
import RecordSearch.Proofs.Renumbering
import RecordSearch.Proofs.Operations
import RecordSearch.Proofs.Runs
import RecordSearch.Proofs.Doubling
import RecordSearch.Proofs.Limits
import RecordSearch.Proofs.Written
import RecordSearch.Proofs.Qualifier
import RecordSearch.Proofs.Scope
import RecordSearch.Proofs.Operands
import RecordSearch.Proofs.Slots
import RecordSearch.Proofs.Assignment
import RecordSearch.Proofs.Numeral
import RecordSearch.Proofs.Schema
import RecordSearch.Proofs.Respelling
import RecordSearch.Proofs.Printed
import RecordSearch.Proofs.RoundTrip
import RecordSearch.Proofs.Subtree
import RecordSearch.Proofs.Marking
import RecordSearch.Proofs.Substituted
import RecordSearch.Proofs.Leaves
import RecordSearch.Proofs.Like
import RecordSearch.Proofs.Patterns
