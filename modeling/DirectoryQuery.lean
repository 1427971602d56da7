import DirectoryQuery.Directory.Json
import DirectoryQuery.Entry.Json
import DirectoryQuery.Filter.Json
import DirectoryQuery.Workbench.Run
import DirectoryQuery.Proofs.Filter.Induction
import DirectoryQuery.Proofs.SearchFilter.Reading
import DirectoryQuery.Proofs.SearchFilter.RoundTrip
import DirectoryQuery.Proofs.Filter.Agreement
import DirectoryQuery.Proofs.Directory.Paging
import DirectoryQuery.Proofs.Directory.Pages
import DirectoryQuery.Proofs.Pool.Custody
import DirectoryQuery.Proofs.Pool.Desk
import DirectoryQuery.Proofs.Pool.Conservation
import DirectoryQuery.Proofs.Query.Step
import DirectoryQuery.Proofs.Query.Budget
import DirectoryQuery.Proofs.Query.Custody
import DirectoryQuery.Proofs.Query.Readers
import DirectoryQuery.Proofs.Query.Keeping
import DirectoryQuery.Proofs.Query.Chronicle
import DirectoryQuery.Proofs.Query.KeptResult
import DirectoryQuery.Proofs.DistinguishedName
import DirectoryQuery.Proofs.SortedMap
import DirectoryQuery.Proofs.Entry.Lookup
import DirectoryQuery.Proofs.Entry.Identity
import DirectoryQuery.Proofs.Entry.Edits
import DirectoryQuery.Proofs.Filter.Split
import DirectoryQuery.Proofs.Filter.Json
import DirectoryQuery.Proofs.Filter.Keys
import DirectoryQuery.Proofs.Query.Delivery
import DirectoryQuery.Proofs.Query.Search
import DirectoryQuery.Proofs.Query.Pushdown
import DirectoryQuery.Proofs.Query.Sorting
import DirectoryQuery.Proofs.Query.Comparison
import DirectoryQuery.Proofs.Query.Annotation
import DirectoryQuery.Proofs.Query.Commuting
import DirectoryQuery.Proofs.Query.Filing
import DirectoryQuery.Proofs.Query.Collection
import DirectoryQuery.Proofs.DistinguishedName.Hierarchy
import DirectoryQuery.Proofs.Query.Derivation
import DirectoryQuery.Proofs.Query.Chain
import DirectoryQuery.Proofs.Query.Freshness
import DirectoryQuery.Proofs.Query.Health
import DirectoryQuery.Proofs.Query.Turns
import DirectoryQuery.Proofs.Query.Cursor
import DirectoryQuery.Proofs.Query.CleanUp
import DirectoryQuery.Proofs.Filter.Factors
import DirectoryQuery.Proofs.SearchFilter.Grammar
import DirectoryQuery.Proofs.SearchFilter.Attributes
import DirectoryQuery.Proofs.Filter.Integers
import DirectoryQuery.Proofs.Pool.Strays
import DirectoryQuery.Proofs.Query.Strays
import DirectoryQuery.Proofs.Query.IdleSessions
import DirectoryQuery.Proofs.Query.Writing
import DirectoryQuery.Proofs.Query.Faults
import DirectoryQuery.Proofs.Query.Validation
import DirectoryQuery.Proofs.Query.Readiness
import DirectoryQuery.Proofs.Query.Outcome
import DirectoryQuery.Proofs.Query.Progress
import DirectoryQuery.Proofs.Query.Evaluation
import DirectoryQuery.Proofs.Query.Steadiness
import DirectoryQuery.Proofs.Query.Failures
import DirectoryQuery.Proofs.Query.Numbering
import DirectoryQuery.Proofs.Query.Agreement
import DirectoryQuery.Proofs.Query.Ordering
import DirectoryQuery.Proofs.SearchFilter.Patterns
import DirectoryQuery.Proofs.Text.Lowercase.Context
import DirectoryQuery.Proofs.Text.Lowercase.AsciiCase
import DirectoryQuery.Proofs.DistinguishedName.Case
import DirectoryQuery.Proofs.Filter.Choices
import DirectoryQuery.Proofs.Filter.Pieces
import DirectoryQuery.Proofs.Filter.Pins
import DirectoryQuery.Proofs.Query.Distinct
import DirectoryQuery.Proofs.Pool.Acquisition
import DirectoryQuery.Proofs.Pool.Scopes
import DirectoryQuery.Proofs.Query.Windows
import DirectoryQuery.Proofs.Query.Renumbering
import DirectoryQuery.Proofs.Query.Deduplication
import DirectoryQuery.Proofs.Query.Aggregation
import DirectoryQuery.Proofs.Filter.Algebra
import DirectoryQuery.Proofs.Entry.Json
import DirectoryQuery.Proofs.Directory.Entries
