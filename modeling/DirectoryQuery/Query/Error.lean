import DirectoryQuery.Directory.Error
import DirectoryQuery.Filter.Error

/-!
# Query errors

What can go wrong when a query is composed or evaluated.
-/

namespace DirectoryQuery

/-- An error of a query. -/
inductive QueryError where
  | filter (e : FilterError)
  | directory (e : DirectoryError)
  | negativeBound (bound : Int)
  | nonPositiveStep (step : Int)
deriving DecidableEq

namespace QueryError

/-- The text of the error. -/
def message : QueryError → String
  | .filter e => e.message
  | .directory e => e.message
  | .negativeBound bound => "slice bounds must be non-negative, got " ++ toString bound
  | .nonPositiveStep step => "slice step must be positive, got " ++ toString step

/-- The directory's error, if the error is one. -/
def directoryError? : QueryError → Option DirectoryError
  | .directory e => some e
  | _ => none

end QueryError

end DirectoryQuery
