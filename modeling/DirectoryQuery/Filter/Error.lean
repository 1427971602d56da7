import DirectoryQuery.Text.Quoted

/-!
# What can be wrong with a filter

The faults found while a filter is built or compiled.
-/

namespace DirectoryQuery

/-- Why a filter cannot be built or compiled. -/
inductive FilterError where
  /-- There was nothing to combine. -/
  | noArguments
  /-- The key is not an attribute name with at most one lookup behind it. -/
  | malformedKey (key : String)
  /-- The lookup is unknown, or the evaluator at hand has no form of it. -/
  | unsupportedLookup (name : String)
  /-- There is no value to choose from. -/
  | emptyIn (field : String)
  /-- A list stands where the lookup needs one value. -/
  | unexpectedList (field lookup : String)
deriving DecidableEq

/-- The text of the error. -/
def FilterError.message : FilterError → String
  | .noArguments => "no filter arguments given"
  | .malformedKey key => "malformed predicate key: " ++ Text.quoted key
  | .unsupportedLookup name => "unsupported lookup type: " ++ name
  | .emptyIn field => "at least one value required for 'in' lookup on " ++ field
  | .unexpectedList field lookup =>
    "lookup " ++ lookup ++ " on " ++ field ++ " expects a single value, got a list"

end DirectoryQuery
