import DirectoryQuery.DistinguishedName

/-!
# Search scopes

How far below its base a search looks.
-/

namespace DirectoryQuery

/-- The breadth of a search. -/
inductive Scope where
  /-- The base and everything below it. -/
  | subtree
  /-- The entries one level below the base. -/
  | singleLevel
  /-- The base itself. -/
  | singleEntry
deriving DecidableEq

namespace Scope

/-- Whether a search at `base` can return the entry of this name. -/
def covers (scope : Scope) (base name : String) : Bool :=
  match scope with
  | .subtree => DistinguishedName.isWithin name base
  | .singleLevel => DistinguishedName.isChild name base
  | .singleEntry => DistinguishedName.same name base

/-- The name of the scope. -/
def name : Scope → String
  | .subtree => "subtree"
  | .singleLevel => "single_level"
  | .singleEntry => "single_entry"

/-- The scopes by name. -/
def choices : List (String × Scope) :=
  [.subtree, .singleLevel, .singleEntry].map fun scope => (scope.name, scope)

end Scope

end DirectoryQuery
