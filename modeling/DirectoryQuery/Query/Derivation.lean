import DirectoryQuery.Query.Compose
import DirectoryQuery.Query.Error

/-!
# Operations on queries

The ways in which a query is made from another one, as data.  A filter comes as it was built or with
the reason why it could not be built, and the operation then fails for that reason.
-/

namespace DirectoryQuery

/-- How a query is made from another one. -/
inductive Derivation where
  /-- The same instance. -/
  | same
  | filter (f : Except FilterError Filter)
  | exclude (f : Except FilterError Filter)
  | annotate (annotations : List (String × Annotation))
  | orderBy (keys : List String)
  | select (names : List String)
  | distinct
  | slice (low : Int) (high : Option Int) (step : Int)
  | withOptions (options : QueryOptions)

namespace Derivation

/-- Makes a query from another one. -/
def apply (how : Derivation) (q : Query) (next : Nat) : Except QueryError (Query × Nat) :=
  match how with
  | .same => .ok (q, next)
  | .filter f => (f.bind fun f => q.filter f next).mapError .filter
  | .exclude f => (f.bind fun f => q.exclude f next).mapError .filter
  | .annotate annotations => .ok (q.annotate annotations next)
  | .orderBy keys => .ok (q.orderBy keys next)
  | .select names => .ok (q.select names next)
  | .distinct => .ok (q.distinct next)
  | .slice low high step => q.slice low high step next
  | .withOptions options => .ok (q.withOptions options next)

/-- Applies operations in order. -/
def applyAll : List Derivation → Query → Nat → Except QueryError (Query × Nat)
  | [], q, next => .ok (q, next)
  | how :: rest, q, next => (how.apply q next).bind fun made => applyAll rest made.1 made.2

end Derivation

end DirectoryQuery
