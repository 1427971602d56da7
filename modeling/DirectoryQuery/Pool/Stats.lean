import DirectoryQuery.Json
import DirectoryQuery.Text.Decimal

/-!
# Pool statistics

What a pool has done so far.  The counters never decrease; the number of idle sessions is that of
the moment.
-/

namespace DirectoryQuery

/-- The counters of a pool and the number of its idle sessions. -/
structure PoolStats where
  /-- Sessions that the pool bound. -/
  created : Nat
  /-- Requests that an idle session served. -/
  reused : Nat
  /-- Sessions that came back and were kept. -/
  released : Nat
  /-- Sessions that were discarded after a failure. -/
  evicted : Nat
  /-- Sessions that were closed for any reason. -/
  closed : Nat
  idle : Nat
deriving DecidableEq

namespace PoolStats

/-- The numbers in order. -/
def toList (s : PoolStats) : List Nat :=
  [s.created, s.reused, s.released, s.evicted, s.closed, s.idle]

/-- The names of the numbers in order. -/
def names : List String :=
  ["created", "reused", "released", "evicted", "closed", "idle"]

/-- The JSON form of the statistics. -/
def toJson (s : PoolStats) : Json :=
  .object (names.zip (s.toList.map fun n => Json.integer (n : Nat)))

/-- Reads statistics.  None of the numbers may be left out. -/
def ofJson? (j : Json) : Option PoolStats := do
  let fields ← j.fieldsOf? names
  match ← fields.mapM fun field => field.bind (Json.nat? Text.maxSize) with
  | [created, reused, released, evicted, closed, idle] =>
    some ⟨created, reused, released, evicted, closed, idle⟩
  | _ => none

/-- The statistics as they are listed. -/
def describe (s : PoolStats) : String :=
  "PoolStats \x7b " ++
    String.intercalate ", "
      ((names.zip s.toList).map fun (name, n) => name ++ ": " ++ toString n) ++
    " \x7d"

end PoolStats

end DirectoryQuery
