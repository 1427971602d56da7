import DirectoryQuery.Entry.Basic
import DirectoryQuery.SortedMap
import DirectoryQuery.Text.Quoted
import DirectoryQuery.Value.Display
import DirectoryQuery.Value.Order

/-!
# Aggregations

An aggregation takes in entries one by one and has a result at any time.  Several aggregations
under names of their own take in the same entries together.
-/

namespace DirectoryQuery

/-- An aggregation and what it has taken in so far. -/
inductive Aggregation where
  /-- The number of entries. -/
  | count (n : Nat)
  /-- The greatest value of an attribute. -/
  | max (name : String) (best : Option Value)
  /-- The least value of an attribute. -/
  | min (name : String) (best : Option Value)
deriving DecidableEq

namespace Aggregation

/-- Forgets what was taken in. -/
def reset : Aggregation → Aggregation
  | .count _ => .count 0
  | .max name _ => .max name none
  | .min name _ => .min name none

/-- Takes in an entry.  An entry without the attribute changes no extremum. -/
def accumulate (a : Aggregation) (e : Entry) : Aggregation :=
  match a with
  | .count n => .count (n + 1)
  | .max name best =>
    match Value.greatest? (e.get name) with
    | some v => .max name (Value.greatest? (best.toList ++ [v]))
    | none => .max name best
  | .min name best =>
    match Value.least? (e.get name) with
    | some v => .min name (Value.least? (best.toList ++ [v]))
    | none => .min name best

/-- The result so far. -/
def result? : Aggregation → Option Value
  | .count n => some (.int (Int64.ofNat n))
  | .max _ best => best
  | .min _ best => best

end Aggregation

/-- Aggregations under distinct names. -/
structure Aggregations where
  members : List (String × Aggregation)

namespace Aggregations

/-- No aggregations. -/
def empty : Aggregations :=
  ⟨[]⟩

/-- Adds an aggregation in place of one of the same name. -/
def add (as : Aggregations) (name : String) (a : Aggregation) : Aggregations :=
  ⟨as.members.filter (fun m => m.1 != name) ++ [(name, a)]⟩

/-- Adds several aggregations in order. -/
def ofList (members : List (String × Aggregation)) : Aggregations :=
  members.foldl (fun as m => as.add m.1 m.2) empty

/-- Forgets what was taken in. -/
def reset (as : Aggregations) : Aggregations :=
  ⟨as.members.map fun m => (m.1, m.2.reset)⟩

/-- Takes in an entry. -/
def accumulate (as : Aggregations) (e : Entry) : Aggregations :=
  ⟨as.members.map fun m => (m.1, m.2.accumulate e)⟩

/-- The result under a name. -/
def result? (as : Aggregations) (name : String) : Option Value :=
  (as.members.find? fun m => m.1 == name).bind fun m => m.2.result?

/-- All results by name. -/
def results (as : Aggregations) : SortedMap (Option Value) :=
  .ofPairs (as.members.map fun m => (m.1, m.2.result?))

/-- The number of aggregations. -/
def size (as : Aggregations) : Nat :=
  as.members.length

/-- A result as it is listed. -/
def describeResult : Option Value → String
  | some v => "Some(" ++ v.describe ++ ")"
  | none => "None"

/-- The results as they are listed. -/
def describe (as : Aggregations) : String :=
  "\x7b" ++
    String.intercalate ", "
      (as.results.pairs.map fun (name, v) => Text.quoted name ++ ": " ++ describeResult v) ++
    "\x7d"

end Aggregations

end DirectoryQuery
