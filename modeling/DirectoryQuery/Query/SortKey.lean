import DirectoryQuery.Entry.Basic
import DirectoryQuery.Text.Blank
import DirectoryQuery.Value.Order

/-!
# Sorting entries

Entries are sorted by a list of keys, each an attribute in ascending or descending order, the first
key that tells two entries apart deciding.  Sequences of values are compared value by value in the
total order of values; an absent attribute comes behind every other.  The sort is stable.
-/

namespace DirectoryQuery

/-- An attribute to sort by. -/
structure SortKey where
  name : String
  descending : Bool
deriving DecidableEq

/-- Compares sequences of values, a proper beginning before what it begins. -/
def compareEach : List Value → List Value → Ordering
  | [], [] => .eq
  | [], _ :: _ => .lt
  | _ :: _, [] => .gt
  | v :: vs, w :: ws => (v.totalCompare w).then (compareEach vs ws)

/-- Compares the values of an attribute.  No values come behind any. -/
def compareValues (vs ws : List Value) : Ordering :=
  match vs, ws with
  | [], [] => .eq
  | [], _ :: _ => .gt
  | _ :: _, [] => .lt
  | _, _ => compareEach vs ws

namespace SortKey

/-- Reads a key: the name of an attribute, behind a minus sign for descending order. -/
def parse? (key : String) : Option SortKey :=
  match Text.trimChars key.toList with
  | [] => none
  | ['-'] => none
  | '-' :: name => some ⟨String.ofList name, true⟩
  | name => some ⟨String.ofList name, false⟩

/-- The key as text. -/
def text (k : SortKey) : String :=
  (if k.descending then "-" else "") ++ k.name

/-- Compares entries by one key. -/
def compare (k : SortKey) (a b : Entry) : Ordering :=
  let order := compareValues (a.get k.name) (b.get k.name)
  if k.descending then order.swap else order

/-- Compares entries by several keys. -/
def compareBy : List SortKey → Entry → Entry → Ordering
  | [], _, _ => .eq
  | k :: keys, a, b => (k.compare a b).then (compareBy keys a b)

/-- Sorts entries by several keys.  Entries that no key tells apart stay in order. -/
def sort (keys : List SortKey) (entries : List Entry) : List Entry :=
  entries.mergeSort fun a b => (compareBy keys a b).isLE

end SortKey

end DirectoryQuery
