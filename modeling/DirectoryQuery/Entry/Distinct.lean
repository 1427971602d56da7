import DirectoryQuery.Entry.Basic
import DirectoryQuery.Text.Lowercase
import DirectoryQuery.Value.Order

/-!
# When entries count as equal

Two entries count as equal when they hold the same set of values under each name, whatever the
order and the number of the values and the case of the names.  The entry's own name and attributes
without values do not count.
-/

namespace DirectoryQuery

namespace Value

/-- Puts a value into an ascending list unless it is there already. -/
def insertInto (v : Value) : List Value → List Value
  | [] => [v]
  | w :: rest =>
    match v.compare w with
    | .lt => v :: w :: rest
    | .eq => w :: rest
    | .gt => w :: insertInto v rest

end Value

namespace Entry

/-- The sets of values by lower-case name, each set as an ascending list. -/
abbrev DistinctKey := SortedMap (List Value)

/-- Adds the values of one attribute to a key. -/
def addToKey (key : DistinctKey) (pair : String × List Value) : DistinctKey :=
  if isIdentity pair.1 || pair.2.isEmpty then key
  else
    let name := Text.lowercase pair.1
    let values := (key.get? name).getD []
    key.insert name (pair.2.foldl (fun set v => v.insertInto set) values)

/-- What decides whether entries count as equal. -/
def distinctKey (e : Entry) : DistinctKey :=
  e.toList.foldl addToKey SortedMap.empty

end Entry

end DirectoryQuery
