import DirectoryQuery.Entry.Basic
import DirectoryQuery.Value.Json

/-!
# Entries as JSON

An entry is an object that maps each attribute name to the list of its values.
-/

namespace DirectoryQuery.Entry

/-- The JSON form of an entry. -/
def toJson (e : Entry) : Json :=
  .object (e.toList.map fun (name, values) => (name, Value.listToJson values))

/-- Reads one attribute. -/
def attributeOfJson? (field : String × Json) : Option (String × List Value) :=
  (Value.listOfJson? field.2).map (field.1, ·)

/-- Reads an entry. -/
def ofJson? : Json → Option Entry
  | .object fields => do
    let pairs ← fields.mapM attributeOfJson?
    (ofMap (SortedMap.ofPairs pairs)).toOption
  | _ => none

end DirectoryQuery.Entry
