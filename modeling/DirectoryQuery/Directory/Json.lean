import DirectoryQuery.Directory.Search
import DirectoryQuery.Json

/-!
# Searches as JSON

A search is an object with a field for each of its parts, none of which may be left out.
-/

namespace DirectoryQuery.SearchRequest

/-- The JSON form of a search. -/
def toJson (r : SearchRequest) : Json :=
  .object
    [("base", .text r.base),
     ("filter", .text r.filter),
     ("scope", .text r.scope.name),
     ("page_size", .integer r.pageSize)]

/-- Reads a search. -/
def ofJson? (j : Json) : Option SearchRequest := do
  match ← j.fieldsOf? ["base", "filter", "scope", "page_size"] with
  | [base, filter, scope, pageSize] =>
    let base ← (← base).text?
    let filter ← (← filter).text?
    let scope ← (← scope).choice? Scope.choices
    let pageSize ← (← pageSize).nat? Text.maxSize
    some ⟨base, filter, scope, pageSize⟩
  | _ => none

end DirectoryQuery.SearchRequest
