import DirectoryQuery.Filter.Basic
import DirectoryQuery.Value.Json

/-!
# Filters as JSON

A filter is an object with one field, named for its kind.  Reading is a recursion on the tree of
the JSON value.
-/

namespace DirectoryQuery

namespace Condition

/-- The JSON form of a condition. -/
def toJson (c : Condition) : Json :=
  .object
    [("field", .text c.field),
     ("lookup", match c.lookup with
      | some lookup => .text lookup
      | none => .null),
     ("value", c.operand.toJson)]

/-- Reads the name of a lookup, which may be null or left out. -/
def lookupOfJson? : Option Json → Option (Option String)
  | none => some none
  | some .null => some none
  | some (.text s) => some (some s)
  | some _ => none

/-- Reads a condition. -/
def ofJson? (j : Json) : Option Condition := do
  match ← j.fieldsOf? ["field", "lookup", "value"] with
  | [field, lookup, value] =>
    let field ← (← field).text?
    let lookup ← lookupOfJson? lookup
    let operand ← Operand.ofJson? (← value)
    some ⟨field, lookup, operand⟩
  | _ => none

end Condition

namespace Filter

mutual

/-- The JSON form of a filter. -/
def toJson : Filter → Json
  | .leaf c => .object [("expr", c.toJson)]
  | .all parts => .object [("and", .list (toJsonEach parts))]
  | .any parts => .object [("or", .list (toJsonEach parts))]
  | .not part => .object [("not", part.toJson)]

/-- The JSON forms of several filters. -/
def toJsonEach : List Filter → List Json
  | [] => []
  | f :: rest => f.toJson :: toJsonEach rest

end

mutual

/-- Reads a filter. -/
def ofJson? : Json → Option Filter
  | .object [(kind, body)] =>
    if kind = "expr" then (Condition.ofJson? body).map .leaf
    else if kind = "and" then (ofJsonList? body).map .all
    else if kind = "or" then (ofJsonList? body).map .any
    else if kind = "not" then (ofJson? body).map .not
    else none
  | _ => none

/-- Reads a list of filters. -/
def ofJsonList? : Json → Option (List Filter)
  | .list items => ofJsonEach? items
  | _ => none

/-- Reads several filters. -/
def ofJsonEach? : List Json → Option (List Filter)
  | [] => some []
  | j :: rest => do
    let f ← ofJson? j
    let fs ← ofJsonEach? rest
    some (f :: fs)

end

end Filter

end DirectoryQuery
