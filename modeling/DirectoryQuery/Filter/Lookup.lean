/-!
# Lookups

The relations a condition can ask for between an attribute and its operand.  A condition keeps its
lookup as text; the text is read when the condition is compiled.
-/

namespace DirectoryQuery

/-- A relation between the values of an attribute and an operand. -/
inductive Lookup where
  | exact
  | iexact
  | contains
  | icontains
  | startsWith
  | istartsWith
  | endsWith
  | iendsWith
  | search
  | present
  | isNull
  | oneOf
  | gt
  | gte
  | lt
  | lte
deriving DecidableEq

namespace Lookup

/-- Every lookup. -/
def all : List Lookup :=
  [.exact, .iexact, .contains, .icontains, .startsWith, .istartsWith, .endsWith, .iendsWith,
   .search, .present, .isNull, .oneOf, .gt, .gte, .lt, .lte]

/-- The name of the lookup in predicate keys. -/
def name : Lookup → String
  | .exact => "exact"
  | .iexact => "iexact"
  | .contains => "contains"
  | .icontains => "icontains"
  | .startsWith => "startswith"
  | .istartsWith => "istartswith"
  | .endsWith => "endswith"
  | .iendsWith => "iendswith"
  | .search => "search"
  | .present => "present"
  | .isNull => "isnull"
  | .oneOf => "in"
  | .gt => "gt"
  | .gte => "gte"
  | .lt => "lt"
  | .lte => "lte"

/-- The lookup of this name.  Case matters. -/
def ofName? (name : String) : Option Lookup :=
  all.find? fun l => l.name == name

/-- Whether the lookup compares by order, which no directory filter can. -/
def isComparison : Lookup → Bool
  | .gt | .gte | .lt | .lte => true
  | _ => false

theorem mem_all (l : Lookup) : l ∈ all := by
  cases l <;> decide

theorem ofName?_name (l : Lookup) : ofName? l.name = some l := by
  cases l <;> decide

theorem name_of_ofName? {name : String} {l : Lookup} (h : ofName? name = some l) :
    l.name = name := by
  simpa using List.find?_some h

end Lookup

end DirectoryQuery
