import DirectoryQuery.Filter.Condition

/-!
# Filter trees

Filters combine conditions by conjunction, disjunction and negation.  The combinators keep trees
flat: a conjunction takes over the parts of a conjunction on either side, a disjunction those of a
disjunction, and the negation of a negation is what was negated.  The constructors put no such
bounds on a tree.
-/

namespace DirectoryQuery

/-- A filter tree. -/
inductive Filter where
  | leaf (c : Condition)
  | all (parts : List Filter)
  | any (parts : List Filter)
  | not (part : Filter)

namespace Filter

/-- The filter that a key and an operand describe. -/
def parse (key : String) (operand : Operand) : Except FilterError Filter :=
  (Condition.parse key operand).map .leaf

/-- Conjunction, taking over the parts of a conjunction on either side. -/
def and : Filter → Filter → Filter
  | .all left, .all right => .all (left ++ right)
  | .all left, right => .all (left ++ [right])
  | left, .all right => .all (left :: right)
  | left, right => .all [left, right]

/-- Disjunction, taking over the parts of a disjunction on either side. -/
def or : Filter → Filter → Filter
  | .any left, .any right => .any (left ++ right)
  | .any left, right => .any (left ++ [right])
  | left, .any right => .any (left :: right)
  | left, right => .any [left, right]

/-- Negation, taking back a negation. -/
def negate : Filter → Filter
  | .not part => part
  | f => .not f

/-- The conjunction of all filters of a list, none for the empty list. -/
def conjunction? : List Filter → Option Filter
  | [] => none
  | f :: rest => some (rest.foldl and f)

/-- The disjunction of all filters of a list, none for the empty list. -/
def disjunction? : List Filter → Option Filter
  | [] => none
  | f :: rest => some (rest.foldl or f)

/-- Conjunction where either side may be missing. -/
def and? : Option Filter → Option Filter → Option Filter
  | some f, some g => some (f.and g)
  | some f, none => some f
  | none, g => g

/-- Combines filters and keyed conditions, the filters first.  A single part stands for itself. -/
def combine (filters : List Filter) (keyed : List (String × Operand)) :
    Except FilterError Filter := do
  let leaves ← keyed.mapM fun (key, operand) => parse key operand
  match filters ++ leaves with
  | [] => .error .noArguments
  | [f] => .ok f
  | parts => .ok (.all parts)

mutual

/-- The conditions of a filter, from left to right. -/
def conditions : Filter → List Condition
  | .leaf c => [c]
  | .all parts => conditionsOfEach parts
  | .any parts => conditionsOfEach parts
  | .not part => part.conditions

/-- The conditions of several filters, from left to right. -/
def conditionsOfEach : List Filter → List Condition
  | [] => []
  | f :: rest => f.conditions ++ conditionsOfEach rest

end

mutual

/-- The filter as text. -/
def text : Filter → String
  | .leaf c => c.text
  | .all parts => "(" ++ String.intercalate " & " (textOfEach parts) ++ ")"
  | .any parts => "(" ++ String.intercalate " | " (textOfEach parts) ++ ")"
  | .not part => "~" ++ part.text

/-- The texts of several filters. -/
def textOfEach : List Filter → List String
  | [] => []
  | f :: rest => f.text :: textOfEach rest

end

theorem conditionsOfEach_eq (fs : List Filter) : conditionsOfEach fs = fs.flatMap conditions := by
  induction fs with
  | nil => rfl
  | cons f fs ih => simp [conditionsOfEach, ih]

end Filter

end DirectoryQuery
