import DirectoryQuery.Value.Display

/-!
# Operands

The right-hand side of a condition: one value, or a list of values to choose from.
-/

namespace DirectoryQuery

/-- One value or many. -/
inductive Operand where
  | one (v : Value)
  | many (vs : List Value)
deriving DecidableEq

namespace Operand

/-- One value is truthy as that value is; a list is truthy unless it is empty. -/
def isTruthy : Operand → Bool
  | .one v => v.isTruthy
  | .many vs => !vs.isEmpty

/-- The values to choose from. -/
def values : Operand → List Value
  | .one v => [v]
  | .many vs => vs

/-- The value of an operand that is not a list. -/
def single? : Operand → Option Value
  | .one v => some v
  | .many _ => none

/-- The operand as it stands in the text of a condition. -/
def display : Operand → String
  | .one v => v.display
  | .many vs => "[" ++ String.intercalate ", " (vs.map Value.display) ++ "]"

end Operand

end DirectoryQuery
