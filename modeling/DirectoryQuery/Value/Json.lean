import DirectoryQuery.Json
import DirectoryQuery.Operand

/-!
# Values as JSON

Neither values nor operands carry a tag: a value is written as the JSON value of the same kind,
bytes as a list of numbers, and a list of values as a list.  Reading tries the kinds in a fixed
order, so a list of numbers below 256 reads as bytes, also where an operand is expected.
-/

namespace DirectoryQuery

namespace Value

/-- The JSON form of bytes. -/
def bytesToJson (b : List UInt8) : Json :=
  .list (b.map fun x => .integer x.toNat)

/-- The JSON form of a value. -/
def toJson : Value → Json
  | .bool b => .bool b
  | .int n => .integer n.toInt
  | .text s => .text s
  | .bytes b => bytesToJson b

/-- Reads one byte. -/
def byteOfJson? : Json → Option UInt8
  | .integer n => if 0 ≤ n ∧ n ≤ 255 then some (UInt8.ofNat n.toNat) else none
  | _ => none

/-- Reads an integer of 64 bits. -/
def int64OfJson? : Json → Option Int64
  | .integer n =>
    if Int64.minValue.toInt ≤ n ∧ n ≤ Int64.maxValue.toInt then some (Int64.ofInt n) else none
  | _ => none

/-- Reads a value. -/
def ofJson? : Json → Option Value
  | .bool b => some (.bool b)
  | .integer n => (int64OfJson? (.integer n)).map .int
  | .text s => some (.text s)
  | .list items => (items.mapM byteOfJson?).map .bytes
  | _ => none

/-- The JSON form of a list of values. -/
def listToJson (vs : List Value) : Json :=
  .list (vs.map toJson)

/-- Reads a list of values. -/
def listOfJson? : Json → Option (List Value)
  | .list items => items.mapM ofJson?
  | _ => none

end Value

namespace Operand

/-- The JSON form of an operand. -/
def toJson : Operand → Json
  | .one v => v.toJson
  | .many vs => Value.listToJson vs

/-- Reads an operand: a value if it is one, and otherwise a list of values. -/
def ofJson? (j : Json) : Option Operand :=
  match Value.ofJson? j with
  | some v => some (.one v)
  | none => (Value.listOfJson? j).map .many

end Operand

end DirectoryQuery
