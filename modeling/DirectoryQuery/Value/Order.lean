import DirectoryQuery.Value.Basic
import DirectoryQuery.Text.Blank
import DirectoryQuery.Text.Decimal
import DirectoryQuery.Text.Lowercase

/-!
# Comparing values

Four comparisons, each with its use:

* `Value.compare` is the plain order, first by kind and then by content; sets of values use it;
* `Value.looseCompare` compares values of one kind, and integers with numeric text, and leaves all
  other pairs without an order; ordering conditions use it;
* `Value.totalCompare` puts numbers and numeric text first, by number, and breaks ties and orders
  the rest by the plain order; sorting and extrema use it;
* `Value.matchesIgnoringCase` is the equality of conditions: text without regard to case, and
  integers against numeric text by number.

Numeric text is text that reads as a 64-bit integer once trimmed.
-/

namespace DirectoryQuery.Value

/-- The place of a value's kind among the kinds. -/
def rank : Value → Nat
  | .bool _ => 0
  | .int _ => 1
  | .text _ => 2
  | .bytes _ => 3

/-- The plain order: by kind, then by content. -/
def compare (a b : Value) : Ordering :=
  match a, b with
  | .bool a, .bool b => Ord.compare a b
  | .int a, .int b => Ord.compare a b
  | .text a, .text b => Ord.compare a b
  | .bytes a, .bytes b => Ord.compare a b
  | a, b => Ord.compare a.rank b.rank

/-- The integer that a text reads as, blanks at its ends aside. -/
def numericText? (s : String) : Option Int64 :=
  Text.readInt64? (Text.trimChars s.toList)

/-- The number of an integer or of numeric text. -/
def number? : Value → Option Int64
  | .int n => some n
  | .text s => numericText? s
  | _ => none

/-- The order of two values of one kind, or of an integer and numeric text. -/
def looseCompare (a b : Value) : Option Ordering :=
  match a, b with
  | .int a, .text b => (numericText? b).map fun b => Ord.compare a b
  | .text a, .int b => (numericText? a).map fun a => Ord.compare a b
  | .bool a, .bool b => some (Ord.compare a b)
  | .int a, .int b => some (Ord.compare a b)
  | .text a, .text b => some (Ord.compare a b)
  | .bytes a, .bytes b => some (Ord.compare a b)
  | _, _ => none

/-- Equality that takes an integer and numeric text by number, and bytes as what they store. -/
def looseEq (a b : Value) : Bool :=
  match a, b with
  | .text _, .int _ | .int _, .text _ => a.looseCompare b == some .eq
  | .bytes a, b => a == b.toBytes
  | a, .bytes b => b == a.toBytes
  | a, b => a == b

/-- A total order in which numbers and numeric text come first, by number. -/
def totalCompare (a b : Value) : Ordering :=
  match a.number?, b.number? with
  | some m, some n => (Ord.compare m n).then (a.compare b)
  | some _, none => .lt
  | none, some _ => .gt
  | none, none => a.compare b

/-- The text of a value in lower case. -/
def folded (v : Value) : List Char :=
  Text.lowerChars v.toText.toList

/-- Equality by a directory's matching rules. -/
def matchesIgnoringCase (a b : Value) : Bool :=
  match a, b with
  | .text _, .int _ | .int _, .text _ => a.looseEq b
  | _, _ => a.folded == b.folded

/-- The value that is greatest in the total order. -/
def greatest? (values : List Value) : Option Value :=
  values.foldl (fun best v =>
    match best with
    | none => some v
    | some b => if b.totalCompare v = .gt then some b else some v) none

/-- The value that is least in the total order. -/
def least? (values : List Value) : Option Value :=
  values.foldl (fun best v =>
    match best with
    | none => some v
    | some b => if b.totalCompare v = .gt then some v else some b) none

@[simp] theorem greatest?_nil : greatest? [] = none := rfl

@[simp] theorem least?_nil : least? [] = none := rfl

end DirectoryQuery.Value
