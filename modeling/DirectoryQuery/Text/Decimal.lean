/-!
# Decimal numbers

Readers for decimal numbers with bounds.  A number is an optional sign and one or more of the
digits `0` to `9`; leading zeros are fine, blanks and empty texts are not.
-/

namespace DirectoryQuery.Text

/-- The value of a sequence of digits, the most significant first. -/
def digitsValue (s : List Char) : Nat :=
  s.foldl (fun n c => 10 * n + (c.toNat - '0'.toNat)) 0

/-- Reads one or more digits. -/
def readDigits? (s : List Char) : Option Nat :=
  if s.isEmpty || !s.all Char.isDigit then none else some (digitsValue s)

/-- Reads a number that may carry a plus sign and is at most `limit`. -/
def readNat? (limit : Nat) (s : List Char) : Option Nat :=
  let digits := match s with
    | '+' :: rest => rest
    | _ => s
  (readDigits? digits).filter (· ≤ limit)

/-- Reads a number that may carry a sign and fits 64 signed bits. -/
def readInt64? (s : List Char) : Option Int64 :=
  let value : Option Int := match s with
    | '-' :: rest => (readDigits? rest).map fun n => -(n : Int)
    | '+' :: rest => (readDigits? rest).map Int.ofNat
    | _ => (readDigits? s).map Int.ofNat
  (value.filter fun n => Int64.minValue.toInt ≤ n && n ≤ Int64.maxValue.toInt).map Int64.ofInt

/-- The largest size that 64 bits hold. -/
def maxSize : Nat := UInt64.size - 1

@[simp] theorem readDigits?_nil : readDigits? [] = none := rfl

theorem readNat?_le {limit n : Nat} {s : List Char} (h : readNat? limit s = some n) :
    n ≤ limit := by
  simp only [readNat?, Option.filter_eq_some_iff] at h
  simpa using h.2

end DirectoryQuery.Text
