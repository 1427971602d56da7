/-!
# Sets of code points

A property of characters is a list of closed ranges of code points, ascending and apart.  The
tables of this folder are values of this kind, so one lookup serves all of them.
-/

namespace DirectoryQuery.Text

/-- Closed ranges of code points. -/
abbrev CodePoints := List (Nat × Nat)

/-- Whether one of the ranges holds the character. -/
def CodePoints.contains (ranges : CodePoints) (c : Char) : Bool :=
  ranges.any fun r => r.1 ≤ c.toNat && c.toNat ≤ r.2

theorem CodePoints.contains_iff {ranges : CodePoints} {c : Char} :
    ranges.contains c = true ↔ ∃ r ∈ ranges, r.1 ≤ c.toNat ∧ c.toNat ≤ r.2 := by
  simp [CodePoints.contains]

end DirectoryQuery.Text
