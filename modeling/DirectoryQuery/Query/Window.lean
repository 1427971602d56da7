import DirectoryQuery.Query.Error
import DirectoryQuery.Text.Decimal

/-!
# Windows

A window selects positions of a sequence: from a lower bound on, every so many, below an upper
bound if there is one.
-/

namespace DirectoryQuery

/-- Positions from `low` on, `step` apart, below `high` if given. -/
structure Window where
  low : Nat
  high : Option Nat
  step : Nat
deriving DecidableEq

namespace Window

/-- Reads a bound of a window. -/
def bound (n : Int) : Except QueryError Nat :=
  if n < 0 then .error (.negativeBound n) else .ok n.toNat

/-- The window with these bounds and this step.  The lower bound is checked first and the step
last. -/
def ofBounds (low : Int) (high : Option Int) (step : Int) : Except QueryError Window := do
  let low ← bound low
  let high ← high.mapM bound
  if step ≤ 0 then throw (.nonPositiveStep step)
  else pure ⟨low, high, step.toNat⟩

/-- The window on a single position.  The last position of all has none behind it and no room. -/
def single (index : Nat) : Window :=
  ⟨index, some (min (index + 1) Text.maxSize), 1⟩

/-- Whether the window selects a position, its upper bound aside. -/
def selects (w : Window) (position : Nat) : Bool :=
  w.low ≤ position && (position - w.low) % w.step == 0

/-- Whether a position is at the upper bound or behind it. -/
def isOver (w : Window) (position : Nat) : Bool :=
  w.high.any (· ≤ position)

/-- The window as text. -/
def text (w : Window) : String :=
  "[" ++ toString w.low ++ ":" ++ (w.high.map toString).getD "" ++ ":" ++ toString w.step ++ "]"

end Window

end DirectoryQuery
