/-!
# Splitting at a separator

A sequence cut at every occurrence of one separating element.  There is always at least one part,
and joining the parts again gives the sequence back.
-/

namespace DirectoryQuery.Text

variable {α : Type} [BEq α]

/-- The parts between separators. -/
def splitAtEach (separator : α) : List α → List (List α)
  | [] => [[]]
  | c :: s =>
    match splitAtEach separator s with
    | [] => [[c]]
    | part :: parts => if c == separator then [] :: part :: parts else (c :: part) :: parts

/-- The part before the first separator and all that follows it, if there is one. -/
def splitAtFirst? (separator : α) : List α → Option (List α × List α)
  | [] => none
  | c :: s =>
    if c == separator then some ([], s)
    else (splitAtFirst? separator s).map fun (before, after) => (c :: before, after)

theorem splitAtEach_ne_nil (separator : α) (s : List α) : splitAtEach separator s ≠ [] := by
  cases s with
  | nil => simp [splitAtEach]
  | cons c s =>
    rw [splitAtEach]
    split
    · simp
    · split <;> simp

end DirectoryQuery.Text
