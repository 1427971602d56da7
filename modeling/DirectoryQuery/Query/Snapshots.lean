import DirectoryQuery.Entry.Basic

/-!
# Snapshots

The complete results that query instances have kept, by the identity of the instance.  A result is
kept once and for all.
-/

namespace DirectoryQuery

/-- The results that were kept. -/
structure Snapshots where
  kept : List (Nat × List Entry)

namespace Snapshots

/-- No results. -/
def empty : Snapshots :=
  ⟨[]⟩

/-- The result that an instance has kept. -/
def get? (s : Snapshots) (id : Nat) : Option (List Entry) :=
  (s.kept.find? fun p => p.1 == id).map (·.2)

/-- Keeps a result for an instance that has kept none. -/
def keep (s : Snapshots) (id : Nat) (entries : List Entry) : Snapshots :=
  match s.get? id with
  | some _ => s
  | none => ⟨(id, entries) :: s.kept⟩

@[simp] theorem get?_empty (id : Nat) : empty.get? id = none := rfl

theorem get?_keep (s : Snapshots) (id other : Nat) (entries : List Entry) :
    (s.keep id entries).get? other =
      if other = id then some ((s.get? id).getD entries) else s.get? other := by
  by_cases h : other = id
  · subst h
    cases hs : s.get? other with
    | some found => simp [keep, hs]
    | none =>
      simp only [keep, hs]
      simp [get?]
  · cases hs : s.get? id with
    | some found => simp [keep, hs, h]
    | none =>
      simp only [keep, hs, if_neg h]
      simp [get?, Ne.symm h]

end Snapshots

end DirectoryQuery
