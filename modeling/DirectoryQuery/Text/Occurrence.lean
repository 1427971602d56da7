/-!
# Pieces of a text

Whether one sequence begins, ends or occurs in another, and what follows its first occurrence.
-/

namespace DirectoryQuery.Text

variable {α : Type} [BEq α]

/-- What follows `piece` when the sequence begins with it. -/
def dropPiece? : List α → List α → Option (List α)
  | [], s => some s
  | _ :: _, [] => none
  | p :: piece, c :: s => if p == c then dropPiece? piece s else none

/-- What follows the first occurrence of `piece`. -/
def afterFirst? (piece : List α) : List α → Option (List α)
  | [] => dropPiece? piece []
  | c :: s =>
    match dropPiece? piece (c :: s) with
    | some rest => some rest
    | none => afterFirst? piece s

/-- Whether `piece` occurs in the sequence. -/
def hasPiece (piece s : List α) : Bool :=
  (afterFirst? piece s).isSome

/-- Whether the sequence begins with `piece`. -/
def beginsWith (piece s : List α) : Bool :=
  (dropPiece? piece s).isSome

/-- Whether the sequence ends with `piece`. -/
def endsWith (piece s : List α) : Bool :=
  beginsWith piece.reverse s.reverse

theorem dropPiece?_eq_some_iff [LawfulBEq α] {piece s rest : List α} :
    dropPiece? piece s = some rest ↔ s = piece ++ rest := by
  induction piece generalizing s with
  | nil => simp [dropPiece?, eq_comm]
  | cons p piece ih =>
    cases s with
    | nil => simp [dropPiece?]
    | cons c s =>
      by_cases h : p = c
      · simp [dropPiece?, h, ih]
      · simp [dropPiece?, h, Ne.symm h]

theorem beginsWith_iff [LawfulBEq α] {piece s : List α} :
    beginsWith piece s = true ↔ piece <+: s := by
  simp only [beginsWith, Option.isSome_iff_exists, dropPiece?_eq_some_iff]
  exact ⟨fun ⟨t, ht⟩ => ⟨t, ht.symm⟩, fun ⟨t, ht⟩ => ⟨t, ht.symm⟩⟩

theorem endsWith_iff [LawfulBEq α] {piece s : List α} :
    endsWith piece s = true ↔ piece <:+ s := by
  rw [endsWith, beginsWith_iff, List.reverse_prefix]

/-- What the first occurrence of a piece leaves is what some occurrence leaves. -/
theorem exists_of_afterFirst? [LawfulBEq α] {piece s rest : List α}
    (h : afterFirst? piece s = some rest) : ∃ gap, s = gap ++ (piece ++ rest) := by
  induction s with
  | nil =>
    have hdrop := dropPiece?_eq_some_iff.1 h
    exact ⟨[], hdrop⟩
  | cons c s ih =>
    rw [afterFirst?] at h
    split at h
    · rename_i hfirst
      cases h
      have hdrop := dropPiece?_eq_some_iff.1 hfirst
      exact ⟨[], hdrop⟩
    · obtain ⟨gap, rfl⟩ := ih h
      exact ⟨c :: gap, rfl⟩

/-- The first occurrence of a piece leaves all that any other one leaves. -/
theorem exists_afterFirst? [LawfulBEq α] (gap piece behind : List α) :
    ∃ rest, afterFirst? piece (gap ++ (piece ++ behind)) = some rest ∧ behind <:+ rest := by
  have hdrop : dropPiece? piece (piece ++ behind) = some behind := dropPiece?_eq_some_iff.2 rfl
  induction gap with
  | nil =>
    refine ⟨behind, ?_, List.suffix_refl behind⟩
    rw [List.nil_append]
    cases hs : piece ++ behind with
    | nil => rw [afterFirst?, ← hs, hdrop]
    | cons c s => rw [afterFirst?, ← hs, hdrop]
  | cons c gap ih =>
    rw [List.cons_append, afterFirst?]
    split
    · -- it begins with the piece, so what is left ends in what stands behind the piece there
      rename_i rest hfirst
      refine ⟨rest, rfl, ?_⟩
      have heq := dropPiece?_eq_some_iff.1 hfirst
      have hlong : behind <:+ piece ++ rest := by
        rw [← heq, ← List.cons_append, ← List.append_assoc]
        exact List.suffix_append _ _
      have hlen := congrArg List.length heq
      simp only [List.length_cons, List.length_append] at hlen
      exact List.suffix_of_suffix_length_le hlong (List.suffix_append piece rest) (by omega)
    · exact ih

theorem hasPiece_iff [LawfulBEq α] {piece s : List α} : hasPiece piece s = true ↔ piece <:+: s := by
  rw [hasPiece, Option.isSome_iff_exists]
  constructor
  · rintro ⟨rest, h⟩
    obtain ⟨gap, rfl⟩ := exists_of_afterFirst? h
    exact ⟨gap, rest, List.append_assoc gap piece rest⟩
  · rintro ⟨gap, behind, rfl⟩
    obtain ⟨rest, h, -⟩ := exists_afterFirst? gap piece behind
    exact ⟨rest, List.append_assoc gap piece behind ▸ h⟩

end DirectoryQuery.Text
