import DirectoryQuery.SearchFilter.Basic
import Mathlib.Tactic.Lemma

/-!
# Patterns and the texts they fit

A pattern is matched from the left, and every piece is taken where it first occurs.  Nothing is
lost by that: a text matches exactly when it can be cut into the pieces and gaps between them in
some way (`Pattern.holds_iff_fits`).  What the first occurrence of a piece leaves ends in what any
other one leaves, so whatever can follow the piece elsewhere can follow it there, behind a longer
gap.  Pieces never overlap, as each is looked for in what the one before it has left.
-/

namespace DirectoryQuery

namespace Pattern

variable {p : Pattern} {pieces : List (List UInt8)} {gaps : List (List Char)} {s t rest : List Char}

/-- The text that middle pieces make with a gap in front of each. -/
def filled (gaps : List (List Char)) (pieces : List (List UInt8)) : List Char :=
  (List.zipWith (fun gap piece => gap ++ foldBytes piece) gaps pieces).flatten

/-- Whether a text can be cut into the pieces of the pattern and gaps around those in the middle.  A
piece that is absent is empty. -/
def Fits (p : Pattern) (s : List Char) : Prop :=
  ∃ gaps last, gaps.length = p.middle.length ∧
    s = foldBytes (p.initial.getD []) ++ filled gaps p.middle ++ last ++
      foldBytes (p.final.getD [])

lemma filled_cons (gap : List Char) (gaps : List (List Char)) (piece : List UInt8)
    (pieces : List (List UInt8)) :
    filled (gap :: gaps) (piece :: pieces) = gap ++ (foldBytes piece ++ filled gaps pieces) := by
  rw [filled, List.zipWith_cons_cons, List.flatten_cons, List.append_assoc]
  rfl

/-! ## Middle pieces -/

lemma exists_of_afterMiddle? (h : afterMiddle? pieces s = some rest) :
    ∃ gaps, gaps.length = pieces.length ∧ s = filled gaps pieces ++ rest := by
  induction pieces generalizing s with
  | nil =>
    cases h
    exact ⟨[], rfl, rfl⟩
  | cons piece pieces ih =>
    rw [afterMiddle?, Option.bind_eq_some_iff] at h
    obtain ⟨behind, hfirst, hrest⟩ := h
    obtain ⟨gap, rfl⟩ := Text.exists_of_afterFirst? hfirst
    obtain ⟨gaps, hlength, rfl⟩ := ih hrest
    refine ⟨gap :: gaps, congrArg (· + 1) hlength, ?_⟩
    rw [filled_cons, List.append_assoc, List.append_assoc]

/-- However a text ends in the pieces, with gaps, and something behind them, the first occurrences
of the pieces leave that and perhaps more. -/
lemma exists_afterMiddle? (hlength : gaps.length = pieces.length)
    (h : filled gaps pieces ++ t <:+ s) :
    ∃ rest, afterMiddle? pieces s = some rest ∧ t <:+ rest := by
  induction pieces generalizing s gaps with
  | nil =>
    obtain rfl := List.length_eq_zero_iff.1 hlength
    exact ⟨s, rfl, h⟩
  | cons piece pieces ih =>
    cases gaps with
    | nil => cases hlength
    | cons gap gaps =>
      obtain ⟨before, rfl⟩ := h
      obtain ⟨behind, hfirst, hbehind⟩ :=
        Text.exists_afterFirst? (before ++ gap) (foldBytes piece) (filled gaps pieces ++ t)
      obtain ⟨rest, hrest, ht⟩ := ih (Nat.succ.inj hlength) hbehind
      refine ⟨rest, ?_, ht⟩
      have hassoc : before ++ (filled (gap :: gaps) (piece :: pieces) ++ t) =
          before ++ gap ++ (foldBytes piece ++ (filled gaps pieces ++ t)) := by
        simp only [filled_cons, List.append_assoc]
      rw [hassoc, afterMiddle?, hfirst]
      exact hrest

/-! ## Patterns -/

/-- A piece that is absent is as good as an empty one. -/
lemma holds_eq (p : Pattern) (s : List Char) :
    p.holds s = ((Text.dropPiece? (foldBytes (p.initial.getD [])) s).bind
      (afterMiddle? p.middle)).any (Text.endsWith (foldBytes (p.final.getD []))) := by
  obtain ⟨initial, middle, final⟩ := p
  rw [holds]
  dsimp only
  split
  · rename_i hbehind
    have hdropped : (Text.dropPiece? (foldBytes (initial.getD [])) s).bind (afterMiddle? middle) =
        none := by cases initial <;> exact hbehind
    rw [hdropped]
    rfl
  · rename_i rest hbehind
    have hdropped : (Text.dropPiece? (foldBytes (initial.getD [])) s).bind (afterMiddle? middle) =
        some rest := by cases initial <;> exact hbehind
    rw [hdropped]
    cases final <;> rfl

lemma holds_iff :
    p.holds s = true ↔ ∃ t rest, s = foldBytes (p.initial.getD []) ++ t ∧
      afterMiddle? p.middle t = some rest ∧ foldBytes (p.final.getD []) <:+ rest := by
  simp only [holds_eq, Option.any_eq_true, Option.bind_eq_some_iff, Text.dropPiece?_eq_some_iff,
    Text.endsWith_iff]
  constructor
  · rintro ⟨rest, ⟨t, hs, hrest⟩, h⟩
    exact ⟨t, rest, hs, hrest, h⟩
  · rintro ⟨t, rest, hs, hrest, h⟩
    exact ⟨rest, ⟨t, hs, hrest⟩, h⟩

/-- A text matches exactly when it fits. -/
theorem holds_iff_fits : p.holds s = true ↔ p.Fits s := by
  rw [holds_iff]
  constructor
  · rintro ⟨t, rest, rfl, hmiddle, last, rfl⟩
    obtain ⟨gaps, hlength, rfl⟩ := exists_of_afterMiddle? hmiddle
    exact ⟨gaps, last, hlength, by simp only [List.append_assoc]⟩
  · rintro ⟨gaps, last, hlength, rfl⟩
    obtain ⟨rest, hmiddle, hrest⟩ := exists_afterMiddle? hlength
      (List.suffix_refl (filled gaps p.middle ++ (last ++ foldBytes (p.final.getD []))))
    refine ⟨_, rest, ?_, hmiddle, (List.suffix_append last _).trans hrest⟩
    simp only [List.append_assoc]

end Pattern

/-- An entry matches a pattern exactly when some value of the attribute, folded, can be cut into the
pieces, in order and apart, with anything around those in the middle. -/
theorem SearchFilter.holds_pattern_iff (name : String) (p : Pattern) (e : Entry) :
    (SearchFilter.pattern name p).holds e = true ↔
      ∃ v ∈ e.get name, p.Fits (foldBytes v.toBytes) := by
  rw [SearchFilter.holds, List.any_eq_true]
  exact exists_congr fun v => and_congr_right fun _ => Pattern.holds_iff_fits

/-- Pieces do not share characters: `ababa` begins and ends with `aba`, and does not fit. -/
example : Pattern.holds ⟨some [0x61, 0x62, 0x61], [], some [0x61, 0x62, 0x61]⟩ "ababa".toList =
    false := by
  decide

end DirectoryQuery
