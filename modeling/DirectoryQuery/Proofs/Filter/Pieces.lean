import DirectoryQuery.Proofs.Filter.Agreement
import DirectoryQuery.Proofs.Text.Lowercase.Context

/-!
# Pieces of texts

Values are looked through in lower case, and so is what is looked for.  A piece of a text is found
in it that way as long as it has the same lower case on its own: each of its capital sigmas has to
be final in the text exactly when it is final in the piece (`Text.KeepsSigmas`), and a piece without
one is always found (`Condition.finds_piece`).  For a piece at the start or at the end of a text the
converse holds too, so `ΟΔΥΣ` is not found in `ΟΔΥΣΣΕΥΣ`, which begins with it: lower-cased, the one
ends in a final sigma, and the other has none there.
-/

namespace DirectoryQuery

open Text (KeepsSigmas capitalSigma)

namespace Lookup

/-- Whether the lookup finds what has these texts before and behind it. -/
def looksBetween (lookup : Lookup) (before behind : String) : Bool :=
  match lookup with
  | .contains | .icontains | .search => true
  | .startsWith | .istartsWith => before == ""
  | .endsWith | .iendsWith => behind == ""
  | _ => false

/-- Whether the lookup looks at one place only. -/
def isAnchored : Lookup → Bool
  | .startsWith | .istartsWith | .endsWith | .iendsWith => true
  | _ => false

variable {lookup : Lookup} {before behind : String}

/-- It takes one value, and is neither a comparison nor an equality. -/
lemma kind_of_looksBetween (h : lookup.looksBetween before behind = true) :
    lookup.takesOne = true ∧ lookup.isComparison = false ∧
      (lookup == .exact || lookup == .iexact || lookup == .oneOf) = false := by
  cases lookup <;> first | decide | cases h

end Lookup

namespace Condition

variable {lookup : Lookup} {field before behind : String}

lemma folded_around (before piece behind : String) :
    (Value.text (before ++ piece ++ behind)).folded =
      Text.lowerChars (before.toList ++ (piece.toList ++ behind.toList)) := by
  rw [Value.folded, Value.toText_text, String.toList_append, String.toList_append,
    List.append_assoc]

/-- The test of a lookup for a piece, on a text that has the piece at a place where it looks. -/
lemma exists_pieceTest (h : lookup.looksBetween before behind = true) (field piece : String) :
    ∃ test, singleTest? lookup field (.text piece) = some test ∧
      (KeepsSigmas before.toList piece.toList behind.toList →
        test (.text (before ++ piece ++ behind)) = true) ∧
      (lookup.isAnchored = true → test (.text (before ++ piece ++ behind)) = true →
        KeepsSigmas before.toList piece.toList behind.toList) := by
  have hfolded := folded_around before piece behind
  cases lookup
  case contains | icontains | search =>
    have hfound (hkeeps : KeepsSigmas before.toList piece.toList behind.toList) : Text.hasPiece
        (Value.text piece).folded (Value.text (before ++ piece ++ behind)).folded = true := by
      rw [hfolded, Text.hasPiece_iff]
      exact Text.isInfix_lowerChars hkeeps
    exact ⟨_, rfl, hfound, fun hanchored => absurd hanchored (by decide)⟩
  case startsWith | istartsWith =>
    obtain rfl := beq_iff_eq.1 h
    have hiff : Text.beginsWith (Value.text piece).folded
        (Value.text ("" ++ piece ++ behind)).folded = true ↔
          KeepsSigmas [] piece.toList behind.toList := by
      rw [hfolded, Text.beginsWith_iff]
      exact Text.isPrefix_lowerChars_iff
    exact ⟨_, rfl, hiff.2, fun _ => hiff.1⟩
  case endsWith | iendsWith =>
    obtain rfl := beq_iff_eq.1 h
    have hiff : Text.endsWith (Value.text piece).folded
        (Value.text (before ++ piece ++ "")).folded = true ↔
          KeepsSigmas before.toList piece.toList [] := by
      rw [hfolded, Text.endsWith_iff, String.toList_empty, List.append_nil]
      exact Text.isSuffix_lowerChars_iff
    exact ⟨_, rfl, hiff.2, fun _ => hiff.1⟩
  all_goals cases h

/-- Asks whether an attribute holds a piece of text. -/
def holdsPiece (lookup : Lookup) (field piece : String) : Condition :=
  ⟨field, some lookup.name, .one (.text piece)⟩

lemma lookupKind_holdsPiece (lookup : Lookup) (field piece : String) :
    (holdsPiece lookup field piece).lookupKind = .ok lookup :=
  lookupKind_eq_ok_iff.2 (Lookup.ofName?_name lookup)

/-- A piece of a text is found in the text, compiled and by a directory, if the capital sigmas of
the piece are final on its own as in the text.  Without capital sigmas they are, and at the start
and at the end of a text no other piece is found. -/
theorem finds_piece (hname : IsPlainName field) (hid : isIdentity field = false)
    (hclass : Text.sameName field classAttribute = false)
    (hlookup : lookup.looksBetween before behind = true) (piece : String) :
    ∃ (test : Entry → Bool) (sf : SearchFilter),
      (holdsPiece lookup field piece).compile = .ok test ∧
      (∃ text, (holdsPiece lookup field piece).render = .ok text ∧
        SearchFilter.parse text = .ok sf) ∧
      (∀ e, sf.holds e = test e) ∧
      (KeepsSigmas before.toList piece.toList behind.toList →
        ∀ e, .text (before ++ piece ++ behind) ∈ e.get field → test e = true) ∧
      (capitalSigma ∉ piece.toList → KeepsSigmas before.toList piece.toList behind.toList) ∧
      (lookup.isAnchored = true → ∀ e, e.get field = [.text (before ++ piece ++ behind)] →
        (test e = true ↔ KeepsSigmas before.toList piece.toList behind.toList)) := by
  obtain ⟨hone, hcompare, hequality⟩ := Lookup.kind_of_looksBetween hlookup
  obtain ⟨test, htest, hfound, hkeeps⟩ := exists_pieceTest hlookup field piece
  have hkind := lookupKind_holdsPiece lookup field piece
  have hofName := lookupKind_eq_ok_iff.1 hkind
  have hcompile : (holdsPiece lookup field piece).compile = .ok (someValue field test) := by
    rw [compile_of_takesOne hkind hone]
    simp only [holdsPiece, Operand.single?, htest]
  have hcompare' : (holdsPiece lookup field piece).isComparison = false := by
    rw [isComparison, hofName]
    exact hcompare
  have hunmixed (e : Entry) : (holdsPiece lookup field piece).IsUnmixed e := by
    intro h
    rw [isEquality, hofName] at h
    exact absurd h (ne_true_of_eq_false hequality)
  refine ⟨_, _, hcompile, exists_parse hname hcompare' hcompile,
    fun e => holds_asked hclass hid hcompare' (hunmixed e) hcompile, fun hk e hmem => ?_,
    Text.keepsSigmas_of_not_mem, fun hanchored e hget => ?_⟩
  · exact List.any_eq_true.2 ⟨_, hmem, hfound hk⟩
  · rw [someValue, hget, List.any_cons, List.any_nil, Bool.or_false]
    exact ⟨hkeeps hanchored, hfound⟩

/-- A name stands before a blank, so its last sigma is final on its own as in the text. -/
theorem finds_piece_before_blank :
    ∃ sf, SearchFilter.parse "(cn=ΟΔΥΣΣΕΥΣ*)" = .ok sf ∧
      sf.holds ((Entry.named "uid=x").insert "cn" [.text "ΟΔΥΣΣΕΥΣ ΛΑΕΡΤΙΑΔΗΣ"]) = true := by
  obtain ⟨test, sf, -, ⟨text, hrender, hparse⟩, hholds, hfound, -⟩ :=
    @finds_piece .startsWith "cn" "" " ΛΑΕΡΤΙΑΔΗΣ" (by decide) (by decide) (by decide) (by decide)
      "ΟΔΥΣΣΕΥΣ"
  have hwritten : (holdsPiece .startsWith "cn" "ΟΔΥΣΣΕΥΣ").render = .ok "(cn=ΟΔΥΣΣΕΥΣ*)" := by
    decide
  rw [hwritten] at hrender
  cases hrender
  refine ⟨sf, hparse, ?_⟩
  rw [hholds]
  exact hfound (by decide +kernel) _ (by decide)

/-- A sigma that is final in a piece and not in the text keeps the piece from being found, compiled
and by a directory. -/
theorem not_finds_piece_of_final_sigma :
    ∃ test sf, (holdsPiece .contains "cn" "ΟΔΥΣ").compile = .ok test ∧
      (holdsPiece .contains "cn" "ΟΔΥΣ").render = .ok "(cn=*ΟΔΥΣ*)" ∧
      SearchFilter.parse "(cn=*ΟΔΥΣ*)" = .ok sf ∧
      test ((Entry.named "uid=x").insert "cn" [.text ("ΟΔΥΣ" ++ "ΣΕΥΣ")]) = false ∧
      sf.holds ((Entry.named "uid=x").insert "cn" [.text ("ΟΔΥΣ" ++ "ΣΕΥΣ")]) = false := by
  have hrender : (holdsPiece .contains "cn" "ΟΔΥΣ").render = .ok "(cn=*ΟΔΥΣ*)" := by
    decide
  have hread := SearchFilter.parse_of_readsAs (readsAs_render_condition (by decide) hrender)
  refine ⟨_, _, rfl, hrender, hread, ?_, ?_⟩
  · decide +kernel
  · decide +kernel

end Condition

end DirectoryQuery
