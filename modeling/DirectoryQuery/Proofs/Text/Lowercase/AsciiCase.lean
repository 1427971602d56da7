import DirectoryQuery.Proofs.Text.Lowercase.Context
import DirectoryQuery.Text.AsciiCase

/-!
# Lower case and ASCII case

Names that differ in the case of ASCII letters only have the same lower case
(`lowercase_eq_of_sameName`).  The converse fails: full lower-casing also brings together letters
that names tell apart.  For ASCII names it holds (`sameName_iff_lowercase_eq`).
-/

namespace DirectoryQuery.Text

lemma toLower_of_not_upper {c : Char} (h : ¬ (0x41 ≤ c.toNat ∧ c.toNat ≤ 0x5A)) :
    c.toLower = c :=
  dif_neg h

lemma isCaseIgnorable_of_letter {c : Char}
    (h : (0x41 ≤ c.toNat ∧ c.toNat ≤ 0x5A) ∨ (0x61 ≤ c.toNat ∧ c.toNat ≤ 0x7A)) :
    isCaseIgnorable c = false := by
  -- the ranges of the table lie on both sides of the letters, which is quicker to see than that
  -- none of the letters is found in it
  have hapart : ∀ r ∈ caseIgnorable,
      (r.2 < 0x41 ∨ 0x5A < r.1) ∧ (r.2 < 0x61 ∨ 0x7A < r.1) := by decide +kernel
  refine eq_false_of_ne_true fun hc => ?_
  obtain ⟨r, hr, hle⟩ := CodePoints.contains_iff.1 hc
  have := hapart r hr
  omega

/-- What lower-casing sees of a character does not depend on its ASCII case. -/
lemma lowering_toLower (c : Char) :
    isCaseIgnorable c.toLower = isCaseIgnorable c ∧ isCased c.toLower = isCased c ∧
      lowerChar c.toLower = lowerChar c ∧ (c.toLower = capitalSigma ↔ c = capitalSigma) := by
  by_cases hupper : 0x41 ≤ c.toNat ∧ c.toNat ≤ 0x5A
  · have hletters : ∀ n < 0x5B, 0x41 ≤ n →
        (Char.ofNat n).toLower.toNat = n + 0x20 ∧
        isCased (Char.ofNat n).toLower = isCased (Char.ofNat n) ∧
        lowerChar (Char.ofNat n).toLower = lowerChar (Char.ofNat n) ∧
        ((Char.ofNat n).toLower = capitalSigma ↔ Char.ofNat n = capitalSigma) := by
      decide +kernel
    have hc := hletters c.toNat (by omega) hupper.1
    rw [Char.ofNat_toNat] at hc
    obtain ⟨hlower, hrest⟩ := hc
    rw [isCaseIgnorable_of_letter (.inl hupper), isCaseIgnorable_of_letter (.inr (by omega))]
    exact ⟨rfl, hrest⟩
  · rw [toLower_of_not_upper hupper]
    exact ⟨rfl, rfl, rfl, Iff.rfl⟩

lemma startsCased_map_toLower (s : List Char) :
    startsCased (s.map Char.toLower) = startsCased s := by
  induction s with
  | nil => rfl
  | cons c s ih =>
    obtain ⟨hignorable, hcased, -⟩ := lowering_toLower c
    rw [List.map_cons, startsCased_cons, startsCased_cons, hignorable, hcased, ih]

lemma lowerFrom_map_toLower (inWord : Bool) (s : List Char) :
    lowerFrom inWord (s.map Char.toLower) = lowerFrom inWord s := by
  induction s generalizing inWord with
  | nil => rfl
  | cons c s ih =>
    obtain ⟨hignorable, hcased, hlower, hsigma⟩ := lowering_toLower c
    simp only [List.map_cons, lowerFrom, hignorable, hcased, hlower, hsigma,
      startsCased_map_toLower, ih]

/-- Names that agree up to ASCII case have the same lower case. -/
theorem lowercase_eq_of_sameName {a b : String} (h : sameName a b = true) :
    lowercase a = lowercase b := by
  have hfold : a.toList.map Char.toLower = b.toList.map Char.toLower := sameName_iff.1 h
  rw [lowercase, lowercase, lowerChars, lowerChars, ← lowerFrom_map_toLower, hfold,
    lowerFrom_map_toLower]

/-- The text is all ASCII. -/
def IsAscii (s : String) : Prop :=
  ∀ c ∈ s.toList, c.toNat < 0x80

instance (s : String) : Decidable (IsAscii s) :=
  List.decidableBAll (fun c : Char => c.toNat < 0x80) s.toList

/-- ASCII names agree up to case if and only if they have the same lower case. -/
theorem sameName_iff_lowercase_eq {a b : String} (ha : IsAscii a) (hb : IsAscii b) :
    sameName a b = true ↔ lowercase a = lowercase b := by
  refine ⟨lowercase_eq_of_sameName, fun h => sameName_iff.2 ?_⟩
  have hchars : lowerChars a.toList = lowerChars b.toList := String.ofList_injective h
  rwa [lowerChars, lowerChars, lowerFrom_of_ascii false ha, lowerFrom_of_ascii false hb] at hchars

end DirectoryQuery.Text
