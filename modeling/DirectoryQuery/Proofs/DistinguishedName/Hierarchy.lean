import DirectoryQuery.Proofs.DistinguishedName

/-!
# The hierarchy of names

Containment is a partial order on names up to their components, whatever the names are.  Equality
and being a child are decided on spellings, and a spelling does not tell everything: a component
that ends in an odd number of backslashes takes in the comma behind it, and no components are
spelled like one empty one.  `DistinguishedName.hierarchy` says what holds of all names and what
holds of those whose spellings fall apart into their components (`IsSeparable`).
-/

namespace DirectoryQuery.DistinguishedName

variable {a b c : String}

/-! ## Containment -/

lemma isWithin_refl (a : String) : isWithin a a = true :=
  isWithin_iff.2 (List.suffix_refl _)

lemma isWithin_trans (h : isWithin a b = true) (k : isWithin b c = true) : isWithin a c = true :=
  isWithin_iff.2 ((isWithin_iff.1 k).trans (isWithin_iff.1 h))

/-- Names that lie within each other have the same components. -/
lemma isWithin_antisymm_iff :
    isWithin a b = true ∧ isWithin b a = true ↔ components a = components b := by
  rw [isWithin_iff, isWithin_iff]
  constructor
  · rintro ⟨hba, hab⟩
    exact hab.eq_of_length (Nat.le_antisymm hab.length_le hba.length_le)
  · intro h
    rw [h]
    exact ⟨List.suffix_refl _, List.suffix_refl _⟩

/-! ## Children -/

/-- The spelling of a child is longer than that of its base. -/
lemma same_eq_false_of_isChild (h : isChild a b = true) : same a b = false := by
  obtain ⟨first, rest, hcomponents, hrest⟩ := isChild_iff.1 h
  rw [← Bool.not_eq_true, same_iff, ← hrest, DistinguishedName.normalize, hcomponents]
  cases rest with
  | nil =>
    intro hfirst
    have hempty : first = "" := hfirst
    exact components_ne_singleton_empty a (hempty ▸ hcomponents)
  | cons second rest =>
    intro hspelling
    have hlength := congrArg String.length hspelling
    rw [String.intercalate_cons_cons, String.length_append, String.length_append] at hlength
    have hcomma : ",".length = 1 := rfl
    omega

/-- A child has one component more than its base.  The one exception is below the root, where an
empty component behind the first is not seen. -/
lemma isChild_iff_components (ha : IsSeparable a) (hb : IsSeparable b) :
    isChild a b = true ↔
      ∃ first, components a = first :: components b ∨
        components b = [] ∧ components a = [first, ""] := by
  rw [isChild_iff]
  constructor
  · rintro ⟨first, rest, hcomponents, hrest⟩
    refine ⟨first, ?_⟩
    have hapart : AreApart rest := (hcomponents ▸ ha.areApart).tail
    obtain rfl | hnil :=
      eq_of_intercalate_eq hapart hb.areApart (components_ne_singleton_empty b) hrest
    · exact .inl hcomponents
    rw [hcomponents, hnil]
    by_cases hempty : rest = [""]
    · exact .inr ⟨rfl, by rw [hempty]⟩
    · obtain heq | hnil' := eq_of_intercalate_eq hb.areApart hapart hempty hrest.symm
      · rw [← heq, hnil]
        exact .inl rfl
      · exact .inl (by rw [hnil'])
  · rintro ⟨first, hcomponents | ⟨hroot, hcomponents⟩⟩
    · exact ⟨first, components b, hcomponents, rfl⟩
    · exact ⟨first, [""], hcomponents, (normalize_eq_empty_iff.2 hroot).symm⟩

/-! ## The hierarchy -/

/-- Containment is reflexive and transitive, and names that lie within each other are those with the
same components.  A child is another name than its base, so no entry is covered both as the base
itself and as one level below it.  If the spellings of two names fall apart into their components,
they are the same name when they have the same components, a child lies within its base and has one
component more, and whatever a scope covers a search of the whole subtree covers, too. -/
theorem hierarchy (a b c : String) :
    (isWithin a a = true ∧ (isWithin a b = true → isWithin b c = true → isWithin a c = true) ∧
        (isWithin a b = true ∧ isWithin b a = true ↔ components a = components b)) ∧
      (components a = components b → same a b = true) ∧
      (isChild a b = true → same a b = false) ∧
      (Scope.singleEntry.covers b a && Scope.singleLevel.covers b a) = false ∧
      (IsSeparable a → IsSeparable b →
        (same a b = true ↔ components a = components b) ∧
        (isWithin a b = true ∧ isWithin b a = true ↔ same a b = true) ∧
        (isChild a b = true → isWithin a b = true) ∧
        (isChild a b = true ↔ ∃ first, components a = first :: components b ∨
          components b = [] ∧ components a = [first, ""]) ∧
        ∀ scope : Scope, scope.covers b a = true → Scope.subtree.covers b a = true) := by
  refine ⟨⟨isWithin_refl a, isWithin_trans, isWithin_antisymm_iff⟩, fun h => ?_,
    same_eq_false_of_isChild, ?_, fun ha hb => ?_⟩
  · rw [same_iff, DistinguishedName.normalize, DistinguishedName.normalize, h]
  · rw [Bool.and_eq_false_iff]
    cases hchild : isChild a b with
    | false => exact .inr hchild
    | true => exact .inl (same_eq_false_of_isChild hchild)
  · have hsame := same_iff_components_eq ha hb
    refine ⟨hsame, isWithin_antisymm_iff.trans hsame.symm, fun hchild => ?_,
      isChild_iff_components ha hb, fun scope hcovers => Scope.isWithin_of_covers hb ha hcovers⟩
    have hcovers : Scope.singleLevel.covers b a = true := hchild
    exact Scope.isWithin_of_covers hb ha hcovers

/-- The first component holds a comma, the case and the blanks differ, and the names end in a
backslash. -/
theorem hierarchy_escaped_comma :
    IsSeparable "cn=Ann\\, MD, OU=Staff,dc=org\\" ∧ IsSeparable "ou=staff , DC=ORG\\" ∧
      components "cn=Ann\\, MD, OU=Staff,dc=org\\" =
        "cn=ann\\, md" :: components "ou=staff , DC=ORG\\" ∧
      isChild "cn=Ann\\, MD, OU=Staff,dc=org\\" "ou=staff , DC=ORG\\" = true ∧
      isWithin "cn=Ann\\, MD, OU=Staff,dc=org\\" "ou=staff , DC=ORG\\" = true ∧
      isWithin "ou=staff , DC=ORG\\" "dc=org\\" = true ∧
      isWithin "cn=Ann\\, MD, OU=Staff,dc=org\\" "dc=org\\" = true := by
  have ha : IsSeparable "cn=Ann\\, MD, OU=Staff,dc=org\\" := by decide +kernel
  have hb : IsSeparable "ou=staff , DC=ORG\\" := by decide +kernel
  have hcomponents : components "cn=Ann\\, MD, OU=Staff,dc=org\\" =
      "cn=ann\\, md" :: components "ou=staff , DC=ORG\\" := by decide +kernel
  have hbase : isWithin "ou=staff , DC=ORG\\" "dc=org\\" = true := by decide +kernel
  obtain ⟨⟨-, htrans, -⟩, -, -, -, hspellings⟩ :=
    hierarchy "cn=Ann\\, MD, OU=Staff,dc=org\\" "ou=staff , DC=ORG\\" "dc=org\\"
  obtain ⟨-, -, hwithin, hchild, -⟩ := hspellings ha hb
  have hischild := hchild.2 ⟨_, .inl hcomponents⟩
  have hinside := hwithin hischild
  exact ⟨ha, hb, hcomponents, hischild, hinside, hbase, htrans hinside hbase⟩

/-- An escaped blank at the end of a component is trimmed and leaves its backslash, which then
escapes the comma.  The two names are the same by their spelling and lie apart by their components,
and so does a child of the one from the other.  Below the root a name of two components is a child,
if the second is empty. -/
theorem not_hierarchy_of_escaped_blank :
    ¬(same "cn=Ann\\ ,dc=org" "cn=Ann\\,dc=org" = true ↔
        components "cn=Ann\\ ,dc=org" = components "cn=Ann\\,dc=org") ∧
      ¬(isWithin "cn=Ann\\ ,dc=org" "cn=Ann\\,dc=org" = true ∧
          isWithin "cn=Ann\\,dc=org" "cn=Ann\\ ,dc=org" = true ↔
        same "cn=Ann\\ ,dc=org" "cn=Ann\\,dc=org" = true) ∧
      ¬(isChild "uid=a,cn=Ann\\ ,dc=org" "cn=Ann\\,dc=org" = true →
        isWithin "uid=a,cn=Ann\\ ,dc=org" "cn=Ann\\,dc=org" = true) ∧
      ¬(isChild "cn=Ann," "" = true →
        (components "cn=Ann,").length = (components "").length + 1) := by
  decide +kernel

end DirectoryQuery.DistinguishedName
