import DirectoryQuery.Proofs.DistinguishedName
import DirectoryQuery.Proofs.Text.Lowercase.Context

/-!
# Names and case

Names that differ in case only name the same entry (`same_of_lowercase_eq`).  The canonical spelling
of a name lower-cases every component on its own, so this is not quite plain: a capital sigma might
be final in its component and not in the name.  A comma is a break, though, whether a backslash
stands before it or not, and so are the blanks that are trimmed; the components of a name can be
read from its lower case (`components_eq_of_lowercase_eq`).
-/

namespace DirectoryQuery.DistinguishedName

open Text (lowerChars lowerChar trimChars)

/-- Where a component ends, a comma follows that no backslash escapes. -/
lemma exists_comma_of_scan {escaped : Bool} {s : List Char} (h : scan escaped s = none) :
    ∃ part rest, s = part ++ ',' :: rest ∧ scan escaped part = some false := by
  induction s generalizing escaped with
  | nil => cases h
  | cons c s ih =>
    rw [scan_cons] at h
    cases hc : scanChar escaped c with
    | none =>
      unfold scanChar at hc
      split at hc
      · rename_i hcomma
        simp only [Bool.and_eq_true, Bool.not_eq_true', beq_iff_eq] at hcomma
        obtain ⟨rfl, rfl⟩ := hcomma
        exact ⟨[], s, rfl, rfl⟩
      · cases hc
    | some next =>
      rw [hc, Option.bind_some] at h
      obtain ⟨part, rest, rfl, hpart⟩ := ih h
      exact ⟨c :: part, rest, rfl, by rw [scan_cons, hc, Option.bind_some, hpart]⟩

/-- Lower-casing a name lower-cases its parts. -/
lemma parts_lowerChars (s : List Char) :
    parts false (lowerChars s) = (parts false s).map lowerChars := by
  induction hlength : s.length using Nat.strong_induction_on generalizing s with
  | _ n ih =>
    cases hscan : scan false s with
    | some last =>
      have hlower : scan false (lowerChars s) = some last := by
        rw [lowerChars, scan_lowerFrom, hscan]
      rw [parts_of_scan hscan, parts_of_scan hlower, List.map_singleton]
    | none =>
      obtain ⟨part, rest, rfl, hpart⟩ := exists_comma_of_scan hscan
      have hlower : scan false (lowerChars part) = some false := by
        rw [lowerChars, scan_lowerFrom, hpart]
      have hcomma : Text.IsBreak ',' ∧ lowerChar ',' = [','] := by
        unfold Text.IsBreak
        decide +kernel
      have hshorter : rest.length < n := by
        rw [← hlength, List.length_append, List.length_cons]
        omega
      rw [hcomma.1.lowerChars_append, hcomma.2, List.singleton_append, parts_append hlower,
        parts_append hpart, List.map_cons, ih rest.length hshorter rest rfl]

/-- The components of a name can be read from its lower case. -/
theorem components_eq_of_lowercase_eq {a b : String} (h : Text.lowercase a = Text.lowercase b) :
    components a = components b := by
  have hparts (name : String) : (parts false name.toList).map normalizePart =
      (parts false (Text.lowercase name).toList).map
        fun part => String.ofList (trimChars part) := by
    rw [Text.toList_lowercase, parts_lowerChars, List.map_map]
    refine List.map_congr_left fun part _ => ?_
    rw [normalizePart, Function.comp_apply, Text.trimChars_lowerChars]
  rw [components, components, hparts, hparts, h]

/-- Names that differ in case only name the same entry. -/
theorem same_of_lowercase_eq {a b : String} (h : Text.lowercase a = Text.lowercase b) :
    same a b = true := by
  rw [same_iff, DistinguishedName.normalize, DistinguishedName.normalize,
    components_eq_of_lowercase_eq h]

end DirectoryQuery.DistinguishedName
