import DirectoryQuery.Proofs.Text.Lowercase
import DirectoryQuery.Scope
import Mathlib.Data.List.Induction
import Mathlib.Data.List.Infix

/-!
# Names and their components

Names are compared by their canonical spelling, relations between names by their components.  The
two agree on tidy names, those where no trimmed component ends in a backslash that escapes nothing
(`components_eq_of_same`).  Such a component takes in the comma that the canonical spelling puts
behind it: `x\ ,y` and `x\,y` are spelled alike and have different components.  Behind the last
component there is no comma, so its end does not matter (`IsSeparable`).

The argument reads a component as `parts` does, character by character (`scan`).  Trimming and
lower-casing leave the commas and the backslashes where they are, so the canonical spelling of a
tidy name falls apart into the components it was made of.
-/

namespace DirectoryQuery

namespace DistinguishedName

/-! ## Reading a component -/

/-- Reads one character of a component and tells whether the next one is escaped.  A comma that is
not escaped ends the component. -/
def scanChar (escaped : Bool) (c : Char) : Option Bool :=
  if !escaped && c == ',' then none else some (!escaped && c == '\\')

/-- Reads characters of a component. -/
def scan (escaped : Bool) (s : List Char) : Option Bool :=
  s.foldlM scanChar escaped

lemma scan_nil (escaped : Bool) : scan escaped [] = some escaped := rfl

lemma scan_cons (escaped : Bool) (c : Char) (s : List Char) :
    scan escaped (c :: s) = (scanChar escaped c).bind fun escaped => scan escaped s := rfl

lemma scanChar_of_ne {c : Char} (h : c ≠ ',' ∧ c ≠ '\\') (escaped : Bool) :
    scanChar escaped c = some false := by
  rw [scanChar, beq_false_of_ne h.1, beq_false_of_ne h.2, Bool.and_false]
  rfl

lemma scan_append (escaped : Bool) (s t : List Char) :
    scan escaped (s ++ t) = (scan escaped s).bind fun escaped => scan escaped t := by
  rw [scan, List.foldlM_append]
  rfl

lemma parts_cons_of_scanChar {escaped next : Bool} {c : Char} {s part : List Char}
    {more : List (List Char)} (h : scanChar escaped c = some next)
    (hs : parts next s = part :: more) : parts escaped (c :: s) = (c :: part) :: more := by
  unfold scanChar at h
  split at h
  · cases h
  · rename_i hcomma
    cases h
    rw [parts, if_neg hcomma, hs]

lemma parts_cons_of_scanChar_eq_none {escaped : Bool} {c : Char} (h : scanChar escaped c = none)
    (s : List Char) : parts escaped (c :: s) = [] :: parts false s := by
  unfold scanChar at h
  split at h
  · rename_i hcomma
    rw [parts, if_pos hcomma]
  · cases h

/-- A comma behind a whole component separates it from what follows. -/
lemma parts_append {escaped : Bool} {part : List Char} (h : scan escaped part = some false)
    (rest : List Char) :
    parts escaped (part ++ ',' :: rest) = part :: parts false rest := by
  induction part generalizing escaped with
  | nil =>
    cases h
    rfl
  | cons c part ih =>
    rw [scan_cons, Option.bind_eq_some_iff] at h
    obtain ⟨next, hc, hpart⟩ := h
    exact parts_cons_of_scanChar hc (ih hpart)

lemma parts_of_scan {escaped last : Bool} {part : List Char} (h : scan escaped part = some last) :
    parts escaped part = [part] := by
  induction part generalizing escaped with
  | nil => rfl
  | cons c part ih =>
    rw [scan_cons, Option.bind_eq_some_iff] at h
    obtain ⟨next, hc, hpart⟩ := h
    exact parts_cons_of_scanChar hc (ih hpart)

/-- No part holds a comma that is not escaped. -/
lemma exists_scan_of_parts {escaped : Bool} {s part : List Char} {more : List (List Char)}
    (h : parts escaped s = part :: more) :
    (∃ last, scan escaped part = some last) ∧ ∀ p ∈ more, ∃ last, scan false p = some last := by
  induction s generalizing escaped part more with
  | nil =>
    cases h
    exact ⟨⟨escaped, rfl⟩, fun p hp => absurd hp List.not_mem_nil⟩
  | cons c s ih =>
    cases hc : scanChar escaped c with
    | none =>
      rw [parts_cons_of_scanChar_eq_none hc] at h
      obtain ⟨rfl, rfl⟩ := List.cons.inj h
      refine ⟨⟨escaped, rfl⟩, fun p hp => ?_⟩
      obtain ⟨first, others, hparts⟩ := List.exists_cons_of_ne_nil (parts_ne_nil false s)
      obtain ⟨hfirst, hothers⟩ := ih hparts
      rw [hparts] at hp
      obtain rfl | hp := List.mem_cons.1 hp
      · exact hfirst
      · exact hothers p hp
    | some next =>
      obtain ⟨first, others, hparts⟩ := List.exists_cons_of_ne_nil (parts_ne_nil next s)
      rw [parts_cons_of_scanChar hc hparts] at h
      obtain ⟨rfl, rfl⟩ := List.cons.inj h
      obtain ⟨⟨last, hfirst⟩, hothers⟩ := ih hparts
      exact ⟨⟨last, by rw [scan_cons, hc, Option.bind_some, hfirst]⟩, hothers⟩

lemma exists_scan_of_mem_parts {s part : List Char} (h : part ∈ parts false s) :
    ∃ last, scan false part = some last := by
  obtain ⟨first, others, hparts⟩ := List.exists_cons_of_ne_nil (parts_ne_nil false s)
  obtain ⟨hfirst, hothers⟩ := exists_scan_of_parts hparts
  rw [hparts] at h
  obtain rfl | h := List.mem_cons.1 h
  · exact hfirst
  · exact hothers part h

/-! ## The form of a component -/

/-- The number of backslashes at the end. -/
def trailingBackslashes (s : List Char) : Nat :=
  (s.reverse.takeWhile (· == '\\')).length

/-- What follows a component is escaped when an odd number of backslashes ends it. -/
lemma scan_eq_some {s : List Char} {last : Bool} (h : scan false s = some last) :
    last = (trailingBackslashes s % 2 == 1) := by
  induction s using List.reverseRecOn generalizing last with
  | nil =>
    cases h
    rfl
  | append_singleton s c ih =>
    rw [scan_append, Option.bind_eq_some_iff] at h
    obtain ⟨escaped, hs, hc⟩ := h
    have hescaped := ih hs
    rw [scan_cons, Option.bind_eq_some_iff] at hc
    obtain ⟨next, hc, hlast⟩ := hc
    cases hlast
    unfold scanChar at hc
    split at hc
    · cases hc
    cases hc
    unfold trailingBackslashes at hescaped ⊢
    rw [List.reverse_concat, List.takeWhile_cons]
    split
    · rename_i hslash
      rw [hslash, List.length_cons, hescaped, Bool.and_true, Bool.eq_iff_iff]
      simp only [Bool.not_eq_true', beq_eq_false_iff_ne, beq_iff_eq]
      omega
    · rename_i hslash
      rw [eq_false_of_ne_true hslash, Bool.and_false]
      rfl

lemma scan_trimLeft (s : List Char) : scan false (Text.trimLeft s) = scan false s := by
  unfold Text.trimLeft
  induction s with
  | nil => rfl
  | cons c s ih =>
    rw [List.dropWhile_cons]
    split
    · rename_i hblank
      have hmark : c ≠ ',' ∧ c ≠ '\\' := by
        constructor
        · rintro rfl
          exact absurd hblank (by decide)
        · rintro rfl
          exact absurd hblank (by decide)
      rw [ih, scan_cons, scanChar_of_ne hmark, Option.bind_some]
    · rfl

lemma exists_scan_trimRight {s : List Char} (h : ∃ last, scan false s = some last) :
    ∃ last, scan false (Text.trimRight s) = some last := by
  have hsplit : s = Text.trimRight s ++ (s.reverse.takeWhile Text.isBlank).reverse := by
    rw [Text.trimRight, ← List.reverse_append, List.takeWhile_append_dropWhile,
      List.reverse_reverse]
  obtain ⟨last, h⟩ := h
  rw [hsplit, scan_append, Option.bind_eq_some_iff] at h
  obtain ⟨next, hnext, -⟩ := h
  exact ⟨next, hnext⟩

lemma scan_of_ne {s : List Char} (hne : s ≠ []) (h : ∀ c ∈ s, c ≠ ',' ∧ c ≠ '\\')
    (escaped : Bool) : scan escaped s = some false := by
  induction s generalizing escaped with
  | nil => exact absurd rfl hne
  | cons c s ih =>
    obtain ⟨hc, hs⟩ := List.forall_mem_cons.1 h
    rw [scan_cons, scanChar_of_ne hc, Option.bind_some]
    by_cases hnil : s = []
    · rw [hnil, scan_nil]
    · exact ih hnil hs false

lemma scan_lowerChar (escaped : Bool) (c : Char) :
    scan escaped (Text.lowerChar c) = scanChar escaped c := by
  by_cases hcomma : c = ','
  · subst hcomma
    cases escaped <;> rfl
  by_cases hslash : c = '\\'
  · subst hslash
    cases escaped <;> rfl
  rw [scanChar_of_ne ⟨hcomma, hslash⟩]
  refine scan_of_ne (Text.lowerChar_ne_nil c) (fun d hd => ⟨?_, ?_⟩) escaped
  · rintro rfl
    exact hcomma (Text.eq_of_mem_lowerChar (by decide) (by decide) hd)
  · rintro rfl
    exact hslash (Text.eq_of_mem_lowerChar (by decide) (by decide) hd)

/-- Lower-casing leaves the commas and the backslashes where they are. -/
lemma scan_lowerFrom (inWord escaped : Bool) (s : List Char) :
    scan escaped (Text.lowerFrom inWord s) = scan escaped s := by
  induction s generalizing inWord escaped with
  | nil => rfl
  | cons c s ih =>
    rw [Text.lowerFrom, scan_append, scan_cons]
    have hlower : scan escaped (if c = Text.capitalSigma then
        [if inWord && !Text.startsCased s then 'ς' else 'σ'] else Text.lowerChar c) =
          scanChar escaped c := by
      split
      · rename_i hsigma
        subst hsigma
        rw [scanChar_of_ne (by decide)]
        exact scan_of_ne (List.cons_ne_nil _ _) (by split <;> simp) escaped
      · exact scan_lowerChar escaped c
    rw [hlower]
    cases scanChar escaped c with
    | none => rfl
    | some next => exact ih _ next

/-! ## Tidy names -/

/-- No trimmed component ends in an odd number of backslashes. -/
def IsTidy (name : String) : Prop :=
  ∀ part ∈ parts false name.toList, trailingBackslashes (Text.trimChars part) % 2 = 0

instance (name : String) : Decidable (IsTidy name) :=
  inferInstanceAs (Decidable (∀ part ∈ parts false name.toList, _ = _))

/-- A component that a comma may follow: it holds no comma that is not escaped, and its end escapes
nothing. -/
def IsWhole (component : String) : Prop :=
  scan false component.toList = some false

lemma exists_scan_normalizePart {part : List Char} (h : ∃ last, scan false part = some last) :
    ∃ last, scan false (normalizePart part).toList = some last := by
  rw [normalizePart, String.toList_ofList, Text.lowerChars, scan_lowerFrom]
  refine exists_scan_trimRight ?_
  rw [scan_trimLeft]
  exact h

lemma isWhole_normalizePart {part : List Char} (h : ∃ last, scan false part = some last)
    (heven : trailingBackslashes (Text.trimChars part) % 2 = 0) :
    IsWhole (normalizePart part) := by
  obtain ⟨last, hlast⟩ := exists_scan_normalizePart h
  rw [normalizePart, String.toList_ofList, Text.lowerChars, scan_lowerFrom] at hlast
  rw [IsWhole, normalizePart, String.toList_ofList, Text.lowerChars, scan_lowerFrom, hlast,
    scan_eq_some hlast, heven]
  rfl

lemma exists_part_of_mem_components {name component : String} (h : component ∈ components name) :
    ∃ part ∈ parts false name.toList, normalizePart part = component := by
  unfold components at h
  split at h
  · rename_i part heq
    split at h
    · exact absurd h List.not_mem_nil
    · exact List.mem_map.1 (heq ▸ h)
  · exact List.mem_map.1 h

/-- The components of a tidy name may each stand before a comma. -/
lemma isWhole_of_mem_components {name component : String} (h : IsTidy name)
    (hmem : component ∈ components name) : IsWhole component := by
  obtain ⟨part, hpart, rfl⟩ := exists_part_of_mem_components hmem
  exact isWhole_normalizePart (exists_scan_of_mem_parts hpart) (h part hpart)

lemma components_ne_singleton_empty (name : String) : components name ≠ [""] := by
  unfold components
  split
  · rename_i part heq
    split
    · exact (List.cons_ne_nil _ _).symm
    · rename_i hne
      intro h
      exact hne (List.cons.inj h).1
  · rename_i parts hne
    intro h
    exact hne _ h

/-! ## Spellings that fall apart -/

/-- No component but the last ends in an odd number of backslashes. -/
def IsSeparable (name : String) : Prop :=
  ∀ component ∈ (components name).dropLast, trailingBackslashes component.toList % 2 = 0

instance (name : String) : Decidable (IsSeparable name) :=
  inferInstanceAs (Decidable (∀ component ∈ (components name).dropLast, _ = _))

/-- Components between which a comma can be put: none holds a comma that is not escaped, and all but
the last are whole. -/
structure AreApart (components : List String) : Prop where
  readable : ∀ component ∈ components, ∃ last, scan false component.toList = some last
  whole : ∀ component ∈ components.dropLast, IsWhole component

lemma AreApart.tail {first : String} {rest : List String} (h : AreApart (first :: rest)) :
    AreApart rest where
  readable := fun component hc => h.readable component (List.mem_cons_of_mem first hc)
  whole := by
    cases rest with
    | nil => exact fun component hc => absurd hc List.not_mem_nil
    | cons second rest =>
      intro component hc
      exact h.whole component (List.mem_cons_of_mem first hc)

lemma IsSeparable.areApart {name : String} (h : IsSeparable name) : AreApart (components name) := by
  have hreadable : ∀ component ∈ components name,
      ∃ last, scan false component.toList = some last := by
    intro component hc
    obtain ⟨part, hpart, rfl⟩ := exists_part_of_mem_components hc
    exact exists_scan_normalizePart (exists_scan_of_mem_parts hpart)
  refine ⟨hreadable, fun component hc => ?_⟩
  obtain ⟨last, hlast⟩ := hreadable component (List.mem_of_mem_dropLast hc)
  rw [IsWhole, hlast, scan_eq_some hlast, h component hc]
  rfl

lemma IsTidy.isSeparable {name : String} (h : IsTidy name) : IsSeparable name := by
  intro component hc
  have hlast := scan_eq_some (isWhole_of_mem_components h (List.mem_of_mem_dropLast hc))
  have hodd : trailingBackslashes component.toList % 2 ≠ 1 := beq_eq_false_iff_ne.1 hlast.symm
  omega

/-- A spelling with bare commas between components is read as these components. -/
lemma parts_intercalate {components : List String} (hne : components ≠ [])
    (h : AreApart components) :
    parts false (String.intercalate "," components).toList = components.map String.toList := by
  induction components with
  | nil => exact absurd rfl hne
  | cons first rest ih =>
    cases rest with
    | nil =>
      obtain ⟨last, hlast⟩ := h.readable first List.mem_cons_self
      rw [String.intercalate_singleton]
      exact parts_of_scan hlast
    | cons second rest =>
      have htail := ih (List.cons_ne_nil _ _) h.tail
      rw [String.intercalate_cons_cons, String.toList_append, String.toList_append,
        List.append_assoc, List.map_cons, ← htail]
      exact parts_append (h.whole first List.mem_cons_self) _

/-- Components are known by their spelling, but for the nothing that none and one empty component
both spell. -/
lemma eq_of_intercalate_eq {left right : List String} (hleft : AreApart left)
    (hright : AreApart right) (hempty : right ≠ [""])
    (h : String.intercalate "," left = String.intercalate "," right) :
    left = right ∨ right = [] := by
  by_cases hr : right = []
  · exact .inr hr
  have hinj : Function.Injective (List.map String.toList) :=
    List.map_injective_iff.2 fun s t => String.toList_inj.1
  have hread := parts_intercalate hr hright
  rw [← h] at hread
  by_cases hl : left = []
  · subst hl
    have hnothing : [""].map String.toList = right.map String.toList := hread
    exact absurd (hinj hnothing).symm hempty
  · rw [parts_intercalate hl hleft] at hread
    exact .inl (hinj hread)

/-- Two spellings name the same entry exactly when their components agree. -/
lemma same_iff_components_eq {a b : String} (ha : IsSeparable a) (hb : IsSeparable b) :
    same a b = true ↔ components a = components b := by
  rw [same_iff]
  constructor
  · intro h
    obtain heq | hnil :=
      eq_of_intercalate_eq ha.areApart hb.areApart (components_ne_singleton_empty b) h
    · exact heq
    obtain heq | hnil' :=
      eq_of_intercalate_eq hb.areApart ha.areApart (components_ne_singleton_empty a) h.symm
    · exact heq.symm
    · rw [hnil, hnil']
  · intro h
    rw [DistinguishedName.normalize, DistinguishedName.normalize, h]

/-- Two spellings of tidy names name the same entry only when their components agree. -/
theorem components_eq_of_same {a b : String} (ha : IsTidy a) (hb : IsTidy b)
    (h : same a b = true) : components a = components b :=
  (same_iff_components_eq ha.isSeparable hb.isSeparable).1 h

/-- Without the condition on backslashes, one spelling need not mean the same components. -/
example : same "x\\ ,y" "x\\,y" = true ∧ components "x\\ ,y" ≠ components "x\\,y" := by
  decide +kernel

/-! ## Children -/

lemma normalize_eq_empty_iff {name : String} : normalize name = "" ↔ components name = [] := by
  rw [DistinguishedName.normalize]
  cases hcomponents : components name with
  | nil => exact ⟨fun _ => rfl, fun _ => rfl⟩
  | cons first rest =>
    refine ⟨fun h => ?_, fun h => absurd h (List.cons_ne_nil _ _)⟩
    cases rest with
    | nil =>
      rw [String.intercalate_singleton] at h
      exact absurd (h ▸ hcomponents) (components_ne_singleton_empty name)
    | cons second rest =>
      rw [String.intercalate_cons_cons] at h
      simp at h

/-- A name lies one level below the base when the components behind its first are spelled as the
base is. -/
lemma isChild_iff {name base : String} :
    isChild name base = true ↔
      ∃ first rest, components name = first :: rest ∧
        String.intercalate "," rest = normalize base := by
  unfold isChild parent?
  match hcomponents : components name with
  | [] => simp
  | [first] => simp [eq_comm (a := ""), normalize_eq_empty_iff]
  | first :: second :: rest => simp

end DistinguishedName

/-! ## Scopes -/

namespace Scope

open DistinguishedName

/-- A scope looks at the components of a name only. -/
lemma covers_congr {name other : String} (h : components name = components other) (scope : Scope)
    (base : String) : scope.covers base name = scope.covers base other := by
  cases scope with
  | subtree => rw [covers, covers, isWithin, isWithin, h]
  | singleLevel => rw [covers, covers, isChild, isChild, parent?, parent?, h]
  | singleEntry => simp only [covers, same, DistinguishedName.normalize, h]

/-- Whether a scope covers an entry can be told from any spelling of its name. -/
lemma covers_eq_of_same {name other : String} (hname : IsTidy name) (hother : IsTidy other)
    (h : same name other = true) (scope : Scope) (base : String) :
    scope.covers base name = scope.covers base other :=
  covers_congr (components_eq_of_same hname hother h) scope base

/-- What a scope covers lies at the base or below it. -/
lemma isWithin_of_covers {scope : Scope} {base name : String} (hbase : IsSeparable base)
    (hname : IsSeparable name) (h : scope.covers base name = true) :
    isWithin name base = true := by
  cases scope with
  | subtree => exact h
  | singleEntry =>
    have hcomponents := (same_iff_components_eq hname hbase).1 h
    exact isWithin_iff.2 (hcomponents ▸ List.suffix_refl _)
  | singleLevel =>
    obtain ⟨first, rest, hcomponents, hrest⟩ := isChild_iff.1 h
    have hapart : AreApart rest := (hcomponents ▸ hname.areApart).tail
    rw [isWithin_iff, hcomponents]
    obtain rfl | hnil :=
      eq_of_intercalate_eq hapart hbase.areApart (components_ne_singleton_empty base) hrest
    · exact List.suffix_cons first _
    · rw [hnil]
      exact List.nil_suffix

end Scope

end DirectoryQuery
