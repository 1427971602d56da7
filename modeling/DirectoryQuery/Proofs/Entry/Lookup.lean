import DirectoryQuery.Entry.Basic
import DirectoryQuery.Proofs.SortedMap

/-!
# Looking up attributes

A lookup finds the values under one stored spelling of a name, if there is one
(`Entry.spelling_cases`).  What is set under a name is found under that name, and cannot be seen
under another (`get_insert_self`, `get_insert_of_ne`).

Other spellings of the name are a matter of their own.  They find the same values where the stored
names agree, that is where no two of them differ in case only, but for spellings of `dn` that hold
the same (`NamesAgree.get_eq`).
-/

namespace DirectoryQuery

lemma isIdentity_congr {name other : String} (h : Text.sameName name other = true) :
    isIdentity name = isIdentity other := by
  rw [isIdentity, isIdentity, Text.sameName, Text.sameName, Text.sameName_iff.1 h]

namespace Entry

variable {e : Entry} {name other key field : String} {values : List Value}

/-! ## Stored spellings -/

/-- A lookup finds what stands under a stored spelling of the name, or no spelling is stored. -/
lemma spelling_cases (e : Entry) (name : String) :
    e.attributes.get? (e.spelling name) = some (e.get name) ∨
      (∀ key ∈ e.attributes.keys, Text.sameName key name = false) ∧
        e.spelling name = name ∧ e.get name = [] := by
  rw [spelling, get, spelling?]
  split_ifs with hstored
  · obtain ⟨values, hvalues⟩ := Option.isSome_iff_exists.1 hstored
    left
    simp [hvalues]
  · cases hfind : e.attributes.keys.find? fun key => Text.sameName key name with
    | none => exact .inr ⟨by simpa using hfind, rfl, rfl⟩
    | some key =>
      obtain ⟨values, hvalues⟩ := SortedMap.mem_keys_iff.1 (List.mem_of_find?_eq_some hfind)
      left
      simp [hvalues]

lemma mem_keys_of_get? (h : e.attributes.get? key = some values) : key ∈ e.attributes.keys :=
  SortedMap.mem_keys_iff.2 ⟨values, h⟩

/-- A stored name finds what stands under it, whatever other spellings are stored. -/
lemma get?_of_mem_keys (h : key ∈ e.attributes.keys) :
    e.attributes.get? key = some (e.get key) := by
  obtain ⟨values, hvalues⟩ := SortedMap.mem_keys_iff.1 h
  rw [get, spelling?, hvalues]
  simp [hvalues]

/-- What is found under a name stands under a stored spelling of it. -/
lemma get?_spelling_of_mem {v : Value} (h : v ∈ e.get name) :
    e.attributes.get? (e.spelling name) = some (e.get name) := by
  obtain hfound | ⟨-, -, hempty⟩ := e.spelling_cases name
  · exact hfound
  · rw [hempty] at h
    cases h

lemma isIdentity_spelling (e : Entry) (name : String) :
    isIdentity (e.spelling name) = isIdentity name :=
  isIdentity_congr (e.sameName_spelling name)

/-! ## Setting and restricting -/

lemma insert_of_identity (h : isIdentity name = true) (values : List Value) :
    e.insert name values = e :=
  dif_pos h

lemma attributes_insert (h : isIdentity name = false) (values : List Value) :
    (e.insert name values).attributes = e.attributes.insert (e.spelling name) values := by
  rw [insert, dif_neg (Bool.eq_false_iff.1 h)]

/-- Setting the values of an attribute does not change the spelling that stands for its name. -/
lemma spelling?_insert (h : isIdentity name = false) (values : List Value) :
    (e.insert name values).spelling? name = some (e.spelling name) := by
  by_cases hname : e.spelling name = name
  · rw [spelling?, attributes_insert h, hname, SortedMap.get?_insert_self]
    rfl
  · -- another spelling stands for the name, so no name is new and the search among them ends there
    have hnone : ¬ (e.attributes.get? name).isSome = true := by
      intro hstored
      exact hname (by rw [spelling, spelling?, if_pos hstored, Option.getD_some])
    obtain ⟨key, hfind⟩ : ∃ key, e.spelling? name = some key := by
      refine Option.ne_none_iff_exists'.1 fun hspelling => hname ?_
      rw [spelling, hspelling, Option.getD_none]
    have hspelling : e.spelling name = key := by rw [spelling, hfind, Option.getD_some]
    rw [spelling?, if_neg hnone] at hfind
    rw [hspelling] at hname ⊢
    rw [spelling?, attributes_insert h, hspelling, SortedMap.get?_insert_of_ne _ _ (Ne.symm hname),
      SortedMap.keys_insert_of_mem (List.mem_of_find?_eq_some hfind), if_neg hnone, hfind]

/-- What is set under a name is found under it, whatever other spellings are stored. -/
lemma get_insert_self (h : isIdentity name = false) (values : List Value) :
    (e.insert name values).get name = values := by
  rw [get, spelling?_insert h, Option.bind_some, attributes_insert h, SortedMap.get?_insert_self,
    Option.getD_some]

lemma find?_keys_insertPair {β : Type} (p : String → Bool) {key : String} (hkey : p key = false)
    (value : β) (pairs : List (String × β)) :
    ((insertPair key value pairs).map (·.1)).find? p = (pairs.map (·.1)).find? p := by
  induction pairs with
  | nil => simp [insertPair, hkey]
  | cons pair rest ih =>
    unfold insertPair
    split
    · simp [hkey]
    · split
      · rename_i hsame
        rw [List.map_cons, List.map_cons, ← hsame]
      · rw [List.map_cons, List.map_cons, List.find?_cons, List.find?_cons, ih]

/-- What is set under a name cannot be seen under another. -/
lemma get_insert_of_ne (hname : Text.sameName name field = false) (values : List Value) :
    (e.insert name values).get field = e.get field := by
  unfold insert
  split
  · rfl
  · have hspelling : Text.sameName (e.spelling name) field = false := by
      cases hsame : Text.sameName (e.spelling name) field with
      | false => rfl
      | true =>
        have hback : Text.sameName name (e.spelling name) = true := by
          rw [Text.sameName_comm]
          exact e.sameName_spelling name
        rw [Text.sameName_trans hback hsame] at hname
        cases hname
    have hother : ∀ key, Text.sameName key field = true →
        (e.attributes.insert (e.spelling name) values).get? key = e.attributes.get? key := by
      intro key hkey
      apply SortedMap.get?_insert_of_ne
      rintro rfl
      rw [hkey] at hspelling
      cases hspelling
    have hfind : (e.attributes.insert (e.spelling name) values).keys.find?
        (fun key => Text.sameName key field) =
          e.attributes.keys.find? fun key => Text.sameName key field :=
      find?_keys_insertPair (fun key => Text.sameName key field) hspelling values _
    simp only [get, spelling?, hother field (Text.sameName_refl field), hfind]
    split
    · exact congrArg (·.getD []) (hother field (Text.sameName_refl field))
    · cases hkey : e.attributes.keys.find? fun key => Text.sameName key field with
      | none => rfl
      | some key =>
        have hsame : Text.sameName key field = true := by simpa using List.find?_some hkey
        exact congrArg (·.getD []) (hother key hsame)

/-- A name that setting adds differs from the others in more than case. -/
lemma mem_keys_of_insert (hkey : key ∈ (e.insert name values).attributes.keys)
    (hother : other ∈ (e.insert name values).attributes.keys)
    (hsame : Text.sameName key other = true) :
    key = other ∨ key ∈ e.attributes.keys ∧ other ∈ e.attributes.keys := by
  cases hid : isIdentity name with
  | true =>
    rw [insert_of_identity hid] at hkey hother
    exact .inr ⟨hkey, hother⟩
  | false =>
    rw [attributes_insert hid, SortedMap.mem_keys_insert] at hkey hother
    obtain hstored | ⟨hnone, hspelling, -⟩ := e.spelling_cases name
    · have hmem : e.spelling name ∈ e.attributes.keys := mem_keys_of_get? hstored
      exact .inr ⟨hkey.elim (· ▸ hmem) id, hother.elim (· ▸ hmem) id⟩
    · -- the name is new up to case, so nothing that was there is a spelling of it
      rw [hspelling] at hkey hother
      obtain rfl | hkey := hkey
      · obtain rfl | hother := hother
        · exact .inl rfl
        · rw [Text.sameName_comm, hnone other hother] at hsame
          cases hsame
      · obtain rfl | hother := hother
        · rw [hnone key hkey] at hsame
          cases hsame
        · exact .inr ⟨hkey, hother⟩

/-- Setting an attribute changes nothing that is stored under a spelling of `dn`. -/
lemma get?_insert_of_identity (hid : isIdentity key = true) :
    (e.insert name values).attributes.get? key = e.attributes.get? key := by
  cases hname : isIdentity name with
  | true => rw [insert_of_identity hname]
  | false =>
    rw [attributes_insert hname, SortedMap.get?_insert_of_ne]
    rintro rfl
    rw [isIdentity_spelling, hname] at hid
    cases hid

/-- Whether restricting to some names keeps a stored name. -/
def keeps (names : List String) (key : String) : Bool :=
  key == identityAttribute || names.any fun name => Text.sameName name key

lemma get?_retain {names : List String} :
    (e.retain names).attributes.get? key =
      if keeps names key then e.attributes.get? key else none :=
  SortedMap.get?_filterKeys ..

lemma mem_keys_retain {names : List String} :
    key ∈ (e.retain names).attributes.keys ↔ key ∈ e.attributes.keys ∧ keeps names key = true :=
  SortedMap.mem_keys_filterKeys

/-! ## Entries whose names agree -/

/-- No two stored names differ in case only. -/
def NamesDiffer (e : Entry) : Prop :=
  ∀ key ∈ e.attributes.keys, ∀ other ∈ e.attributes.keys,
    Text.sameName key other = true → key = other

/-- Stored names that differ in case only are the same name, or spellings of `dn` that hold the
same. -/
def NamesAgree (e : Entry) : Prop :=
  ∀ key ∈ e.attributes.keys, ∀ other ∈ e.attributes.keys, Text.sameName key other = true →
    key = other ∨ isIdentity key = true ∧ e.attributes.get? key = e.attributes.get? other

lemma NamesDiffer.namesAgree (h : e.NamesDiffer) : e.NamesAgree :=
  fun key hkey other hother hsame => .inl (h key hkey other hother hsame)

namespace NamesAgree

variable (h : e.NamesAgree)
include h

/-- What is stored under one spelling of a name is found under all of them. -/
lemma get_eq (hvalues : e.attributes.get? key = some values)
    (hname : Text.sameName key name = true) : e.get name = values := by
  have hkey : key ∈ e.attributes.keys := mem_keys_of_get? hvalues
  obtain hfound | ⟨hnone, -⟩ := e.spelling_cases name
  · have hsame : Text.sameName key (e.spelling name) = true :=
      Text.sameName_trans hname (Text.sameName_comm .. ▸ e.sameName_spelling name)
    have hvalue : e.attributes.get? key = e.attributes.get? (e.spelling name) := by
      obtain heq | ⟨-, heq⟩ := h key hkey _ (mem_keys_of_get? hfound) hsame
      · rw [← heq]
      · exact heq
    rw [hvalues, hfound] at hvalue
    exact (Option.some.inj hvalue).symm
  · rw [hnone key hkey] at hname
    cases hname

lemma get_congr (hname : Text.sameName name other = true) : e.get name = e.get other := by
  obtain hfound | ⟨hnone, -, hempty⟩ := e.spelling_cases name
  · exact (h.get_eq hfound (Text.sameName_trans (e.sameName_spelling name) hname)).symm
  · obtain hfound | ⟨-, -, hempty'⟩ := e.spelling_cases other
    · have hsame : Text.sameName (e.spelling other) name = true :=
        Text.sameName_trans (e.sameName_spelling other) (Text.sameName_comm .. ▸ hname)
      rw [hnone _ (mem_keys_of_get? hfound)] at hsame
      cases hsame
    · rw [hempty, hempty']

/-- Under every spelling of `dn` stands the name of the entry. -/
lemma get_identity (hid : isIdentity name = true) : e.get name = [.text e.dn] :=
  h.get_eq e.get?_identity (Text.sameName_comm .. ▸ hid)

end NamesAgree

end Entry

end DirectoryQuery
