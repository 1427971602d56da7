import DirectoryQuery.Proofs.Entry.Identity

/-!
# Entries under edits

Attributes of an entry are set and the entry is restricted to some of them, any number of times and
in any order (`Entry.edited`).  No edit touches the name of the entry, and none stores a name that
differs from a stored one in case only.

An entry that was made by naming it is therefore a map from names without their case, with its own
name in it for good (`Entry.edited_named`).  An entry that was taken from a map finds its attributes
like that if and only if no two names of the map differ in case only, spellings of `dn` with the
same values aside (`Entry.findsEverySpelling_iff`).
-/

namespace DirectoryQuery.Entry

/-- A change to the attributes of an entry. -/
inductive Edit where
  /-- Sets the values of an attribute. -/
  | insert (name : String) (values : List Value)
  /-- Keeps the attributes that are named. -/
  | retain (names : List String)

/-- The entry after a change. -/
def edit (e : Entry) : Edit → Entry
  | .insert name values => e.insert name values
  | .retain names => e.retain names

/-- The entry after several changes, one after the other. -/
def edited (e : Entry) (edits : List Edit) : Entry :=
  edits.foldl edit e

variable {e : Entry} {edits : List Edit} {name other key : String} {values : List Value}

/-! ## One edit -/

/-- A name that an edit stores differs from the others in more than case. -/
lemma mem_keys_of_edit {edit : Edit} (hkey : key ∈ (e.edit edit).attributes.keys)
    (hother : other ∈ (e.edit edit).attributes.keys) (hsame : Text.sameName key other = true) :
    key = other ∨ key ∈ e.attributes.keys ∧ other ∈ e.attributes.keys := by
  cases edit with
  | insert name values => exact mem_keys_of_insert hkey hother hsame
  | retain names => exact .inr ⟨(mem_keys_retain.1 hkey).1, (mem_keys_retain.1 hother).1⟩

/-- What an edit leaves under a spelling of `dn` stood there before. -/
lemma get?_edit_of_identity {edit : Edit} (hid : isIdentity key = true)
    (hkey : key ∈ (e.edit edit).attributes.keys) :
    (e.edit edit).attributes.get? key = e.attributes.get? key := by
  cases edit with
  | insert name values => exact get?_insert_of_identity hid
  | retain names =>
    have hkeeps : keeps names key = true := (mem_keys_retain.1 hkey).2
    rw [Entry.edit, get?_retain, if_pos hkeeps]

lemma dn_edit (edit : Edit) : (e.edit edit).dn = e.dn := by
  have hstored : (e.edit edit).attributes.get? identityAttribute = some [.text (e.edit edit).dn] :=
    get?_identity _
  rw [get?_edit_of_identity (show isIdentity identityAttribute = true by decide)
    (mem_keys_of_get? hstored), get?_identity] at hstored
  simpa using hstored.symm

lemma NamesDiffer.edit (h : e.NamesDiffer) (edit : Edit) : (e.edit edit).NamesDiffer := by
  intro key hkey other hother hsame
  obtain heq | ⟨hkey, hother⟩ := mem_keys_of_edit hkey hother hsame
  · exact heq
  · exact h key hkey other hother hsame

lemma NamesAgree.edit (h : e.NamesAgree) (edit : Edit) : (e.edit edit).NamesAgree := by
  intro key hkey other hother hsame
  obtain heq | ⟨hkey', hother'⟩ := mem_keys_of_edit hkey hother hsame
  · exact .inl heq
  · obtain heq | ⟨hid, hvalues⟩ := h key hkey' other hother' hsame
    · exact .inl heq
    · right
      rw [get?_edit_of_identity hid hkey,
        get?_edit_of_identity (isIdentity_congr hsame ▸ hid) hother]
      exact ⟨hid, hvalues⟩

/-! ## Several edits -/

/-- What every edit preserves holds after any number of them. -/
lemma edited_of_edit {p : Entry → Prop} (hedit : ∀ e edit, p e → p (e.edit edit)) (h : p e) :
    p (e.edited edits) := by
  induction edits generalizing e with
  | nil => exact h
  | cons edit edits ih => exact ih (hedit e edit h)

lemma dn_edited : (e.edited edits).dn = e.dn :=
  edited_of_edit (p := fun e' => e'.dn = e.dn) (fun _ edit h => (dn_edit edit).trans h) rfl

lemma NamesDiffer.edited (h : e.NamesDiffer) : (e.edited edits).NamesDiffer :=
  edited_of_edit (fun _ edit h => h.edit edit) h

lemma NamesAgree.edited (h : e.NamesAgree) : (e.edited edits).NamesAgree :=
  edited_of_edit (fun _ edit h => h.edit edit) h

/-! ## Laws of lookup -/

/-- What is set under a name is found under every spelling of it. -/
lemma NamesAgree.get_insert (h : e.NamesAgree) (hid : isIdentity name = false)
    (hname : Text.sameName name other = true) : (e.insert name values).get other = values := by
  have hinsert : (e.insert name values).NamesAgree := h.edit (.insert name values)
  rw [← hinsert.get_congr hname, get_insert_self hid]

/-- Setting the values of an attribute that is there keeps its spelling. -/
lemma keys_insert_of_sameName (hid : isIdentity name = false) (hkey : key ∈ e.attributes.keys)
    (hname : Text.sameName key name = true) :
    (e.insert name values).attributes.keys = e.attributes.keys := by
  rw [attributes_insert hid]
  obtain hfound | ⟨hnone, -⟩ := e.spelling_cases name
  · exact SortedMap.keys_insert_of_mem (mem_keys_of_get? hfound)
  · rw [hnone key hkey] at hname
    cases hname

lemma NamesAgree.get_retain (h : e.NamesAgree) {names : List String}
    (hkeeps : keeps names (e.spelling name) = true) : (e.retain names).get name = e.get name := by
  have hretain : (e.retain names).NamesAgree := h.edit (.retain names)
  obtain hfound | ⟨hnone, -, hempty⟩ := e.spelling_cases name
  · have hkept : (e.retain names).attributes.get? (e.spelling name) = some (e.get name) := by
      rw [get?_retain, if_pos hkeeps, hfound]
    exact hretain.get_eq hkept (e.sameName_spelling name)
  · obtain hfound | ⟨-, -, hempty'⟩ := (e.retain names).spelling_cases name
    · have hkey := (mem_keys_retain.1 (mem_keys_of_get? hfound)).1
      have hsame := sameName_spelling (e.retain names) name
      rw [hnone _ hkey] at hsame
      cases hsame
    · rw [hempty, hempty']

lemma get_retain_eq_nil {names : List String}
    (h : ∀ key, Text.sameName key name = true → keeps names key = false) :
    (e.retain names).get name = [] := by
  obtain hfound | ⟨-, -, hempty⟩ := (e.retain names).spelling_cases name
  · have hkeeps := (mem_keys_retain.1 (mem_keys_of_get? hfound)).2
    rw [h _ (sameName_spelling _ name)] at hkeeps
    cases hkeeps
  · exact hempty

/-- The spelling that stands for `dn`, where only one is stored. -/
lemma NamesDiffer.spelling_of_identity (h : e.NamesDiffer) (hid : isIdentity name = true) :
    e.spelling name = identityAttribute := by
  have hname : Text.sameName identityAttribute name = true := Text.sameName_comm .. ▸ hid
  have hidentity : identityAttribute ∈ e.attributes.keys := mem_keys_of_get? e.get?_identity
  obtain hfound | ⟨hnone, -⟩ := e.spelling_cases name
  · refine h _ (mem_keys_of_get? hfound) _ hidentity ?_
    exact Text.sameName_trans (e.sameName_spelling name) hid
  · rw [hnone _ hidentity] at hname
    cases hname

/-- Only `dn` itself stands for the name of the entry. -/
lemma NamesDiffer.filter_isIdentity (h : e.NamesDiffer) :
    e.attributes.keys.filter isIdentity = [identityAttribute] := by
  have hidentity : identityAttribute ∈ e.attributes.keys := mem_keys_of_get? e.get?_identity
  refine (e.attributes.pairwise_keys.filter _).eq_of_mem_iff (List.pairwise_singleton ..) ?_
  intro key
  rw [List.mem_filter, List.mem_singleton]
  constructor
  · rintro ⟨hkey, hid⟩
    exact h key hkey _ hidentity hid
  · rintro rfl
    exact ⟨hidentity, by decide⟩

/-- Restricting to some names keeps what they name in any case, and `dn`. -/
lemma NamesDiffer.keeps_spelling (h : e.NamesDiffer) {names : List String}
    (hname : isIdentity other = true ∨ ∃ name ∈ names, Text.sameName name other = true) :
    keeps names (e.spelling other) = true := by
  rw [keeps, Bool.or_eq_true]
  obtain hid | ⟨name, hmem, hsame⟩ := hname
  · left
    rw [h.spelling_of_identity hid, beq_self_eq_true]
  · right
    refine List.any_eq_true.2 ⟨name, hmem, ?_⟩
    exact Text.sameName_trans hsame (Text.sameName_comm .. ▸ e.sameName_spelling other)

/-- Restricting to some names keeps no spelling of another, but for `dn`. -/
lemma keeps_eq_false {names : List String} (hid : isIdentity other = false)
    (hnames : ∀ name ∈ names, Text.sameName name other = false)
    (hkey : Text.sameName key other = true) : keeps names key = false := by
  rw [keeps, Bool.or_eq_false_iff]
  constructor
  · refine beq_false_of_ne ?_
    rintro rfl
    rw [← isIdentity_congr hkey] at hid
    exact absurd hid (by decide)
  · refine List.any_eq_false.2 fun name hmem hsame => ?_
    have hother := Text.sameName_trans hsame hkey
    rw [hnames name hmem] at hother
    cases hother

/-- An entry that is named and then edited is a map from names without their case.  Its names differ
in more than case, one of them is `dn`, and `dn` holds the name that the entry was given.  Setting
an attribute sets it for every spelling of its name and for nothing else, and keeps the spelling
that is there; setting `dn` changes nothing.  Restricting to some names keeps what they name in any
case, and `dn`, and removes the rest. -/
theorem edited_named (d : String) (edits : List Edit) :
    let e := (named d).edited edits
    (e.attributes.keys.Pairwise fun key other => Text.sameName key other = false) ∧
    (e.attributes.keys.filter isIdentity = [identityAttribute] ∧
      e.attributes.get? identityAttribute = some [.text d] ∧ e.dn = d) ∧
    (∀ name values, isIdentity name = false →
      (∀ other, Text.sameName name other = true → (e.insert name values).get other = values) ∧
      (∀ other, Text.sameName name other = false →
        (e.insert name values).get other = e.get other) ∧
      ∀ key ∈ e.attributes.keys, Text.sameName key name = true →
        (e.insert name values).attributes.keys = e.attributes.keys) ∧
    (∀ name values, isIdentity name = true → e.insert name values = e) ∧
    ∀ names other,
      (isIdentity other = true ∨ (∃ name ∈ names, Text.sameName name other = true) →
        (e.retain names).get other = e.get other) ∧
      (isIdentity other = false → (∀ name ∈ names, Text.sameName name other = false) →
        (e.retain names).get other = []) := by
  intro e
  have hdiffer : e.NamesDiffer := ((Built.named d).namesDiffer).edited
  have hagree : e.NamesAgree := hdiffer.namesAgree
  have hdn : e.dn = d := dn_edited.trans (dn_named d)
  refine ⟨?_, ⟨hdiffer.filter_isIdentity, hdn ▸ e.get?_identity, hdn⟩, ?_, ?_, ?_⟩
  · refine e.attributes.nodup_keys.imp_of_mem fun hkey hother hne => ?_
    exact eq_false_of_ne_true fun hsame => hne (hdiffer _ hkey _ hother hsame)
  · intro name values hid
    refine ⟨fun other => hagree.get_insert hid, fun other hne => get_insert_of_ne hne values, ?_⟩
    exact fun key hkey => keys_insert_of_sameName hid hkey
  · exact fun name values hid => insert_of_identity hid values
  · intro names other
    refine ⟨fun hname => hagree.get_retain (hdiffer.keeps_spelling hname), fun hid hnames => ?_⟩
    exact get_retain_eq_nil fun key => keeps_eq_false hid hnames

/-- An attribute that was set as `Mail` is there for every spelling of it, and `DN` is no way to
rename an entry. -/
theorem edited_named_mail :
    let e := (named "cn=Ann").edited [.insert "Mail" [.text "a"], .retain ["MAIL"]]
    (e.insert "MAIL" [.text "b"]).get "mail" = [.text "b"] ∧
      (e.insert "MAIL" [.text "b"]).get "DN" = e.get "DN" ∧
      (e.insert "MAIL" [.text "b"]).attributes.keys = ["Mail", "dn"] ∧
      e.insert "DN" [.text "cn=Bob"] = e ∧
      (e.retain ["mail"]).get "MAIL" = [.text "a"] ∧ (e.retain ["cn"]).get "MAIL" = [] := by
  intro e
  obtain ⟨-, -, hinsert, hidentity, hretain⟩ :=
    edited_named "cn=Ann" [.insert "Mail" [.text "a"], .retain ["MAIL"]]
  obtain ⟨hsame, hother, hkeys⟩ := hinsert "MAIL" [.text "b"] (by decide)
  refine ⟨hsame "mail" (by decide), hother "DN" (by decide),
    hkeys "Mail" (by decide) (by decide), hidentity "DN" _ (by decide), ?_, ?_⟩
  · exact ((hretain ["mail"] "MAIL").1 (.inr ⟨"mail", by decide, by decide⟩)).trans (by decide)
  · exact (hretain ["cn"] "MAIL").2 (by decide) (by decide)

/-! ## Entries that were taken from maps -/

lemma attributes_of_ofMap {attributes : SortedMap (List Value)} (h : ofMap attributes = .ok e) :
    e.attributes = attributes := by
  unfold ofMap at h
  split at h
  · rw [← Except.ok.inj h]
  · cases h
  · cases h

/-- Lookups do not see case, every spelling of `dn` finds the name of the entry, and what is set
under a name is found under every spelling of it. -/
structure FindsEverySpelling (e : Entry) : Prop where
  get_congr : ∀ name other, Text.sameName name other = true → e.get name = e.get other
  get_identity : ∀ name, isIdentity name = true → e.get name = [.text e.dn]
  get_insert : ∀ name other values, isIdentity name = false → Text.sameName name other = true →
    (e.insert name values).get other = values

lemma NamesAgree.findsEverySpelling (h : e.NamesAgree) : e.FindsEverySpelling where
  get_congr _ _ := h.get_congr
  get_identity _ := h.get_identity
  get_insert _ _ _ := h.get_insert

/-- Two stored spellings of one name hide what is set under them from each other, and two stored
spellings of `dn` show what they hold. -/
lemma FindsEverySpelling.namesAgree (h : e.FindsEverySpelling) : e.NamesAgree := by
  intro key hkey other hother hsame
  cases hid : isIdentity key with
  | true =>
    right
    rw [get?_of_mem_keys hkey, get?_of_mem_keys hother, h.get_congr key other hsame]
    exact ⟨rfl, rfl⟩
  | false =>
    by_contra! hne
    have hspelling : e.spelling key = key := by
      rw [spelling, spelling?, get?_of_mem_keys hkey]
      rfl
    have hstored : (e.insert key (.bool true :: e.get other)).attributes.get? other =
        some (e.get other) := by
      rw [attributes_insert hid, hspelling, SortedMap.get?_insert_of_ne _ _ hne.1.symm,
        get?_of_mem_keys hother]
    have hfound := h.get_insert key other (.bool true :: e.get other) hid hsame
    rw [get?_of_mem_keys (mem_keys_of_get? hstored), hfound] at hstored
    exact List.cons_ne_self _ _ (Option.some.inj hstored)

/-- After any edits, an entry that was taken from a map finds what it holds under every spelling, if
and only if no two names of the map differ in case only, spellings of `dn` with the same values
aside.  In any case it keeps its name, and what is set under a name is found under that name. -/
theorem findsEverySpelling_iff {attributes : SortedMap (List Value)}
    (h : ofMap attributes = .ok e) :
    ((∀ edits, (e.edited edits).FindsEverySpelling) ↔
      ∀ key ∈ attributes.keys, ∀ other ∈ attributes.keys, Text.sameName key other = true →
        key = other ∨
          isIdentity key = true ∧ attributes.get? key = attributes.get? other) ∧
    ∀ edits, attributes.get? identityAttribute = some [.text (e.edited edits).dn] ∧
      (e.edited edits).get identityAttribute = [.text (e.edited edits).dn] ∧
      ∀ name values, isIdentity name = false →
        ((e.edited edits).insert name values).get name = values := by
  obtain rfl := attributes_of_ofMap h
  refine ⟨⟨fun hfinds => (hfinds []).namesAgree, fun hagree edits => ?_⟩, fun edits => ?_⟩
  · exact (NamesAgree.edited hagree).findsEverySpelling
  · have hidentity := get?_identity (e.edited edits)
    have hname : (e.edited edits).dn = e.dn := dn_edited
    refine ⟨hname ▸ e.get?_identity, ?_, fun name values hid => get_insert_self hid values⟩
    exact Option.some.inj ((get?_of_mem_keys (mem_keys_of_get? hidentity)).symm.trans hidentity)

/-- A map may give the name of its entry twice, if it is the same name. -/
theorem findsEverySpelling_repeated_dn :
    ∃ e, ofMap (.ofPairs [("DN", [.text "cn=Ann"]), ("Mail", []), ("dn", [.text "cn=Ann"])]) =
        .ok e ∧
      (∀ edits, (e.edited edits).FindsEverySpelling) ∧
      (e.edited [.insert "mail" [.text "a"], .retain ["MAIL"]]).get "maiL" = [.text "a"] := by
  let attributes : SortedMap (List Value) :=
    .ofPairs [("DN", [.text "cn=Ann"]), ("Mail", []), ("dn", [.text "cn=Ann"])]
  let e : Entry := ⟨attributes, "cn=Ann", by decide⟩
  have hfinds := (findsEverySpelling_iff (show ofMap attributes = .ok e from rfl)).1.2 (by decide)
  refine ⟨e, rfl, hfinds, ?_⟩
  exact ((hfinds _).get_congr "maiL" "Mail" (by decide)).trans (by decide)

/-- In a map, two spellings of a name can hold different values, also two spellings of `dn`. -/
theorem not_findsEverySpelling_of_two_spellings :
    ∃ e, ofMap (.ofPairs [("CN", [.text "a"]), ("DN", [.text "b"]), ("cn", [.text "c"]),
        ("dn", [.text "d"])]) = .ok e ∧
      ¬ e.FindsEverySpelling ∧ e.dn = "d" ∧ e.get "DN" = [.text "b"] ∧
      e.get "cn" ≠ e.get "CN" ∧ (e.insert "cn" [.text "e"]).get "CN" = [.text "a"] := by
  refine ⟨⟨_, "d", by decide⟩, rfl, fun h => ?_, by decide⟩
  exact absurd (h.get_identity "DN" (by decide)) (by decide)

end DirectoryQuery.Entry
