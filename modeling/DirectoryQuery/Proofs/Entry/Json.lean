import DirectoryQuery.Entry.Json
import DirectoryQuery.Proofs.Entry.Edits
import DirectoryQuery.Proofs.Filter.Json
import Mathlib.Data.List.Perm.Basic

/-!
# Entries written as JSON and read back

An entry is written as an object with a field for each attribute, and an object whose fields have
distinct names reads as an entry exactly if its fields are those of the entry in some order
(`Entry.ofJson?_object_iff`).  So every entry is read back as it was, and whatever reads as an entry
is written again as it stood, up to the order of its fields.

Values carry no tag.  Among the values of an attribute that makes no difference, since each kind of
value has JSON forms of its own: a form that reads as a value is the form of that value
(`Value.ofJson?_eq_some_iff`).  Only an operand, which may be a list of values itself, can be
mistaken for bytes.
-/

namespace DirectoryQuery

/-- Where reading one element is the inverse of writing one, reading a list is the inverse of
writing a list. -/
lemma mapM_eq_some_iff_map {α β : Type} {read : α → Option β} {write : β → α}
    (h : ∀ a b, read a = some b ↔ a = write b) {as : List α} {bs : List β} :
    as.mapM read = some bs ↔ as = bs.map write := by
  simp only [mapM_eq_some_iff, h]
  rw [← List.forall₂_map_right_iff, List.forall₂_eq_eq_eq]

namespace Value

lemma byteOfJson?_eq_some_iff (j : Json) (x : UInt8) :
    byteOfJson? j = some x ↔ j = .integer x.toNat := by
  constructor
  · intro h
    cases j with
    | integer n =>
      rw [byteOfJson?, Option.ite_none_right_eq_some] at h
      obtain ⟨⟨hlow, hhigh⟩, hx⟩ := h
      have hnat : (UInt8.ofNat n.toNat).toNat = n.toNat :=
        UInt8.toNat_ofNat_of_lt' (show n.toNat < 256 by omega)
      rw [← Option.some.inj hx, hnat, Int.toNat_of_nonneg hlow]
    | _ => cases h
  · rintro rfl
    exact byteOfJson?_integer x

lemma int64OfJson?_eq_some_iff (n : Int) (m : Int64) :
    int64OfJson? (.integer n) = some m ↔ n = m.toInt := by
  rw [int64OfJson?, Option.ite_none_right_eq_some]
  constructor
  · rintro ⟨⟨hlow, hhigh⟩, hm⟩
    have hmin : Int64.minValue.toInt = -2 ^ 63 := by decide
    have hmax : Int64.maxValue.toInt = 2 ^ 63 - 1 := by decide
    rw [← Option.some.inj hm, Int64.toInt_ofInt_of_le (by omega) (by omega)]
  · rintro rfl
    exact ⟨⟨m.minValue_le_toInt, m.toInt_le⟩, congrArg some m.ofInt_toInt⟩

/-- A value is read from its own JSON form and from no other. -/
lemma ofJson?_eq_some_iff (j : Json) (v : Value) : ofJson? j = some v ↔ j = v.toJson := by
  constructor
  · intro h
    cases j with
    | bool b => exact congrArg toJson (Option.some.inj h)
    | integer n =>
      obtain ⟨m, hm, rfl⟩ := Option.map_eq_some_iff.1 h
      exact congrArg Json.integer ((int64OfJson?_eq_some_iff n m).1 hm)
    | text s => exact congrArg toJson (Option.some.inj h)
    | list items =>
      obtain ⟨b, hb, rfl⟩ := Option.map_eq_some_iff.1 h
      exact congrArg Json.list ((mapM_eq_some_iff_map byteOfJson?_eq_some_iff).1 hb)
    | null | real | object _ => cases h
  · rintro rfl
    exact ofJson?_toJson v

lemma listOfJson?_eq_some_iff (j : Json) (vs : List Value) :
    listOfJson? j = some vs ↔ j = listToJson vs := by
  constructor
  · intro h
    cases j with
    | list items => exact congrArg Json.list ((mapM_eq_some_iff_map ofJson?_eq_some_iff).1 h)
    | _ => cases h
  · rintro rfl
    exact listOfJson?_listToJson vs

end Value

namespace Entry

variable {e : Entry}

/-- The JSON form of one attribute. -/
def attributeToJson (pair : String × List Value) : String × Json :=
  (pair.1, Value.listToJson pair.2)

/-- The fields of the JSON form of an entry. -/
def jsonFields (e : Entry) : List (String × Json) :=
  e.toList.map attributeToJson

lemma toJson_eq (e : Entry) : e.toJson = .object e.jsonFields := rfl

lemma attributeOfJson?_eq_some_iff (field : String × Json) (pair : String × List Value) :
    attributeOfJson? field = some pair ↔ field = attributeToJson pair := by
  obtain ⟨name, j⟩ := field
  obtain ⟨other, vs⟩ := pair
  simp [attributeOfJson?, attributeToJson, Value.listOfJson?_eq_some_iff, and_comm]

lemma ofMap_eq_ok_iff {attributes : SortedMap (List Value)} :
    ofMap attributes = .ok e ↔ attributes = e.attributes := by
  constructor
  · exact fun h => (attributes_of_ofMap h).symm
  · rintro rfl
    obtain ⟨d, hd⟩ := e.identified
    unfold ofMap
    split
    · rfl
    · rename_i hother hsome
      exact absurd (Option.some.inj (hsome.symm.trans hd)) (hother d)
    · rename_i hnone
      exact absurd (hnone.symm.trans hd) nofun

lemma nodup_jsonFields (e : Entry) : (e.jsonFields.map (·.1)).Nodup := by
  rw [jsonFields, List.map_map]
  exact e.attributes.nodup_keys

/-- An object with distinct names reads as the entry that has its fields. -/
lemma ofJson?_object_iff {fields : List (String × Json)} (h : (fields.map (·.1)).Nodup) :
    ofJson? (.object fields) = some e ↔ fields.Perm e.jsonFields := by
  have hread : ofJson? (.object fields) = some e ↔
      ∃ pairs, fields = pairs.map attributeToJson ∧ SortedMap.ofPairs pairs = e.attributes := by
    simp [ofJson?, Option.bind_eq_some_iff, mapM_eq_some_iff_map attributeOfJson?_eq_some_iff,
      toOption_eq_some_iff, ofMap_eq_ok_iff]
  have hnames (pairs : List (String × List Value)) (hfields : fields = pairs.map attributeToJson) :
      (pairs.map (·.1)).Nodup := by
    rw [hfields, List.map_map] at h
    exact h
  rw [hread, jsonFields, ← congrFun₂ (List.eq_map_comp_perm attributeToJson)]
  exact exists_congr fun pairs => and_congr_right fun hfields =>
    SortedMap.ofPairs_eq_iff (hnames pairs hfields)

/-- An entry is written as an object with distinct names and read back as it was.  Nothing but an
object reads as an entry, and an object with distinct names reads as the entry exactly if it is what
the entry is written as, up to the order of the fields. -/
theorem json_round_trip (e : Entry) :
    e.toJson = .object e.jsonFields ∧ (e.jsonFields.map (·.1)).Nodup ∧
    ofJson? e.toJson = some e ∧
    (∀ j, ofJson? j = some e → ∃ fields, j = .object fields) ∧
    ∀ fields, (fields.map (·.1)).Nodup →
      (ofJson? (.object fields) = some e ↔ fields.Perm e.jsonFields) := by
  refine ⟨e.toJson_eq, e.nodup_jsonFields, ?_, fun j hj => ?_, fun fields h => ofJson?_object_iff h⟩
  · rw [toJson_eq]
    exact (ofJson?_object_iff e.nodup_jsonFields).2 (.refl _)
  · cases j with
    | object fields => exact ⟨fields, rfl⟩
    | _ => cases hj

/-- The fields stand in another order, and among the values are the least and the greatest integer,
blank text and no bytes. -/
theorem json_round_trip_shuffled :
    let e := ((Entry.named "uid=ann").insert "limits"
      [.int Int64.minValue, .int Int64.maxValue, .bool false]).insert "Notes" [.text "", .bytes []]
    let limits := Json.list
      [.integer Int64.minValue.toInt, .integer Int64.maxValue.toInt, .bool false]
    let fields := [("limits", limits), ("Notes", .list [.text "", .list []]),
      ("dn", .list [.text "uid=ann"])]
    (fields.map (·.1)).Nodup ∧ fields ≠ e.jsonFields ∧ ofJson? (.object fields) = some e ∧
      ofJson? e.toJson = some e := by
  intro e limits fields
  have hdistinct : (fields.map (·.1)).Nodup := by decide
  have hwritten : e.jsonFields = [("Notes", .list [.text "", .list []]),
      ("dn", .list [.text "uid=ann"]), ("limits", limits)] := rfl
  obtain ⟨-, -, hread, -, hobject⟩ := json_round_trip e
  refine ⟨hdistinct, ?_, (hobject fields hdistinct).2 ?_, hread⟩
  · rw [hwritten]
    exact fun hsame => absurd (congrArg Prod.fst (List.cons.inj hsame).1) (by decide)
  · rw [hwritten]
    exact (List.Perm.swap ..).trans ((List.Perm.swap ..).cons _)

end Entry

end DirectoryQuery
