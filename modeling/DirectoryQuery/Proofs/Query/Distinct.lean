import DirectoryQuery.Proofs.Entry.Identity
import DirectoryQuery.Proofs.Query.Delivery
import DirectoryQuery.Proofs.Query.Sorting
import DirectoryQuery.Proofs.Text.Lowercase.AsciiCase

/-!
# Results without duplicates

A distinct result drops an entry when an earlier one has the same key.  A key holds sets of values
by the full lower case of names, and a lookup goes by ASCII case.  Full lower-casing brings together
at least the names that lookups bring together, so entries that no lookup tells apart have the same
key (`distinctKey_eq_of_get`).  The converse holds as long as no name of one entry has the lower
case of a name of the other that lookups tell from it.

What a key says of an entry in any case is which values are found under the names of one lower case,
all of them together (`Entry.Gathers`).  Entries have the same key if and only if they agree on
that.
-/

namespace DirectoryQuery

open Std

/-! ## Sets of values -/

namespace Value

variable {u v : Value} {set values : List Value}

/-- An ascending list without repetitions, which is how keys store sets. -/
def IsSet (values : List Value) : Prop :=
  values.Pairwise fun v w => v.compare w = .lt

instance : Std.Irrefl fun v w : Value => v.compare w = .lt where
  irrefl v h := by
    have hself : v.compare v = .eq := ReflCmp.compare_self
    rw [hself] at h
    cases h

instance : Std.Antisymm fun v w : Value => v.compare w = .lt where
  antisymm v w hvw hwv := by
    have hswap : v.compare w = (w.compare v).swap := OrientedCmp.eq_swap
    rw [hvw, hwv] at hswap
    cases hswap

lemma mem_insertInto : u ∈ v.insertInto set ↔ u = v ∨ u ∈ set := by
  induction set with
  | nil => exact List.mem_cons
  | cons w rest ih =>
    rw [insertInto]
    cases hcompare : v.compare w with
    | lt => exact List.mem_cons
    | eq =>
      obtain rfl := LawfulEqCmp.eq_of_compare hcompare
      rw [List.mem_cons, ← or_assoc, or_self]
    | gt => rw [List.mem_cons, ih, List.mem_cons, or_left_comm]

lemma IsSet.insertInto (h : IsSet set) (v : Value) : IsSet (v.insertInto set) := by
  induction set with
  | nil => exact List.pairwise_singleton ..
  | cons w rest ih =>
    obtain ⟨hw, hrest⟩ := List.pairwise_cons.1 h
    rw [Value.insertInto]
    cases hcompare : v.compare w with
    | lt =>
      refine List.pairwise_cons.2 ⟨fun u hu => ?_, h⟩
      obtain rfl | hu := List.mem_cons.1 hu
      · exact hcompare
      · exact TransCmp.lt_trans hcompare (hw u hu)
    | eq => exact h
    | gt =>
      refine List.pairwise_cons.2 ⟨fun u hu => ?_, ih hrest⟩
      obtain rfl | hu := mem_insertInto.1 hu
      · exact OrientedCmp.gt_iff_lt.1 hcompare
      · exact hw u hu

lemma mem_foldl_insertInto :
    u ∈ values.foldl (fun set v => v.insertInto set) set ↔ u ∈ set ∨ u ∈ values := by
  induction values generalizing set with
  | nil => simp
  | cons v values ih =>
    rw [List.foldl_cons, ih, mem_insertInto, List.mem_cons, or_assoc, or_left_comm]

lemma IsSet.foldl_insertInto (h : IsSet set) (values : List Value) :
    IsSet (values.foldl (fun set v => v.insertInto set) set) := by
  induction values generalizing set with
  | nil => exact h
  | cons v values ih => exact ih (h.insertInto v)

end Value

namespace Entry

variable {a b e : Entry} {k k' : DistinctKey} {name folded : String} {v : Value}

/-! ## Keys -/

/-- The values that a key holds under a name. -/
def keyed (k : DistinctKey) (folded : String) : List Value :=
  (k.get? folded).getD []

/-- A key holds sets of values, and no empty ones. -/
def IsKey (k : DistinctKey) : Prop :=
  ∀ folded values, k.get? folded = some values → values ≠ [] ∧ Value.IsSet values

lemma IsKey.isSet_keyed (h : IsKey k) (folded : String) : Value.IsSet (keyed k folded) := by
  rw [keyed]
  cases hvalues : k.get? folded with
  | none => exact List.Pairwise.nil
  | some values => exact (h folded values hvalues).2

/-- Keys that hold the same values are the same. -/
lemma IsKey.ext (h : IsKey k) (h' : IsKey k')
    (hmem : ∀ folded v, v ∈ keyed k folded ↔ v ∈ keyed k' folded) : k = k' := by
  apply SortedMap.ext_get?
  intro folded
  have hsame : keyed k folded = keyed k' folded :=
    (h.isSet_keyed folded).eq_of_mem_iff (h'.isSet_keyed folded) (hmem folded)
  rw [keyed, keyed] at hsame
  cases hk : k.get? folded with
  | none =>
    cases hk' : k'.get? folded with
    | none => rfl
    | some values =>
      rw [hk, hk'] at hsame
      exact absurd hsame.symm (h' folded values hk').1
  | some values =>
    cases hk' : k'.get? folded with
    | none =>
      rw [hk, hk'] at hsame
      exact absurd hsame (h folded values hk).1
    | some values' =>
      rw [hk, hk'] at hsame
      exact congrArg some hsame

lemma mem_keyed_addToKey {pair : String × List Value} :
    v ∈ keyed (addToKey k pair) folded ↔
      v ∈ keyed k folded ∨
        isIdentity pair.1 = false ∧ Text.lowercase pair.1 = folded ∧ v ∈ pair.2 := by
  rw [addToKey]
  split_ifs with hskipped
  · obtain hid | hempty := Bool.or_eq_true_iff.1 hskipped
    · simp [hid]
    · simp [List.isEmpty_iff.1 hempty]
  · obtain ⟨hid, -⟩ := Bool.or_eq_false_iff.1 (eq_false_of_ne_true hskipped)
    by_cases hfolded : folded = Text.lowercase pair.1
    · subst hfolded
      simp only [keyed, SortedMap.get?_insert_self, Option.getD_some, Value.mem_foldl_insertInto,
        hid, true_and]
    · simp only [keyed, SortedMap.get?_insert_of_ne _ _ hfolded, Ne.symm hfolded, false_and,
        and_false, or_false]

lemma IsKey.addToKey (h : IsKey k) (pair : String × List Value) : IsKey (addToKey k pair) := by
  rw [Entry.addToKey]
  split_ifs with hskipped
  · exact h
  · intro folded values hvalues
    rw [SortedMap.get?_insert] at hvalues
    split_ifs at hvalues with hfolded
    · obtain ⟨-, hempty⟩ := Bool.or_eq_false_iff.1 (eq_false_of_ne_true hskipped)
      obtain ⟨v, hv⟩ := List.exists_mem_of_ne_nil _ (List.isEmpty_eq_false_iff.1 hempty)
      obtain rfl := Option.some.inj hvalues
      exact ⟨List.ne_nil_of_mem (Value.mem_foldl_insertInto.2 (.inr hv)),
        (h.isSet_keyed _).foldl_insertInto pair.2⟩
    · exact h folded values hvalues

lemma mem_keyed_foldl {pairs : List (String × List Value)} :
    v ∈ keyed (pairs.foldl addToKey k) folded ↔
      v ∈ keyed k folded ∨ ∃ pair ∈ pairs,
        isIdentity pair.1 = false ∧ Text.lowercase pair.1 = folded ∧ v ∈ pair.2 := by
  induction pairs generalizing k with
  | nil => simp
  | cons pair pairs ih =>
    rw [List.foldl_cons, ih, mem_keyed_addToKey, List.exists_mem_cons_iff, or_assoc]

lemma isKey_distinctKey (e : Entry) : IsKey e.distinctKey := by
  have hfold : ∀ (pairs : List (String × List Value)) (k : DistinctKey), IsKey k →
      IsKey (pairs.foldl addToKey k) := by
    intro pairs
    induction pairs with
    | nil => exact fun k h => h
    | cons pair pairs ih => exact fun k h => ih _ (h.addToKey pair)
  exact hfold _ _ (by nofun)

/-! ## What a key says of an entry -/

/-- The value is found under a name of this lower case. -/
def Gathers (e : Entry) (folded : String) (v : Value) : Prop :=
  ∃ name, isIdentity name = false ∧ Text.lowercase name = folded ∧ v ∈ e.get name

/-- A key holds what lookups gather. -/
lemma mem_keyed_distinctKey : v ∈ keyed e.distinctKey folded ↔ e.Gathers folded v := by
  rw [distinctKey, mem_keyed_foldl]
  constructor
  · rintro (hempty | ⟨⟨key, values⟩, hpair, hid, hfolded, hv⟩)
    · cases hempty
    · have hvalues : e.attributes.get? key = some values := SortedMap.mem_pairs_iff.1 hpair
      rw [get?_of_mem_keys (mem_keys_of_get? hvalues)] at hvalues
      exact ⟨key, hid, hfolded, Option.some.inj hvalues ▸ hv⟩
  · rintro ⟨name, hid, rfl, hv⟩
    refine .inr ⟨(e.spelling name, e.get name), ?_, ?_, ?_, hv⟩
    · exact SortedMap.mem_pairs_iff.2 (get?_spelling_of_mem hv)
    · rw [isIdentity_spelling, hid]
    · exact Text.lowercase_eq_of_sameName (e.sameName_spelling name)

lemma distinctKey_eq_iff_gathers :
    a.distinctKey = b.distinctKey ↔ ∀ folded v, a.Gathers folded v ↔ b.Gathers folded v := by
  simp only [← mem_keyed_distinctKey]
  exact ⟨fun h folded v => by rw [h], (isKey_distinctKey a).ext (isKey_distinctKey b)⟩

/-- Entries that no lookup tells apart, up to the order and the number of values, have the same
key. -/
lemma distinctKey_eq_of_get
    (h : ∀ name, isIdentity name = false → ∀ v, v ∈ a.get name ↔ v ∈ b.get name) :
    a.distinctKey = b.distinctKey :=
  distinctKey_eq_iff_gathers.2 fun _ v =>
    exists_congr fun name => and_congr_right fun hid => and_congr_right fun _ => h name hid v

/-- No name of one entry has the lower case of a name of the other that lookups tell from it. -/
def FoldsAlike (a b : Entry) : Prop :=
  ∀ key ∈ a.attributes.keys, ∀ other ∈ b.attributes.keys,
    Text.lowercase key = Text.lowercase other → Text.sameName key other = true

instance : Decidable (FoldsAlike a b) :=
  inferInstanceAs (Decidable (∀ key ∈ _, ∀ other ∈ _, _ → _))

lemma FoldsAlike.symm (h : FoldsAlike a b) : FoldsAlike b a := by
  intro key hkey other hother hfolded
  rw [Text.sameName_comm]
  exact h other hother key hkey hfolded.symm

/-- Where the names fold alike, what one entry holds of a key is found in the other by lookup. -/
lemma FoldsAlike.mem_get (h : FoldsAlike a b) (hb : b.NamesAgree)
    (hkeys : a.distinctKey = b.distinctKey) (hid : isIdentity name = false) (hv : v ∈ a.get name) :
    v ∈ b.get name := by
  obtain ⟨name', -, hfolded, hv'⟩ :=
    (distinctKey_eq_iff_gathers.1 hkeys (Text.lowercase name) v).1 ⟨name, hid, rfl, hv⟩
  have hstored := get?_spelling_of_mem hv
  have hstored' := get?_spelling_of_mem hv'
  have hsame : Text.sameName (a.spelling name) (b.spelling name') = true := by
    apply h _ (mem_keys_of_get? hstored) _ (mem_keys_of_get? hstored')
    rw [Text.lowercase_eq_of_sameName (a.sameName_spelling name),
      Text.lowercase_eq_of_sameName (b.sameName_spelling name'), hfolded]
  rw [Text.sameName_comm] at hsame
  rw [hb.get_eq hstored' (Text.sameName_trans hsame (a.sameName_spelling name))]
  exact hv'

/-! ## What a distinct result drops -/

/-- The last of several entries is dropped just if its key was seen or is that of another one. -/
lemma unseen_concat (seen : List DistinctKey) (es : List Entry) (e : Entry) :
    unseen seen (es ++ [e]) = unseen seen es ++
      if e.distinctKey ∈ seen ∨ ∃ c ∈ es, c.distinctKey = e.distinctKey then [] else [e] := by
  induction es generalizing seen with
  | nil => simp [unseen]
  | cons c es ih =>
    rw [List.cons_append, unseen, unseen]
    by_cases hseen : seen.contains c.distinctKey = true
    · rw [if_pos hseen, if_pos hseen, ih]
      refine congrArg _ (if_congr ?_ rfl rfl)
      rw [List.exists_mem_cons_iff, or_left_comm]
      exact (or_iff_right_of_imp fun hsame => .inl (hsame ▸ List.contains_iff_mem.1 hseen)).symm
    · rw [if_neg hseen, if_neg hseen, ih, List.cons_append]
      refine congrArg _ (congrArg _ (if_congr ?_ rfl rfl))
      rw [List.exists_mem_cons_iff, List.mem_cons, eq_comm, or_assoc, or_left_comm]

/-- Entries have the same key if and only if the same values are found under the names of every
lower case.  They do if the same values are found under every name, and where their names fold alike
this is the only case.  A distinct result drops just the entries with the key of an earlier one. -/
theorem distinctKey_eq_iff (a b : Entry) :
    (a.distinctKey = b.distinctKey ↔ ∀ folded v, a.Gathers folded v ↔ b.Gathers folded v) ∧
    ((∀ name, isIdentity name = false → ∀ v, v ∈ a.get name ↔ v ∈ b.get name) →
      a.distinctKey = b.distinctKey) ∧
    (a.Built → b.Built → FoldsAlike a b →
      (a.distinctKey = b.distinctKey ↔
        ∀ name, isIdentity name = false → ∀ v, v ∈ a.get name ↔ v ∈ b.get name)) ∧
    ∀ es, Stage.distinct.apply (es ++ [a]) = Stage.distinct.apply es ++
      if ∃ c ∈ es, c.distinctKey = a.distinctKey then [] else [a] := by
  refine ⟨distinctKey_eq_iff_gathers, distinctKey_eq_of_get, fun ha hb hfolds => ?_, fun es => ?_⟩
  · refine ⟨fun hkeys name hid v => ?_, distinctKey_eq_of_get⟩
    constructor
    · exact hfolds.mem_get hb.namesDiffer.namesAgree hkeys hid
    · exact hfolds.symm.mem_get ha.namesDiffer.namesAgree hkeys.symm hid
  · rw [Stage.apply, Stage.apply, unseen_concat]
    refine congrArg _ (if_congr ?_ rfl rfl)
    rw [or_iff_right List.not_mem_nil]

/-- Neither the order of values nor their number counts, nor the case of a name, nor an attribute
without values. -/
theorem distinctKey_eq_mail :
    let a := ((named "uid=a").insert "mail" [.text "x", .text "y"]).insert "cn" []
    let b := (named "uid=b").insert "MAIL" [.text "y", .text "x", .text "y"]
    a.distinctKey = b.distinctKey ∧
      (∀ name, isIdentity name = false → ∀ v, v ∈ a.get name ↔ v ∈ b.get name) ∧
      Stage.distinct.apply [b, a] = [b] := by
  intro a b
  have hkeys : a.distinctKey = b.distinctKey := by decide +kernel
  obtain ⟨-, -, hsame, hdrop⟩ := distinctKey_eq_iff a b
  refine ⟨hkeys, ?_, ?_⟩
  · refine (hsame ?_ ?_ (by decide +kernel)).1 hkeys
    · exact ((Built.named _).insert _ _).insert _ _
    · exact (Built.named _).insert _ _
  · have hlast := hdrop [b]
    rw [if_pos ⟨b, List.mem_singleton_self b, hkeys.symm⟩] at hlast
    exact hlast

/-- Two letters with one lower case make two attributes with one place in the key. -/
theorem distinctKey_eq_of_accent :
    let a := (named "uid=a").insert "É" [.text "x"]
    let b := (named "uid=b").insert "é" [.text "x"]
    a.Built ∧ b.Built ∧ a.distinctKey = b.distinctKey ∧ isIdentity "É" = false ∧
      a.get "É" = [.text "x"] ∧ b.get "É" = [] ∧ Stage.distinct.apply [a, b] = [a] := by
  intro a b
  refine ⟨(Built.named _).insert _ _, (Built.named _).insert _ _, ?_⟩
  decide +kernel

end Entry

end DirectoryQuery
