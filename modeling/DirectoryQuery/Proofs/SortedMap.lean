import DirectoryQuery.SortedMap
import Mathlib.Data.List.Sort
import Mathlib.Tactic.Lemma

/-!
# Maps are their lookups

A map in the order of its keys holds exactly the pairs that its lookups give (`mem_pairs_iff`), and
no key twice.  Two maps with the same lookups are therefore the same list of pairs (`ext_get?`), and
a map is collected from pairs with distinct keys if these are its own in some order
(`ofPairs_eq_iff`).
-/

namespace DirectoryQuery.SortedMap

variable {β : Type} {m m' : SortedMap β} {key : String} {value : β}

instance : Std.Irrefl fun a b : String × β => a.1 < b.1 where
  irrefl a := String.lt_irrefl a.1

instance : Std.Antisymm fun a b : String × β => a.1 < b.1 where
  antisymm _ _ hab hba := absurd hba (String.lt_asymm hab)

lemma pairwise_keys (m : SortedMap β) : m.keys.Pairwise (· < ·) :=
  List.pairwise_map.2 m.ascending

lemma nodup_keys (m : SortedMap β) : m.keys.Nodup :=
  m.pairwise_keys.imp String.ne_of_lt

/-- A map holds the pairs that its lookups give. -/
lemma mem_pairs_iff : (key, value) ∈ m.pairs ↔ m.get? key = some value := by
  constructor
  · intro hmem
    obtain ⟨pair, hpair⟩ : ∃ pair, m.pairs.find? (fun p => p.1 == key) = some pair :=
      Option.isSome_iff_exists.1 (List.find?_isSome.2 ⟨_, hmem, beq_self_eq_true key⟩)
    have hkey : pair.1 = key := by simpa using List.find?_some hpair
    have hsame : pair = (key, value) :=
      List.inj_on_of_nodup_map m.nodup_keys (List.mem_of_find?_eq_some hpair) hmem hkey
    rw [get?, hpair, hsame]
    rfl
  · intro hget
    obtain ⟨pair, hpair, rfl⟩ := Option.map_eq_some_iff.1 hget
    have hkey : pair.1 = key := by simpa using List.find?_some hpair
    rw [← hkey]
    exact List.mem_of_find?_eq_some hpair

lemma mem_keys_iff : key ∈ m.keys ↔ ∃ value, m.get? key = some value := by
  simp only [← mem_pairs_iff]
  simp [keys]

/-- Maps with the same lookups are the same. -/
theorem ext_get? (h : ∀ key, m.get? key = m'.get? key) : m = m' := by
  have hpairs : m.pairs = m'.pairs :=
    m.ascending.eq_of_mem_iff m'.ascending fun pair => by
      rw [mem_pairs_iff, mem_pairs_iff, h]
  cases m
  cases m'
  cases hpairs
  rfl

lemma mem_keys_insert {k : String} : k ∈ (m.insert key value).keys ↔ k = key ∨ k ∈ m.keys := by
  rw [mem_keys_iff, mem_keys_iff, get?_insert]
  split_ifs with hk
  · simp [hk]
  · simp [hk]

/-- Replacing a value leaves the keys as they are. -/
lemma keys_insert_of_mem (h : key ∈ m.keys) : (m.insert key value).keys = m.keys := by
  refine (m.insert key value).pairwise_keys.eq_of_mem_iff m.pairwise_keys fun k => ?_
  rw [mem_keys_insert, or_iff_right_of_imp]
  rintro rfl
  exact h

lemma mem_keys_filterKeys {keep : String → Bool} {k : String} :
    k ∈ (m.filterKeys keep).keys ↔ k ∈ m.keys ∧ keep k = true := by
  rw [mem_keys_iff, mem_keys_iff, get?_filterKeys]
  split_ifs with hk
  · simp [hk]
  · simp [hk]

/-! ## Collecting pairs -/

lemma perm_insertPair {pairs : List (String × β)} (h : key ∉ pairs.map (·.1)) :
    (insertPair key value pairs).Perm ((key, value) :: pairs) := by
  induction pairs with
  | nil => exact .refl _
  | cons pair rest ih =>
    rw [List.map_cons, List.mem_cons, not_or] at h
    rw [insertPair, if_neg h.1]
    split_ifs
    · exact .refl _
    · exact ((ih h.2).cons pair).trans (.swap ..)

/-- A map that is collected from pairs with distinct keys holds these pairs. -/
lemma perm_ofPairs {pairs : List (String × β)} (h : (pairs.map (·.1)).Nodup) :
    (ofPairs pairs).pairs.Perm pairs := by
  have hfold : ∀ m : SortedMap β, ((m.pairs ++ pairs).map (·.1)).Nodup →
      (pairs.foldl (fun m p => m.insert p.1 p.2) m).pairs.Perm (m.pairs ++ pairs) := by
    clear h
    induction pairs with
    | nil => exact fun m _ => .of_eq (List.append_nil _).symm
    | cons pair rest ih =>
      intro m hnodup
      have hfresh : pair.1 ∉ m.pairs.map (·.1) := by
        rw [List.map_append] at hnodup
        exact fun hmem => List.disjoint_of_nodup_append hnodup hmem List.mem_cons_self
      have hinsert : ((m.insert pair.1 pair.2).pairs ++ rest).Perm (m.pairs ++ pair :: rest) :=
        ((perm_insertPair hfresh).append_right rest).trans List.perm_middle.symm
      exact (ih _ ((hinsert.map _).nodup_iff.2 hnodup)).trans hinsert
  exact hfold empty h

lemma ofPairs_eq_iff {pairs : List (String × β)} (h : (pairs.map (·.1)).Nodup) :
    ofPairs pairs = m ↔ pairs.Perm m.pairs := by
  constructor
  · rintro rfl
    exact (perm_ofPairs h).symm
  · intro hperm
    refine ext_get? fun key => Option.ext fun value => ?_
    rw [← mem_pairs_iff, ← mem_pairs_iff, ((perm_ofPairs h).trans hperm).mem_iff]

end DirectoryQuery.SortedMap
