/-!
# Maps in the order of their keys

A map from strings is a list of pairs with strictly ascending keys, compared by code point.  The
order is part of the type, so two maps with the same lookups are equal and a listing needs no
sorting.  `get?_insert` says what an insertion does to every lookup, and `get?_filterKeys` what a
restriction does.
-/

namespace DirectoryQuery

/-- Puts a pair into an ascending list, in place of a pair with the same key. -/
def insertPair {β : Type} (key : String) (value : β) :
    List (String × β) → List (String × β)
  | [] => [(key, value)]
  | pair :: rest =>
    if key < pair.1 then (key, value) :: pair :: rest
    else if key = pair.1 then (key, value) :: rest
    else pair :: insertPair key value rest

/-- Strictly ascending keys. -/
def Ascending {β : Type} (pairs : List (String × β)) : Prop :=
  pairs.Pairwise fun a b => a.1 < b.1

theorem mem_insertPair {β : Type} {key : String} {value : β} {pair : String × β}
    {pairs : List (String × β)} (h : pair ∈ insertPair key value pairs) :
    pair = (key, value) ∨ pair ∈ pairs := by
  induction pairs with
  | nil => simpa [insertPair] using h
  | cons p pairs ih =>
    rw [insertPair] at h
    split at h
    · simpa using h
    · split at h
      · rcases List.mem_cons.1 h with h | h
        · exact .inl h
        · exact .inr (List.mem_cons_of_mem _ h)
      · rcases List.mem_cons.1 h with h | h
        · exact .inr (h ▸ List.mem_cons_self)
        · exact (ih h).imp id (List.mem_cons_of_mem _)

theorem lt_of_not_lt_of_ne {a b : String} (h : ¬ a < b) (hne : a ≠ b) : b < a := by
  rcases String.le_total a b with hle | hle
  · exact absurd (String.le_antisymm hle (String.not_lt.1 h)) hne
  · exact String.not_le.1 fun hle' => hne (String.le_antisymm hle' hle)

theorem ascending_insertPair {β : Type} {pairs : List (String × β)} (h : Ascending pairs)
    (key : String) (value : β) : Ascending (insertPair key value pairs) := by
  induction pairs with
  | nil => simp [insertPair, Ascending]
  | cons p pairs ih =>
    obtain ⟨hp, hps⟩ := List.pairwise_cons.1 h
    rw [insertPair]
    split
    · rename_i hlt
      refine List.pairwise_cons.2 ⟨fun a ha => ?_, h⟩
      rcases List.mem_cons.1 ha with rfl | ha
      · exact hlt
      · exact String.lt_trans hlt (hp a ha)
    · split
      · rename_i heq
        exact List.pairwise_cons.2 ⟨fun a ha => heq ▸ hp a ha, hps⟩
      · rename_i hnlt hne
        refine List.pairwise_cons.2 ⟨fun a ha => ?_, ih hps⟩
        rcases mem_insertPair ha with rfl | ha
        · exact lt_of_not_lt_of_ne hnlt hne
        · exact hp a ha

/-- A map from strings that lists its keys in ascending order. -/
structure SortedMap (β : Type) where
  pairs : List (String × β)
  ascending : Ascending pairs
deriving DecidableEq

namespace SortedMap

variable {β : Type}

/-- The map without keys. -/
def empty : SortedMap β :=
  ⟨[], List.Pairwise.nil⟩

/-- The value at a key. -/
def get? (m : SortedMap β) (key : String) : Option β :=
  (m.pairs.find? fun p => p.1 == key).map (·.2)

/-- Sets the value at a key. -/
def insert (m : SortedMap β) (key : String) (value : β) : SortedMap β :=
  ⟨insertPair key value m.pairs, ascending_insertPair m.ascending key value⟩

/-- Collects pairs into a map; the last of several pairs with one key wins. -/
def ofPairs (pairs : List (String × β)) : SortedMap β :=
  pairs.foldl (fun m p => m.insert p.1 p.2) empty

/-- Keeps the keys that pass a test. -/
def filterKeys (m : SortedMap β) (keep : String → Bool) : SortedMap β :=
  ⟨m.pairs.filter fun p => keep p.1, m.ascending.sublist List.filter_sublist⟩

/-- Removes a key. -/
def erase (m : SortedMap β) (key : String) : SortedMap β :=
  m.filterKeys (· != key)

/-- The keys in ascending order. -/
def keys (m : SortedMap β) : List String :=
  m.pairs.map (·.1)

/-- The number of keys. -/
def size (m : SortedMap β) : Nat :=
  m.pairs.length

theorem find?_insertPair (key : String) (value : β) (pairs : List (String × β)) (k : String) :
    ((insertPair key value pairs).find? fun p => p.1 == k).map (·.2) =
      if k = key then some value else (pairs.find? fun p => p.1 == k).map (·.2) := by
  induction pairs with
  | nil =>
    by_cases h : k = key
    · simp [insertPair, h]
    · simp [insertPair, h, Ne.symm h]
  | cons p pairs ih =>
    rw [insertPair]
    split
    · by_cases h : k = key
      · simp [h]
      · simp [h, Ne.symm h]
    · split
      · rename_i heq
        by_cases h : k = key
        · simp [h]
        · have hp : ¬ p.1 = k := fun e => h (by rw [← e, heq])
          simp [h, Ne.symm h, hp]
      · rename_i hne
        by_cases hp : p.1 = k
        · have h : ¬ k = key := fun e => hne (by rw [hp, e])
          simp [hp, h]
        · simpa [List.find?_cons, hp] using ih

@[simp] theorem get?_empty (key : String) : (empty : SortedMap β).get? key = none := rfl

theorem get?_insert (m : SortedMap β) (key k : String) (value : β) :
    (m.insert key value).get? k = if k = key then some value else m.get? k :=
  find?_insertPair key value m.pairs k

@[simp] theorem get?_insert_self (m : SortedMap β) (key : String) (value : β) :
    (m.insert key value).get? key = some value := by
  simp [get?_insert]

theorem get?_insert_of_ne (m : SortedMap β) {key k : String} (value : β) (h : k ≠ key) :
    (m.insert key value).get? k = m.get? k := by
  simp [get?_insert, h]

theorem get?_filterKeys (m : SortedMap β) (keep : String → Bool) (key : String) :
    (m.filterKeys keep).get? key = if keep key then m.get? key else none := by
  obtain ⟨pairs, h⟩ := m
  simp only [filterKeys, get?]
  clear h
  induction pairs with
  | nil => simp
  | cons p pairs ih =>
    by_cases hp : p.1 = key
    · subst hp
      by_cases hk : keep p.1
      · simp [hk]
      · simpa [List.filter_cons, hk] using ih
    · by_cases hk : keep p.1
      · simpa [List.filter_cons, List.find?_cons, hk, hp] using ih
      · simpa [List.filter_cons, List.find?_cons, hk, hp] using ih

theorem get?_erase (m : SortedMap β) (key k : String) :
    (m.erase key).get? k = if k = key then none else m.get? k := by
  rw [erase, get?_filterKeys]
  by_cases h : k = key <;> simp [h]

end SortedMap

end DirectoryQuery
