import DirectoryQuery.Proofs.Query.Freshness

/-!
# Numbers of instances

Every operation numbers the instances that it makes with numbers that are still free, and puts them
on top of what it shares with the query that it was given.  So along a chain the numbers decrease
(`Query.ComesFrom.numbered`), and the instance on top of a chain has its number for itself
(`Query.Numbered.eq_of_mem_levels`).
-/

namespace DirectoryQuery.Query

open DirectoryQuery.Derivation

variable {q p : Query} {next : Nat}

/-- Every instance has a greater number than those below it. -/
def Numbered : Query → Prop
  | .empty | .search _ _ => True
  | .staged tag _ below => below.All (fun t => t.id < tag.id) ∧ below.Numbered

/-- The instances are numbered, and the counter is behind their numbers. -/
def Numbers (q : Query) (next : Nat) : Prop :=
  q.All (fun tag => tag.id < next) ∧ q.Numbered

lemma Numbers.mono (h : Numbers q next) {n : Nat} (hn : next ≤ n) : Numbers q n :=
  ⟨h.1.mono fun _ hid => Nat.lt_of_lt_of_le hid hn, h.2⟩

lemma Numbers.derive (stage : Stage) (q : Query) (next : Nat) (h : Numbers q next) :
    Numbers (q.derive stage next).1 (q.derive stage next).2 := by
  have hall := (h.mono (Nat.le_succ next)).1
  cases q with
  | empty => exact h
  | search tag source => exact ⟨⟨Nat.lt_succ_self next, hall⟩, h⟩
  | staged tag stage' below => exact ⟨⟨Nat.lt_succ_self next, hall⟩, h⟩

lemma heritable_numbers : Heritable Numbers where
  derive := Numbers.derive
  below h := ⟨h.1.2, h.2.2⟩
  empty _ := ⟨trivial, trivial⟩
  search _ _ := ⟨Nat.lt_succ_self _, trivial⟩

/-- Giving a query other options puts a new instance in place of the topmost one. -/
lemma Numbers.withOptions (h : Numbers q next) (options : QueryOptions) :
    Numbers (q.withOptions options next).1 (q.withOptions options next).2 := by
  have hall := (h.mono (Nat.le_succ next)).1
  cases q with
  | empty => exact h
  | search tag source => exact ⟨Nat.lt_succ_self next, trivial⟩
  | staged tag stage below => exact ⟨⟨Nat.lt_succ_self next, hall.2⟩, h.1.2, h.2.2⟩

section ComesFrom

variable {base : String} {scope : Scope} {start : Nat} {hows : List Derivation}

lemma ComesFrom.numbers (h : ComesFrom base scope start hows q next) : Numbers q next := by
  induction h with
  | search hn => exact ⟨Nat.lt_succ_self _, trivial⟩
  | apply h hn hmade ih =>
    have hq := ih.mono hn
    exact heritable_apply heritable_numbers hq _ (fun options _ => hq.withOptions options) _ _ hmade

/-- Along a chain of operations the numbers decrease. -/
theorem ComesFrom.numbered (h : ComesFrom base scope start hows q next) : q.Numbered :=
  h.numbers.2

end ComesFrom

/-! ## Levels -/

lemma mem_levels_self (hq : q ≠ .empty) : q ∈ q.levels := by
  cases q with
  | empty => exact absurd rfl hq
  | search tag source => exact List.mem_cons_self
  | staged tag stage below => exact List.mem_cons_self

lemma levels_subset_of_mem (h : p ∈ q.levels) : p.levels ⊆ q.levels := by
  induction q with
  | empty => cases h
  | search tag source =>
    rw [List.mem_singleton.1 h]
    exact List.Subset.refl _
  | staged tag stage below ih =>
    obtain rfl | hbelow := List.mem_cons.1 h
    · exact List.Subset.refl _
    · exact List.subset_cons_of_subset _ (ih hbelow)

/-- The instance on top of a numbered chain has its number for itself. -/
lemma Numbered.eq_of_mem_levels (hq : q.Numbered) (hp : p ∈ q.levels)
    (hid : q.tag?.map QueryTag.id = p.tag?.map QueryTag.id) : q = p := by
  cases q with
  | empty => cases hp
  | search tag source => exact (List.mem_singleton.1 hp).symm
  | staged tag stage below =>
    obtain rfl | hbelow := List.mem_cons.1 hp
    · rfl
    · obtain ⟨tag', htag', hid'⟩ := Option.map_eq_some_iff.1 hid.symm
      have hless := all_iff_levels.1 hq.1 p hbelow tag' htag'
      omega

end DirectoryQuery.Query
