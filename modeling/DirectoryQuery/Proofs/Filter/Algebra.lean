import DirectoryQuery.Proofs.Filter.Split

/-!
# The algebra of filters

The combinators keep filters in their normal form, and the normal filters are exactly those that the
combinators can build from conditions (`Filter.composed_of_isNormal`).  The parts of a normal filter
that was split are normal again.  On all filters, normal or not, conjunction and disjunction are
associative, list the conditions of both sides in order, and compile to the conjunction and the
disjunction of the verdicts (`Filter.algebra_lawful`).
-/

namespace DirectoryQuery

namespace Filter

variable {f g : Filter} {fs : List Filter}

/-! ## What the combinators build -/

/-- The filters that the combinators build from conditions. -/
inductive Composed : Filter → Prop where
  | leaf (c : Condition) : Composed (.leaf c)
  | and {f g : Filter} (hf : Composed f) (hg : Composed g) : Composed (f.and g)
  | or {f g : Filter} (hf : Composed f) (hg : Composed g) : Composed (f.or g)
  | negate {f : Filter} (hf : Composed f) : Composed f.negate
  | all {fs : List Filter} {f : Filter} (hfs : ∀ g ∈ fs, Composed g)
    (hf : conjunction? fs = some f) : Composed f
  | any {fs : List Filter} {f : Filter} (hfs : ∀ g ∈ fs, Composed g)
    (hf : disjunction? fs = some f) : Composed f

/-- What the combinators build is normal. -/
lemma Composed.isNormal (h : Composed f) : f.isNormal = true := by
  induction h with
  | leaf c => rfl
  | and _ _ hf hg =>
    rw [and_eq_join]
    exact Connective.conj.isNormal_join hf hg
  | or _ _ hf hg =>
    rw [or_eq_join]
    exact Connective.disj.isNormal_join hf hg
  | negate _ hf => exact isNormal_negate hf
  | all _ hf ih =>
    rw [conjunction?_eq_joinAll?] at hf
    exact Connective.conj.isNormal_joinAll? ih _ hf
  | any _ hf ih =>
    rw [disjunction?_eq_joinAll?] at hf
    exact Connective.disj.isNormal_joinAll? ih _ hf

/-- The combinators build every normal filter. -/
lemma composed_of_isNormal (h : f.isNormal = true) : Composed f := by
  induction f with
  | leaf c => exact .leaf c
  | all parts ih =>
    have hjoin : conjunction? parts = some (.all parts) := by
      rw [conjunction?_eq_joinAll?]
      exact Connective.conj.joinAll?_of_isNormal h
    exact .all (fun g hg => ih g hg ((isNormal_all.1 h).2 g hg).2) hjoin
  | any parts ih =>
    have hjoin : disjunction? parts = some (.any parts) := by
      rw [disjunction?_eq_joinAll?]
      exact Connective.disj.joinAll?_of_isNormal h
    exact .any (fun g hg => ih g hg ((isNormal_any.1 h).2 g hg).2) hjoin
  | not part ih =>
    obtain ⟨hpart, hnormal⟩ := isNormal_not.1 h
    rw [← negate_of_notPart? hpart]
    exact .negate (ih hnormal)

/-! ## Splitting -/

lemma isNormal_conjunction?_filterMap {part : Split → Option Filter} {splits : List Split}
    (h : ∀ s ∈ splits, ∀ p ∈ part s, p.isNormal = true) :
    ∀ p ∈ conjunction? (splits.filterMap part), p.isNormal = true := by
  rw [conjunction?_eq_joinAll?]
  refine Connective.conj.isNormal_joinAll? fun p hp => ?_
  obtain ⟨s, hs, hp⟩ := List.mem_filterMap.1 hp
  exact h s hs p hp

/-- The parts of a normal filter that was split are normal. -/
lemma isNormal_split (place : Condition → Placement) (h : f.isNormal = true) :
    (∀ p ∈ (f.split place).pushed, p.isNormal = true) ∧
      ∀ p ∈ (f.split place).kept, p.isNormal = true := by
  have hwhole (f : Filter) (isPushed : Bool) (hf : f.isNormal = true) :
      (∀ p ∈ (Split.whole f isPushed).pushed, p.isNormal = true) ∧
        ∀ p ∈ (Split.whole f isPushed).kept, p.isNormal = true := by
    cases isPushed <;> simp [Split.whole, hf]
  induction f with
  | leaf c =>
    rw [split]
    cases place c <;> simp [isNormal]
  | all parts ih =>
    have hparts : ∀ f ∈ parts, _ := fun f hf => ih f hf ((isNormal_all.1 h).2 f hf).2
    rw [split, splitEach_eq]
    constructor
    · exact isNormal_conjunction?_filterMap (List.forall_mem_map.2 fun f hf => (hparts f hf).1)
    · exact isNormal_conjunction?_filterMap (List.forall_mem_map.2 fun f hf => (hparts f hf).2)
  | any parts ih =>
    rw [split]
    exact hwhole _ _ h
  | not part ih =>
    rw [split]
    exact hwhole _ _ h

/-! ## The laws -/

/-- The combinators build the normal filters from conditions and no others, and the parts of a
normal filter that was split, whatever the placement, are normal.  Conjunction and disjunction of
any filters are associative and list the conditions of both sides in order.  Conjunctions,
disjunctions and negations compile, if their sides do, to the conjunction, the disjunction and the
negation of the verdicts; the conjunction of two matchers is the matcher of the conjunction.  A
normal filter negated twice is the filter again. -/
theorem algebra_lawful (f g h : Filter) (place : Condition → Placement) :
    (Composed f ↔ f.isNormal = true) ∧
    (f.isNormal = true → (∀ p ∈ (f.split place).pushed, p.isNormal = true) ∧
      ∀ p ∈ (f.split place).kept, p.isNormal = true) ∧
    ((f.and g).and h = f.and (g.and h) ∧ (f.or g).or h = f.or (g.or h)) ∧
    ((f.and g).conditions = f.conditions ++ g.conditions ∧
      (f.or g).conditions = f.conditions ++ g.conditions) ∧
    (Matcher.ofFilter (f.and g) = (do
        let a ← Matcher.ofFilter f
        let b ← Matcher.ofFilter g
        pure (a.and b)) ∧
      (∀ a b e, (Matcher.and a b).accepts e = (a.accepts e && b.accepts e)) ∧
      Matcher.ofFilter (f.or g) = (do
        let a ← Matcher.ofFilter f
        let b ← Matcher.ofFilter g
        pure ⟨a.filter.or b.filter, fun e => a.accepts e || b.accepts e⟩) ∧
      Matcher.ofFilter f.negate = (do
        let a ← Matcher.ofFilter f
        pure ⟨a.filter.negate, fun e => !a.accepts e⟩)) ∧
    (f.isNormal = true → f.negate.negate = f) := by
  refine ⟨⟨Composed.isNormal, composed_of_isNormal⟩, isNormal_split place, ?_, ?_,
    ⟨?_, fun a b e => rfl, ?_, ofFilter_negate f⟩, negate_negate⟩
  · rw [and_eq_join, or_eq_join]
    exact ⟨Connective.conj.join_assoc f g h, Connective.disj.join_assoc f g h⟩
  · rw [and_eq_join, or_eq_join]
    exact ⟨Connective.conj.conditions_join f g, Connective.disj.conditions_join f g⟩
  · unfold Matcher.and
    rw [and_eq_join]
    exact Connective.conj.ofFilter_join f g
  · rw [or_eq_join]
    exact Connective.disj.ofFilter_join f g

/-- The parts of the conjunction go different ways: a comparison below a disjunction keeps it back,
and what is pushed is put together again. -/
theorem algebra_lawful_split :
    let name := Filter.leaf ⟨"cn", none, .one (.text "Ann")⟩
    let age := Filter.leaf ⟨"age", some "gt", .one (.int 3)⟩
    let mail := Filter.not (.any [name, .leaf ⟨"mail", some "present", .one (.bool true)⟩])
    let f := Filter.all [name, .any [age, .not name], mail]
    f.isNormal = true ∧ Composed f ∧ f.negate.negate = f ∧
      (f.split directoryPlacement).pushed = some (.all [name, mail]) ∧
      (Filter.all [name, mail]).isNormal = true ∧
      (f.split directoryPlacement).kept = some (.any [age, .not name]) ∧
      (Filter.any [age, .not name]).isNormal = true := by
  intro name age mail f
  obtain ⟨hcomposed, hsplit, -, -, -, hnegate⟩ := algebra_lawful f f f directoryPlacement
  have hnormal : f.isNormal = true := by decide
  have hpushed : (f.split directoryPlacement).pushed = some (.all [name, mail]) := rfl
  have hkept : (f.split directoryPlacement).kept = some (.any [age, .not name]) := rfl
  obtain ⟨hnormal₁, hnormal₂⟩ := hsplit hnormal
  exact ⟨hnormal, hcomposed.2 hnormal, hnegate hnormal, hpushed, hnormal₁ _ hpushed, hkept,
    hnormal₂ _ hkept⟩

end Filter

end DirectoryQuery
