import DirectoryQuery.Proofs.Entry.Lookup
import DirectoryQuery.Proofs.Filter.Split
import DirectoryQuery.Query.Annotation

/-!
# Filters and computed attributes

A filter can be evaluated before attributes are computed as far as it does not ask for them.
Setting an attribute leaves all attributes alone that have another name (`Entry.get_annotate`), and
a filter looks at the attributes only that its conditions name (`Filter.accepts_congr`).  So the
part that is pushed below a stage has the same verdict there, and what is kept back decides the rest
(`Filter.filter_annotate`).

Nothing is assumed of the computed attributes.  They may have the names of attributes that are
there, repeat one another, or name the identity attribute, which no stage changes.
-/

namespace DirectoryQuery

namespace Entry

variable {e : Entry} {field : String}

/-! ## Other attributes -/

/-- Computing attributes leaves those alone that have other names. -/
lemma get_annotate {annotations : List (String × Annotation)}
    (h : ∀ name ∈ annotations.map (·.1), Text.sameName name field = false) :
    (e.annotate annotations).get field = e.get field := by
  unfold annotate
  induction annotations generalizing e with
  | nil => rfl
  | cons a annotations ih =>
    obtain ⟨ha, hrest⟩ := List.forall_mem_cons.1 h
    rw [List.foldl_cons, ih hrest, get_insert_of_ne ha]

end Entry

/-! ## What a filter looks at -/

/-- A condition looks at the values of its attribute, whatever their order and number. -/
lemma Condition.compile_congr {c : Condition} {test : Entry → Bool} (h : c.compile = .ok test)
    {e e' : Entry} (hget : ∀ v, v ∈ e.get c.field ↔ v ∈ e'.get c.field) : test e = test e' := by
  have hhas : e.has c.field = e'.has c.field := by
    rw [Entry.has, Entry.has, Bool.eq_iff_iff]
    simp only [Bool.not_eq_true', List.isEmpty_eq_false_iff_exists_mem, hget]
  have hsome : ∀ test, someValue c.field test e = someValue c.field test e' := by
    intro test
    rw [someValue, someValue, Bool.eq_iff_iff]
    simp only [List.any_eq_true, hget]
  cases hlookup : c.lookupKind with
  | error e =>
    rw [compile, hlookup] at h
    cases h
  | ok lookup =>
    by_cases hone : lookup.takesOne = true
    · rw [compile_of_takesOne hlookup hone] at h
      split at h
      · cases h
      · split at h
        · cases h
        · obtain rfl := Except.ok.inj h
          exact hsome _
    · rw [compile, hlookup] at h
      obtain rfl | rfl | rfl := Lookup.eq_of_not_takesOne hone
      · obtain rfl := Except.ok.inj h
        simp only [hhas]
      · obtain rfl := Except.ok.inj h
        simp only [hhas]
      · simp only [bind, Except.bind] at h
        split at h
        · cases h
        · obtain rfl := Except.ok.inj h
          exact hsome _

namespace Filter

/-- A filter has one verdict on entries that have the same values under the names that its
conditions ask for. -/
theorem accepts_congr {f : Filter} (hf : f.Compiles) {e e' : Entry}
    (h : ∀ c ∈ f.conditions, ∀ v, v ∈ e.get c.field ↔ v ∈ e'.get c.field) :
    f.accepts e = f.accepts e' := by
  induction f with
  | leaf c =>
    obtain ⟨test, htest⟩ := hf
    rw [accepts_of_compile htest, accepts_of_compile htest]
    exact Condition.compile_congr htest (h c (List.mem_singleton_self c))
  | all parts ih =>
    have hparts := compiles_all.1 hf
    rw [forall_conditions_all] at h
    rw [accepts_all hf, accepts_all hf]
    exact forall₂_all_eq (List.forall₂_same.2 fun f hmem => ih f hmem (hparts f hmem) (h f hmem))
  | any parts ih =>
    have hparts := compiles_any.1 hf
    rw [forall_conditions_any] at h
    rw [accepts_any hf, accepts_any hf]
    exact forall₂_any_eq (List.forall₂_same.2 fun f hmem => ih f hmem (hparts f hmem) (h f hmem))
  | not part ih =>
    have hpart := compiles_not.1 hf
    rw [accepts_not hpart, accepts_not hpart, ih hpart h]

/-! ## Filters below computed attributes -/

lemma isSplitOf_splitByNames (f : Filter) (names : List String) :
    (f.splitByNames names).IsSplitOf (computedPlacement names) f.conditions :=
  isSplitOf_split (computedPlacement names) f

lemma conditions_of_pushed {f pushed : Filter} {names : List String}
    (h : (f.splitByNames names).pushed = some pushed) :
    ∀ c ∈ pushed.conditions, c ∈ f.conditions ∧ computedPlacement names c = .pushed := by
  have hconditions := (isSplitOf_splitByNames f names).pushed
  rw [h, conditions?_some] at hconditions
  exact hconditions

/-- No condition is pinned below computed attributes. -/
lemma pinned_splitByNames (f : Filter) (names : List String) :
    (f.splitByNames names).pinned = [] := by
  apply List.eq_nil_iff_forall_not_mem.2
  intro c hc
  obtain ⟨-, hplace⟩ := (isSplitOf_splitByNames f names).pinned c hc
  rw [computedPlacement] at hplace
  split at hplace <;> cases hplace

variable {f : Filter} (hf : f.Compiles)
include hf

lemma compiles_of_pushed {pushed : Filter} {names : List String}
    (h : (f.splitByNames names).pushed = some pushed) : pushed.Compiles :=
  compiles_iff.2 fun c hc => compiles_iff.1 hf c (conditions_of_pushed h c hc).1

/-- Two parts make up the filter. -/
lemma accepts_splitByNames (names : List String) (e : Entry) :
    f.accepts e =
      (accepts? (f.splitByNames names).pushed e && accepts? (f.splitByNames names).kept e) := by
  rw [← accepts_split (computedPlacement names) hf e, Split.accepts, ← splitByNames,
    pinned_splitByNames, List.all_nil, Bool.and_true]

/-- The part that is pushed below computed attributes does not see them. -/
lemma accepts?_pushed_annotate (annotations : List (String × Annotation)) (e : Entry) :
    accepts? (f.splitByNames (annotations.map (·.1))).pushed (e.annotate annotations) =
      accepts? (f.splitByNames (annotations.map (·.1))).pushed e := by
  cases hpushed : (f.splitByNames (annotations.map (·.1))).pushed with
  | none => rfl
  | some pushed =>
    apply accepts_congr (compiles_of_pushed hf hpushed)
    intro c hc v
    rw [Entry.get_annotate]
    intro name hname
    obtain ⟨-, hplace⟩ := conditions_of_pushed hpushed c hc
    rw [computedPlacement] at hplace
    split at hplace
    · cases hplace
    · rename_i hany
      exact eq_false_of_ne_true (List.any_eq_false.1 (eq_false_of_ne_true hany) name hname)

/-- Filtering entries with computed attributes comes to filtering by one part before these are
computed and by the other part afterwards. -/
theorem filter_annotate (annotations : List (String × Annotation)) (es : List Entry) :
    (es.map fun e => e.annotate annotations).filter f.accepts =
      ((es.filter (accepts? (f.splitByNames (annotations.map (·.1))).pushed)).map fun e =>
        e.annotate annotations).filter
          (accepts? (f.splitByNames (annotations.map (·.1))).kept) := by
  rw [List.filter_map, List.filter_map, List.filter_filter]
  congr 1
  apply List.filter_congr
  intro e _
  rw [Function.comp_apply, Function.comp_apply, accepts_splitByNames hf (annotations.map (·.1)),
    accepts?_pushed_annotate hf, Bool.and_comm]

end Filter

end DirectoryQuery
