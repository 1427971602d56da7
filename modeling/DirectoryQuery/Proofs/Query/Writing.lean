import DirectoryQuery.Proofs.Query.Filing
import DirectoryQuery.Proofs.Query.Freshness

/-!
# Filters that searches take over

A filter that is put on a query is written for the directory at once, as far as it gets to the
search, together with what the search has taken over before.  So an operation fails, or the search
of the query that comes out can be written: the directory is to evaluate every condition of its
filter, and every condition compiles (`Query.ComesFrom.isWritable`).

Conditions are never made up.  Those of the search are conditions of the filters that were put on
the query, and what holds of those holds of them.
-/

namespace DirectoryQuery

open DirectoryQuery.Filter

variable {p : Condition → Prop}

/-! ## Searches -/

namespace Source

/-- The directory is to evaluate all conditions of the search, and all of them compile and have a
property. -/
structure IsWritable (p : Condition → Prop) (s : Source) : Prop where
  pushed : ∀ c ∈ conditions? s.filter, directoryPlacement c = .pushed
  compiles : ∀ c ∈ conditions? s.filter, (leaf c).Compiles
  given : ∀ c ∈ conditions? s.filter, p c

variable {s : Source}

lemma isWritable_of_none (base : String) (scope : Scope) : IsWritable p ⟨base, scope, none⟩ := by
  constructor <;> simp

lemma IsWritable.exists_filterText (h : s.IsWritable p) : ∃ text, s.filterText = .ok text :=
  (exists_filterText_iff h.pushed).2 h.compiles

/-- A further filter for the directory keeps a search writable if it was written with it. -/
lemma IsWritable.push (h : s.IsWritable p) {base : String} {scope : Scope} {f : Option Filter}
    (hpushed : ∀ c ∈ conditions? f, directoryPlacement c = .pushed)
    (hgiven : ∀ c ∈ conditions? f, p c)
    {text : String} (htext : filterText ⟨base, scope, and? s.filter f⟩ = .ok text) :
    IsWritable p ⟨base, scope, and? s.filter f⟩ := by
  have hall : ∀ c ∈ conditions? (and? s.filter f), directoryPlacement c = .pushed :=
    forall_conditions?_and?.2 ⟨h.pushed, hpushed⟩
  exact
    { pushed := hall
      compiles := (exists_filterText_iff hall).1 ⟨text, htext⟩
      given := forall_conditions?_and?.2 ⟨h.given, hgiven⟩ }

/-- With plain names, what is written is read. -/
lemma IsWritable.exists_parse (h : s.IsWritable fun c => IsPlainName c.field) {text : String}
    (htext : s.filterText = .ok text) : ∃ filter, SearchFilter.parse text = .ok filter := by
  have hnames := h.given
  rw [filterText] at htext
  cases hfilter : s.filter with
  | none =>
    rw [hfilter] at htext
    cases htext
    exact ⟨_, SearchFilter.parse_of_readsAs readsAs_catchAll⟩
  | some f =>
    rw [hfilter] at htext
    rw [hfilter, conditions?_some] at hnames
    exact ⟨_, SearchFilter.parse_of_readsAs (readsAs_render hnames htext)⟩

end Source

/-! ## Queries -/

namespace Query

variable {q : Query} {next : Nat}

/-- The query is empty, or it has a search, and that can be written. -/
def IsWritable (p : Condition → Prop) (q : Query) : Prop :=
  q = .empty ∨ ∃ source, q.source? = some source ∧ source.IsWritable p

lemma IsWritable.of_source? (h : q.IsWritable p) {source : Source}
    (hsource : q.source? = some source) : source.IsWritable p := by
  obtain rfl | ⟨source', hsource', hwritable⟩ := h
  · cases hsource
  · obtain rfl := Option.some.inj (hsource.symm.trans hsource')
    exact hwritable

lemma IsWritable.below {tag : QueryTag} {stage : Stage}
    (h : (staged tag stage q).IsWritable p) : q.IsWritable p := by
  obtain hempty | hsource := h
  · cases hempty
  · exact .inr hsource

lemma isWritable_search {tag : QueryTag} {source : Source} (h : source.IsWritable p) :
    (search tag source).IsWritable p :=
  .inr ⟨source, rfl, h⟩

lemma isWritable_unsorted (h : q.IsWritable p) : q.unsorted.IsWritable p := by
  unfold unsorted
  split
  · exact h.below
  · exact h

lemma isWritable_withOptions (h : q.IsWritable p) (options : QueryOptions) (next : Nat) :
    (q.withOptions options next).1.IsWritable p := by
  cases q with
  | empty => exact h
  | search tag source => exact isWritable_search (h.of_source? rfl)
  | staged tag stage below =>
    obtain hempty | hsource := h
    · cases hempty
    · exact .inr hsource

/-! ## Filters on queries -/

/-- What passes below a stage is part of the filter. -/
lemma conditions_of_passes {stage : Stage} {f pushed : Filter}
    (h : stage.passes f = some pushed) : ∀ c ∈ pushed.conditions, c ∈ f.conditions := by
  cases stage with
  | sliced window => cases h
  | annotated annotations => exact fun c hc => (conditions_of_pushed h c hc).1
  | _ =>
    obtain rfl := Option.some.inj h
    exact fun c hc => hc

/-- The query that comes out can be written. -/
def Writes (p : Condition → Prop) (q : Query) (_ : Nat) : Prop :=
  q.IsWritable p

lemma Writes.derive (stage : Stage) (q : Query) (next : Nat) (h : Writes p q next) :
    Writes p (q.derive stage next).1 (q.derive stage next).2 := by
  obtain rfl | hsource := h
  · exact .inl rfl
  · cases q with
    | empty => exact .inl rfl
    | search tag source => exact .inr hsource
    | staged tag stage' below => exact .inr hsource

lemma writes_searchWith {source : Source}
    (hsource : ∀ text, source.filterText = .ok text → source.IsWritable p)
    (kept : Option Filter) (options : QueryOptions) (next : Nat) :
    Yields (Writes p) (searchWith source kept options next) := by
  rw [searchWith]
  cases htext : source.filterText with
  | error e => exact yields_error e
  | ok text => exact yields_filterOnTop? Writes.derive kept (isWritable_search (hsource text htext))

lemma writes_refineSearch {source : Source} (hsource : source.IsWritable p) {f : Filter}
    (hf : ∀ c ∈ f.conditions, p c) (options : QueryOptions) (next : Nat) :
    Yields (Writes p) (refineSearch source f options next) := by
  have hempty : Writes p .empty next := .inl rfl
  have hsplit : f.splitForDirectory.IsSplitOf directoryPlacement f.conditions :=
    isSplitOf_split directoryPlacement f
  have hwith : ∀ base scope kept, Yields (Writes p)
      (searchWith ⟨base, scope, and? source.filter f.splitForDirectory.pushed⟩ kept options
        next) := by
    intro base scope kept
    refine writes_searchWith (fun text htext => ?_) kept options next
    exact hsource.push (fun c hc => (hsplit.pushed c hc).2)
      (fun c hc => hf c (hsplit.pushed c hc).1) htext
  rw [refineSearch]
  cases Pin.resolve f.splitForDirectory.pinned with
  | conflict => exact yields_ok hempty
  | unpinned => exact hwith _ _ _
  | entry dn checks =>
    simp only
    split
    · exact hwith _ _ _
    · exact yields_ok hempty

/-- Putting a filter on a query fails, or it leaves a search that can be written. -/
theorem writes_refine (hq : q.IsWritable p) {f : Filter} (hf : ∀ c ∈ f.conditions, p c)
    (next : Nat) : Yields (Writes p) (q.refine f next) := by
  induction q generalizing f next with
  | empty => exact yields_ok hq
  | search tag source => exact writes_refineSearch (hq.of_source? rfl) hf tag.options next
  | staged tag stage below ih =>
    cases hwindow : stage.isWindow with
    | true =>
      rw [refine_window hwindow]
      exact yields_filterOnTop? Writes.derive (some f) hq
    | false =>
      have hbelow : Yields (Writes p) (refine? (stage.passes f) below next) := by
        cases hpasses : stage.passes f with
        | none => exact yields_ok hq.below
        | some pushed =>
          have hpushed : ∀ c ∈ pushed.conditions, p c :=
            fun c hc => hf c (conditions_of_passes hpasses c hc)
          exact ih hq.below hpushed next
      rw [refine_staged hwindow]
      refine hbelow.bind fun q next' hmade => ?_
      exact yields_filterOnTop? Writes.derive _ (Writes.derive stage q next' hmade)

end Query

/-! ## Operations -/

namespace Derivation

open Query

/-- The conditions of the filter that an operation puts on a query. -/
def conditions : Derivation → List Condition
  | .filter (.ok f) | .exclude (.ok f) => f.conditions
  | _ => []

/-- Any operation fails, or it leaves a search that can be written. -/
theorem writes_apply {q : Query} (hq : q.IsWritable p) (how : Derivation)
    (hhow : ∀ c ∈ how.conditions, p c) (next : Nat) : Yields (Writes p) (how.apply q next) := by
  cases how with
  | same => exact yields_ok hq
  | filter f =>
    cases f with
    | error e => exact yields_error _
    | ok f => exact (writes_refine hq hhow next).mapError _
  | exclude f =>
    cases f with
    | error e => exact yields_error _
    | ok f =>
      refine (writes_refine hq (f := f.negate) ?_ next).mapError _
      rw [conditions_negate]
      exact hhow
  | annotate annotations =>
    rw [apply, Query.annotate]
    split
    · exact yields_ok hq
    · exact yields_ok (Writes.derive _ q next hq)
  | orderBy keys =>
    rw [apply]
    by_cases hkeys : (keys.filterMap SortKey.parse?).isEmpty = true
    · rw [orderBy_of_isEmpty hkeys]
      exact yields_ok hq
    · rw [orderBy_of_not_isEmpty hkeys]
      exact yields_ok (Writes.derive _ q.unsorted next (isWritable_unsorted hq))
  | select names => exact yields_ok (Writes.derive _ q next hq)
  | distinct =>
    rw [apply, Query.distinct.eq_def]
    split
    · exact yields_ok hq
    · exact yields_ok (Writes.derive _ q next hq)
  | slice low high step =>
    rw [apply, Query.slice]
    cases Window.ofBounds low high step with
    | error e => exact yields_error e
    | ok window => exact yields_ok (Writes.derive _ q next hq)
  | withOptions options => exact yields_ok (isWritable_withOptions hq options next)

end Derivation

namespace Query

open DirectoryQuery.Derivation

/-- Whatever operations make of a new search has a search that can be written, of conditions that
were given. -/
theorem ComesFrom.isWritable {base : String} {scope : Scope} {start next : Nat}
    {hows : List Derivation} {q : Query} (h : ComesFrom base scope start hows q next)
    (hp : ∀ how ∈ hows, ∀ c ∈ how.conditions, p c) : q.IsWritable p := by
  induction h with
  | search hn => exact isWritable_search (Source.isWritable_of_none base scope)
  | @apply hows how q q' next n next' h hn hmade ih =>
    have hq : q.IsWritable p := ih fun how' hmem => hp how' (List.mem_append_left _ hmem)
    have hhow : ∀ c ∈ how.conditions, p c :=
      hp how (List.mem_append_right _ (List.mem_singleton_self how))
    exact writes_apply hq how hhow n q' next' hmade

end Query

end DirectoryQuery
