import DirectoryQuery.Proofs.Filter.Factors
import DirectoryQuery.Proofs.Query.Writing

/-!
# Which filters a query takes

Putting a filter on a query looks at its conditions where they come to rest: the search writes those
that it takes over, and every other place compiles those that it keeps.  Written or compiled, the
same conditions fail (`Source.exists_filterText_iff`).

There is one exception.  Where the names that a filter asks for leave nothing to find, the search is
given up before any of the conditions that got there is looked at (`Query.excludes`).  So
`Query.checked` says which conditions are looked at.  Putting a filter on a query succeeds exactly
when those compile (`Query.exists_refine_iff`), and without the exception those are all
(`Query.mem_checked_iff`).
-/

namespace DirectoryQuery

open DirectoryQuery.Filter

/-- Whether the names that a filter asks for leave nothing to find: they are not the same, or the
search does not cover them. -/
def Source.excludes (s : Source) (f : Filter) : Bool :=
  match Pin.resolve f.splitForDirectory.pinned with
  | .unpinned => false
  | .entry dn _ => !s.scope.covers s.base dn
  | .conflict => true

namespace Query

variable {p : Condition → Prop} {q : Query} {f : Filter} {c : Condition}

/-- The conditions that are looked at when a filter is put on a query. -/
def checked : Query → Filter → List Condition
  | .empty, _ => []
  | .search _ source, f => if source.excludes f then [] else f.conditions
  | .staged _ stage below, f =>
    conditions? (stage.retains f) ++ (stage.passes f).elim [] below.checked

/-- Whether the names that a filter asks for leave nothing to find in the search of the query, if
they get there. -/
def excludes (q : Query) (f : Filter) : Bool :=
  q.source?.any fun source => (q.sends f).any source.excludes

/-! ## What succeeds -/

section Outcomes

variable {ε α β : Type} {A B : Prop}

lemma exists_bind_iff {x : Except ε α} {g : α → Except ε β} (hx : (∃ a, x = .ok a) ↔ A)
    (hg : ∀ a, (∃ b, g a = .ok b) ↔ B) : (∃ b, x >>= g = .ok b) ↔ A ∧ B := by
  simp only [bind_eq_ok_iff]
  rw [← hx]
  constructor
  · rintro ⟨b, a, ha, hb⟩
    exact ⟨⟨a, ha⟩, (hg a).1 ⟨b, hb⟩⟩
  · rintro ⟨⟨a, ha⟩, hB⟩
    obtain ⟨b, hb⟩ := (hg a).2 hB
    exact ⟨b, a, ha, hb⟩

end Outcomes

lemma exists_filterOnTop?_iff (f : Option Filter) (q : Query) (next : Nat) :
    (∃ made, filterOnTop? f q next = .ok made) ↔ ∀ c ∈ conditions? f, (leaf c).Compiles := by
  cases f with
  | none => simp [filterOnTop?, pure, Except.pure]
  | some f =>
    rw [conditions?_some, ← compiles_iff, filterOnTop?, filterOnTop, Matcher.ofFilter, Compiles]
    cases f.compile with
    | error e => simp [bind, Except.bind]
    | ok test => simp [bind, Except.bind, pure, Except.pure]

/-- A search takes over a filter and keeps another one exactly when the conditions of both
compile. -/
lemma exists_searchWith_iff {source : Source}
    (hpushed : ∀ c ∈ conditions? source.filter, directoryPlacement c = .pushed)
    (kept : Option Filter) (options : QueryOptions) (next : Nat) :
    (∃ made, searchWith source kept options next = .ok made) ↔
      (∀ c ∈ conditions? source.filter, (leaf c).Compiles) ∧
        ∀ c ∈ conditions? kept, (leaf c).Compiles := by
  rw [searchWith]
  exact exists_bind_iff (Source.exists_filterText_iff hpushed)
    fun _ => exists_filterOnTop?_iff kept _ _

/-! ## Filters on searches -/

/-- A filter compiles when the parts of it that are not pinned do. -/
lemma compiles_iff_splitForDirectory (f : Filter) :
    (∀ c ∈ f.conditions, (leaf c).Compiles) ↔
      (∀ c ∈ conditions? f.splitForDirectory.pushed, (leaf c).Compiles) ∧
        ∀ c ∈ conditions? f.splitForDirectory.kept, (leaf c).Compiles := by
  have hsplit : f.splitForDirectory.IsSplitOf directoryPlacement f.conditions :=
    isSplitOf_split directoryPlacement f
  have hperm := @perm_conditions_split directoryPlacement f
  constructor
  · intro h
    exact ⟨fun c hc => h c (hsplit.pushed c hc).1, fun c hc => h c (hsplit.kept c hc)⟩
  · rintro ⟨hpushed, hkept⟩ c hc
    rw [← hperm.mem_iff, List.mem_append, List.mem_append] at hc
    obtain (hc | hc) | hc := hc
    · exact hpushed c hc
    · exact hkept c hc
    · exact Pin.compiles_of_pinned (hsplit.pinned c hc).2

/-- A search that takes over a part of a filter and keeps another one looks at all conditions that
are not pinned. -/
lemma exists_searchWith_split_iff {source : Source} (hsource : source.IsWritable p) (f : Filter)
    (base : String) (scope : Scope) {checks : Option Filter}
    (hchecks : ∀ c ∈ conditions? checks, (leaf c).Compiles) (options : QueryOptions) (next : Nat) :
    (∃ made, searchWith ⟨base, scope, and? source.filter f.splitForDirectory.pushed⟩
        (and? f.splitForDirectory.kept checks) options next = .ok made) ↔
      ∀ c ∈ f.conditions, (leaf c).Compiles := by
  have hsplit : f.splitForDirectory.IsSplitOf directoryPlacement f.conditions :=
    isSplitOf_split directoryPlacement f
  have hpushed : ∀ c ∈ conditions? (and? source.filter f.splitForDirectory.pushed),
      directoryPlacement c = .pushed :=
    forall_conditions?_and?.2 ⟨hsource.pushed, fun c hc => (hsplit.pushed c hc).2⟩
  rw [exists_searchWith_iff hpushed, forall_conditions?_and?, forall_conditions?_and?,
    compiles_iff_splitForDirectory]
  constructor
  · rintro ⟨⟨-, hnew⟩, hkept, -⟩
    exact ⟨hnew, hkept⟩
  · rintro ⟨hnew, hkept⟩
    exact ⟨⟨hsource.compiles, hnew⟩, hkept, hchecks⟩

/-- A search is given up unseen, or it looks at every condition. -/
lemma exists_refineSearch_iff {source : Source} (hsource : source.IsWritable p) (f : Filter)
    (options : QueryOptions) (next : Nat) :
    (∃ made, refineSearch source f options next = .ok made) ↔
      source.excludes f = true ∨ ∀ c ∈ f.conditions, (leaf c).Compiles := by
  have hpinned : ∀ c ∈ f.splitForDirectory.pinned, directoryPlacement c = .pinned :=
    fun c hc => ((isSplitOf_split directoryPlacement f).pinned c hc).2
  rw [refineSearch, Source.excludes]
  cases hresolve : Pin.resolve f.splitForDirectory.pinned with
  | conflict => exact ⟨fun _ => .inl rfl, fun _ => ⟨_, rfl⟩⟩
  | unpinned =>
    have hkept : f.splitForDirectory.kept = and? f.splitForDirectory.kept none := by
      cases f.splitForDirectory.kept <;> rfl
    simp only [Bool.false_eq_true, false_or]
    rw [hkept]
    exact exists_searchWith_split_iff hsource f _ _ (by simp) options next
  | entry dn checks =>
    obtain ⟨-, hchecks⟩ := Pin.entry_of_resolve hpinned hresolve
    simp only [Bool.not_eq_true']
    by_cases hcovers : source.scope.covers source.base dn = true
    · rw [if_pos hcovers]
      simp only [hcovers, Bool.true_eq_false, false_or]
      exact exists_searchWith_split_iff hsource f _ _ hchecks options next
    · rw [if_neg hcovers]
      exact ⟨fun _ => .inl (eq_false_of_ne_true hcovers), fun _ => ⟨_, rfl⟩⟩

/-! ## Filters on queries -/

/-- Putting a filter on a query succeeds exactly when the conditions that are looked at compile. -/
theorem exists_refine_iff (hq : q.IsWritable p) (f : Filter) (next : Nat) :
    (∃ made, q.refine f next = .ok made) ↔ ∀ c ∈ q.checked f, (leaf c).Compiles := by
  induction q generalizing f next with
  | empty => exact ⟨fun _ c hc => absurd hc List.not_mem_nil, fun _ => ⟨_, rfl⟩⟩
  | search tag source =>
    rw [refine, exists_refineSearch_iff (hq.of_source? rfl), checked]
    cases source.excludes f with
    | false => simp
    | true => simp
  | staged tag stage below ih =>
    cases hwindow : stage.isWindow with
    | true =>
      rw [refine_window hwindow, checked]
      obtain ⟨window, rfl⟩ : ∃ window, stage = .sliced window := by
        cases stage with
        | sliced window => exact ⟨window, rfl⟩
        | _ => cases hwindow
      rw [Stage.passes, Option.elim_none, List.append_nil]
      exact exists_filterOnTop?_iff (some f) _ next
    | false =>
      have hbelow : (∃ made, refine? (stage.passes f) below next = .ok made) ↔
          ∀ c ∈ (stage.passes f).elim [] below.checked, (leaf c).Compiles := by
        cases stage.passes f with
        | none => exact ⟨fun _ c hc => absurd hc List.not_mem_nil, fun _ => ⟨_, rfl⟩⟩
        | some pushed => exact ih hq.below pushed next
      rw [refine_staged hwindow, checked, List.forall_mem_append, and_comm]
      exact exists_bind_iff hbelow fun _ => exists_filterOnTop?_iff _ _ _

/-- What gets to the search has passed below all stages. -/
lemma sends_staged (tag : QueryTag) (stage : Stage) (below : Query) (f : Filter) :
    (staged tag stage below).sends f = (stage.passes f).bind below.sends := by
  cases stage <;> rfl

lemma excludes_staged (tag : QueryTag) (stage : Stage) (below : Query) (f : Filter) :
    (staged tag stage below).excludes f = (stage.passes f).any below.excludes := by
  rw [excludes, sends_staged]
  cases stage.passes f with
  | none => simp
  | some pushed => rfl

/-- A stage takes a filter apart and leaves nothing out. -/
lemma mem_conditions_iff_stage (stage : Stage) (f : Filter) (c : Condition) :
    c ∈ f.conditions ↔ c ∈ conditions? (stage.retains f) ∨ c ∈ conditions? (stage.passes f) := by
  cases stage with
  | annotated annotations =>
    have hperm := @perm_conditions_split (computedPlacement (annotations.map (·.1))) f
    rw [← splitByNames, pinned_splitByNames, List.append_nil] at hperm
    rw [← hperm.mem_iff, List.mem_append, or_comm]
    rfl
  | _ => simp [Stage.retains, Stage.passes]

/-- Nothing but conditions of the filter is looked at. -/
lemma mem_conditions_of_checked (h : c ∈ q.checked f) : c ∈ f.conditions := by
  induction q generalizing f with
  | empty => cases h
  | search tag source =>
    rw [checked] at h
    split at h
    · cases h
    · exact h
  | staged tag stage below ih =>
    rw [mem_conditions_iff_stage stage]
    rw [checked, List.mem_append] at h
    obtain hretained | hpassed := h
    · exact .inl hretained
    · cases hpasses : stage.passes f with
      | none =>
        rw [hpasses] at hpassed
        cases hpassed
      | some pushed =>
        rw [hpasses] at hpassed
        rw [conditions?_some]
        exact .inr (ih hpassed)

/-- Unless the names leave nothing to find, all conditions are looked at. -/
lemma mem_checked_iff {source : Source} (hsource : q.source? = some source)
    (h : q.excludes f = false) : c ∈ q.checked f ↔ c ∈ f.conditions := by
  refine ⟨mem_conditions_of_checked, fun hc => ?_⟩
  induction q generalizing f with
  | empty => cases hsource
  | search tag source' =>
    have hexcludes : source'.excludes f = false := h
    rw [checked, hexcludes]
    exact hc
  | staged tag stage below ih =>
    rw [excludes_staged] at h
    rw [checked, List.mem_append]
    obtain hretained | hpassed := (mem_conditions_iff_stage stage f c).1 hc
    · exact .inl hretained
    · cases hpasses : stage.passes f with
      | none =>
        rw [hpasses] at hpassed
        cases hpassed
      | some pushed =>
        rw [hpasses] at h hpassed
        rw [conditions?_some] at hpassed
        exact .inr (ih hsource h hpassed)

/-- If the names leave nothing to find, the query that comes out is empty. -/
lemma yields_empty_of_excludes (h : q.excludes f = true) (next : Nat) :
    Yields (fun made _ => made = .empty) (q.refine f next) := by
  have hderive : ∀ stage (q : Query) next, q = .empty → (q.derive stage next).1 = .empty := by
    rintro stage q next rfl
    rfl
  induction q generalizing f next with
  | empty => exact yields_ok rfl
  | search tag source =>
    have hexcludes : source.excludes f = true := h
    rw [Source.excludes] at hexcludes
    rw [refine, refineSearch]
    cases hresolve : Pin.resolve f.splitForDirectory.pinned with
    | conflict => exact yields_ok rfl
    | unpinned =>
      rw [hresolve] at hexcludes
      cases hexcludes
    | entry dn checks =>
      simp only [hresolve, Bool.not_eq_true'] at hexcludes
      simp only [hexcludes, Bool.false_eq_true, if_false]
      exact yields_ok rfl
  | staged tag stage below ih =>
    rw [excludes_staged] at h
    cases hpasses : stage.passes f with
    | none =>
      rw [hpasses] at h
      cases h
    | some pushed =>
      have hwindow : stage.isWindow = false := by
        cases stage with
        | sliced window => cases hpasses
        | _ => rfl
      rw [hpasses] at h
      rw [refine_staged hwindow, hpasses]
      refine (ih h next).bind fun q next' hempty => ?_
      exact yields_filterOnTop? hderive _ (hderive stage q next' hempty)

/-! ## Filters on composed queries -/

/-- Let a query be composed in any way, and not empty.  Putting a filter on it succeeds exactly when
the conditions that are looked at compile, so a filter that compiles is always taken.  One that does
not compile is taken only if the names that it asks for leave nothing to find in the search, and
then the query that comes out is empty. -/
theorem ComesFrom.filter_ok_iff {base : String} {scope : Scope} {start next : Nat}
    {hows : List Derivation} {q : Query} (hq : ComesFrom base scope start hows q next)
    (hfound : q.isKnownEmpty = false) (f : Filter) (n : Nat) :
    ((∃ made, q.filter f n = .ok made) ↔ ∀ c ∈ q.checked f, (leaf c).Compiles) ∧
      (f.Compiles → ∃ made, q.filter f n = .ok made) ∧
      (q.excludes f = false → ((∃ made, q.filter f n = .ok made) ↔ f.Compiles)) ∧
      (q.excludes f = true → ∀ made, q.filter f n = .ok made → made.1 = .empty) := by
  have hwritable : q.IsWritable fun _ => True := hq.isWritable fun _ _ _ _ => trivial
  have hiff := exists_refine_iff hwritable f n
  obtain rfl | ⟨source, hsource, -⟩ := hwritable
  · cases hfound
  refine ⟨hiff, fun hf => ?_, fun hexcludes => ?_, fun hexcludes made hmade => ?_⟩
  · exact hiff.2 fun c hc => compiles_iff.1 hf c (mem_conditions_of_checked hc)
  · rw [compiles_iff]
    refine hiff.trans ?_
    simp only [mem_checked_iff hsource hexcludes]
  · exact yields_empty_of_excludes hexcludes n made.1 made.2 hmade

/-- One name leaves an entry to find, and the unknown lookup beside it is found out. -/
theorem filter_ok_iff_name :
    let f : Filter := .all [.leaf ⟨"dn", none, .one (.text "cn=Ann,dc=org")⟩,
      .leaf ⟨"cn", some "regex", .one (.text "A")⟩]
    ∃ q next, ComesFrom "dc=org" .subtree 0 [.select ["cn"]] q next ∧ q.isKnownEmpty = false ∧
      ¬ ∃ made, q.filter f next = .ok made := by
  intro f
  have hsearch : ComesFrom "dc=org" .subtree 0 [] (ofBase "dc=org" .subtree 0).1 1 :=
    .search (Nat.le_refl 0)
  have hselect : ComesFrom "dc=org" .subtree 0 [.select ["cn"]] _ _ :=
    hsearch.apply (Nat.le_refl 1) rfl
  refine ⟨_, _, hselect, rfl, ?_⟩
  obtain ⟨-, -, hiff, -⟩ := hselect.filter_ok_iff rfl f 2
  rw [hiff (by decide)]
  rintro ⟨test, htest⟩
  cases htest

/-- Two names leave nothing to find, and the unknown lookup beside them is not looked at. -/
theorem filter_ok_of_two_names :
    let f : Filter := .all [.leaf ⟨"dn", none, .one (.text "cn=Ann,dc=org")⟩,
      .leaf ⟨"dn", none, .one (.text "cn=Bob,dc=org")⟩,
      .leaf ⟨"cn", some "regex", .one (.text "A")⟩]
    f.compile = .error (.unsupportedLookup "regex") ∧
      ∃ q next, ComesFrom "dc=org" .subtree 0 [] q next ∧ q.isKnownEmpty = false ∧
        ∃ next', q.filter f next = .ok (.empty, next') := by
  intro f
  exact ⟨rfl, _, _, .search (Nat.le_refl 0), rfl, _, rfl⟩

end Query

end DirectoryQuery
