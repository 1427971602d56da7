import DirectoryQuery.Proofs.Query.Derivation
import DirectoryQuery.Proofs.Query.Keeping

/-!
# Chains without identities

`Query.bare` strips a query of the identities and options of its instances and leaves its search and
its stages.  Operations on queries look at nothing else (`Derivation.ignoresTags_apply`).

Evaluations look at identities for one thing, namely what was kept.  As long as no instance of a
query has kept a result, evaluating it comes to the same as evaluating the bare query where nothing
was ever kept, step by step, with the same failures and the same dealings with the directory and the
pool (`Query.fetch_bare`).
-/

namespace DirectoryQuery

open DirectoryQuery.Filter

namespace Query

/-- The chain of a query, without the identities and the options.  It keeps nothing. -/
def bare : Query → Query
  | .empty => .empty
  | .search _ source => .search ⟨0, ⟨.refetch⟩⟩ source
  | .staged _ stage below => .staged ⟨0, ⟨.refetch⟩⟩ stage below.bare

/-- No instance of the query has kept a result. -/
def Unkept (snapshots : Snapshots) (q : Query) : Prop :=
  q.All fun tag => snapshots.get? tag.id = none

/-! ## Operations -/

section Operations

variable {ε : Type}

/-- The chain that comes out of composing. -/
def bareOutcome (outcome : Except ε (Query × Nat)) : Except ε Query :=
  outcome.map fun made => made.1.bare

/-- The chain that comes out depends on the chain that goes in only. -/
def IgnoresTags (op : Query → Nat → Except ε (Query × Nat)) : Prop :=
  ∀ q next q' next', q.bare = q'.bare → bareOutcome (op q next) = bareOutcome (op q' next')

lemma bare_bare (q : Query) : q.bare.bare = q.bare := by
  induction q with
  | empty => rfl
  | search tag source => rfl
  | staged tag stage below ih => rw [bare, bare, ih]

/-- It is enough to compare a query with its chain. -/
lemma ignoresTags_of_bare {op : Query → Nat → Except ε (Query × Nat)}
    (h : ∀ q next next', bareOutcome (op q next) = bareOutcome (op q.bare next')) :
    IgnoresTags op := by
  intro q next q' next' hbare
  rw [h q next 0, h q' next' 0, hbare]

/-- Outcomes with the same chain go on alike. -/
lemma IgnoresTags.after {op : Query → Nat → Except ε (Query × Nat)} (h : IgnoresTags op)
    {outcome outcome' : Except ε (Query × Nat)}
    (hsame : bareOutcome outcome = bareOutcome outcome') :
    bareOutcome (outcome.bind fun q => op q.1 q.2) =
      bareOutcome (outcome'.bind fun q => op q.1 q.2) := by
  cases outcome with
  | error e =>
    cases outcome' with
    | error e' => exact congrArg Except.error (Except.error.inj hsame)
    | ok made' => cases hsame
  | ok made =>
    cases outcome' with
    | error e' => cases hsame
    | ok made' => exact h made.1 made.2 made'.1 made'.2 (Except.ok.inj hsame)

lemma IgnoresTags.bind {op op' : Query → Nat → Except ε (Query × Nat)} (h : IgnoresTags op)
    (h' : IgnoresTags op') : IgnoresTags fun q next => (op q next).bind fun q => op' q.1 q.2 :=
  fun q next q' next' hbare => h'.after (h q next q' next' hbare)

lemma IgnoresTags.mapError {ε' : Type} {op : Query → Nat → Except ε (Query × Nat)}
    (h : IgnoresTags op) (g : ε → ε') : IgnoresTags fun q next => (op q next).mapError g := by
  intro q next q' next' hbare
  have hop := congrArg (Except.mapError g) (h q next q' next' hbare)
  simp only
  cases hq : op q next <;> cases hq' : op q' next' <;> rw [hq, hq'] at hop <;> exact hop

lemma ignoresTags_error (e : ε) : IgnoresTags fun _ _ => .error e :=
  fun _ _ _ _ _ => rfl

lemma ignoresTags_self : IgnoresTags fun q next => (.ok (q, next) : Except ε (Query × Nat)) := by
  intro q next q' next' hbare
  exact congrArg Except.ok hbare

lemma ignoresTags_derive (stage : Stage) :
    IgnoresTags fun q next => (.ok (q.derive stage next) : Except ε (Query × Nat)) := by
  refine ignoresTags_of_bare fun q next next' => congrArg Except.ok ?_
  cases q with
  | empty => rfl
  | search tag source => rfl
  | staged tag stage' below =>
    show staged _ stage (bare _) = staged _ stage (bare (bare _))
    rw [bare_bare]

lemma ignoresTags_filterOnTop (f : Filter) : IgnoresTags (filterOnTop f) := by
  unfold filterOnTop
  cases Matcher.ofFilter f with
  | error e => exact ignoresTags_error e
  | ok matcher => exact ignoresTags_derive (.filtered matcher)

lemma ignoresTags_filterOnTop? (f : Option Filter) : IgnoresTags (filterOnTop? f) := by
  cases f with
  | none => exact ignoresTags_self
  | some f => exact ignoresTags_filterOnTop f

lemma bareOutcome_searchWith (source : Source) (kept : Option Filter)
    (options options' : QueryOptions) (next next' : Nat) :
    bareOutcome (searchWith source kept options next) =
      bareOutcome (searchWith source kept options' next') := by
  rw [searchWith, searchWith]
  cases source.filterText with
  | error e => rfl
  | ok text => exact ignoresTags_filterOnTop? kept _ _ _ _ rfl

lemma bareOutcome_refineSearch (source : Source) (f : Filter) (options options' : QueryOptions)
    (next next' : Nat) :
    bareOutcome (refineSearch source f options next) =
      bareOutcome (refineSearch source f options' next') := by
  rw [refineSearch, refineSearch]
  cases Pin.resolve f.splitForDirectory.pinned with
  | conflict => rfl
  | unpinned => exact bareOutcome_searchWith ..
  | entry dn checks =>
    simp only
    split
    · exact bareOutcome_searchWith ..
    · rfl

lemma bareOutcome_refine (f : Filter) (q : Query) (next next' : Nat) :
    bareOutcome (refine f q next) = bareOutcome (refine f q.bare next') := by
  induction q generalizing f next next' with
  | empty => rfl
  | search tag source => exact bareOutcome_refineSearch ..
  | staged tag stage below ih =>
    by_cases hwindow : stage.isWindow = true
    · rw [bare, refine_window hwindow, refine_window hwindow]
      refine ignoresTags_filterOnTop f _ _ _ _ ?_
      rw [bare, bare, bare_bare]
    · have hstage := Bool.eq_false_iff.2 hwindow
      have hput : IgnoresTags fun q next => filterOnTop? (stage.retains f)
          (q.derive stage next).1 (q.derive stage next).2 :=
        (ignoresTags_derive stage).bind (ignoresTags_filterOnTop? (stage.retains f))
      rw [bare, refine_staged hstage, refine_staged hstage]
      refine hput.after ?_
      cases stage.passes f with
      | none => exact congrArg Except.ok (bare_bare below).symm
      | some pushed => exact ih pushed next next'

lemma ignoresTags_refine (f : Filter) : IgnoresTags (refine f) :=
  ignoresTags_of_bare (bareOutcome_refine f)

lemma unsorted_bare (q : Query) : q.bare.unsorted = q.unsorted.bare := by
  cases q with
  | empty => rfl
  | search tag source => rfl
  | staged tag stage below => cases stage <;> rfl

lemma sortKeys_bare (q : Query) : q.bare.sortKeys = q.sortKeys := by
  cases q with
  | empty => rfl
  | search tag source => rfl
  | staged tag stage below => cases stage <;> rfl

lemma ignoresTags_orderBy (keys : List String) :
    IgnoresTags fun q next => (.ok (q.orderBy keys next) : Except ε (Query × Nat)) := by
  by_cases hkeys : (keys.filterMap SortKey.parse?).isEmpty = true
  · simp only [orderBy_of_isEmpty hkeys]
    exact ignoresTags_self
  · refine ignoresTags_of_bare fun q next next' => ?_
    rw [orderBy_of_not_isEmpty hkeys, orderBy_of_not_isEmpty hkeys, sortKeys_bare, unsorted_bare]
    exact ignoresTags_derive _ _ _ _ _ (bare_bare _).symm

lemma ignoresTags_distinct :
    IgnoresTags fun q next => (.ok (q.distinct next) : Except ε (Query × Nat)) := by
  refine ignoresTags_of_bare fun q next next' => ?_
  have hderive : bareOutcome (ε := ε) (.ok (q.derive .distinct next)) =
      bareOutcome (.ok (q.bare.derive .distinct next')) :=
    ignoresTags_derive .distinct _ _ _ _ (bare_bare q).symm
  cases q with
  | empty => exact hderive
  | search tag source => exact hderive
  | staged tag stage below =>
    cases stage with
    | distinct => exact congrArg Except.ok (bare_bare _).symm
    | _ => exact hderive

lemma ignoresTags_withOptions (options : QueryOptions) :
    IgnoresTags fun q next => (.ok (q.withOptions options next) : Except ε (Query × Nat)) := by
  refine ignoresTags_of_bare fun q next next' => congrArg Except.ok ?_
  cases q with
  | empty => rfl
  | search tag source => rfl
  | staged tag stage below => exact congrArg (staged _ stage) (bare_bare below).symm

end Operations

end Query

namespace Derivation

open Query

/-- What an operation makes of a query depends on the chain of the query only. -/
lemma ignoresTags_apply (how : Derivation) : IgnoresTags how.apply := by
  cases how with
  | same => exact ignoresTags_self
  | filter f =>
    cases f with
    | error e => exact ignoresTags_error _
    | ok f => exact (ignoresTags_refine f).mapError QueryError.filter
  | exclude f =>
    cases f with
    | error e => exact ignoresTags_error _
    | ok f => exact (ignoresTags_refine f.negate).mapError QueryError.filter
  | annotate annotations =>
    show IgnoresTags fun q next => .ok (q.annotate annotations next)
    by_cases hnone : annotations.isEmpty = true
    · simp only [Query.annotate, if_pos hnone]
      exact ignoresTags_self
    · simp only [Query.annotate, hnone]
      exact ignoresTags_derive _
  | orderBy keys => exact ignoresTags_orderBy keys
  | select names => exact ignoresTags_derive _
  | distinct => exact ignoresTags_distinct
  | slice low high step =>
    show IgnoresTags fun q next => q.slice low high step next
    unfold Query.slice
    cases Window.ofBounds low high step with
    | error e => exact ignoresTags_error e
    | ok window => exact ignoresTags_derive (.sliced window)
  | withOptions options => exact ignoresTags_withOptions options

end Derivation

/-! ## Streams -/

namespace Stream

variable {snapshots : Snapshots} {svc : Service}

/-- The stream with the bare chains of the queries that it is about to evaluate. -/
def bare : Stream → Stream
  | .ended => .ended
  | .replay entries => .replay entries
  | .starting source => .starting source
  | .reading lease request buffer cookie => .reading lease request buffer cookie
  | .filtered matcher inner => .filtered matcher inner.bare
  | .annotated annotations inner => .annotated annotations inner.bare
  | .unsorted keys below => .unsorted keys below.bare
  | .sorting keys collected inner => .sorting keys collected inner.bare
  | .sliced window position inner => .sliced window position inner.bare
  | .selected names inner => .selected names inner.bare
  | .distinct seen inner => .distinct seen inner.bare

/-- No query that the stream is about to evaluate has kept a result. -/
def Unkept (snapshots : Snapshots) : Stream → Prop
  | .ended | .replay _ | .starting _ | .reading _ _ _ _ => True
  | .unsorted _ below => below.Unkept snapshots
  | .filtered _ inner | .annotated _ inner | .sorting _ _ inner | .sliced _ _ inner
  | .selected _ inner | .distinct _ inner => inner.Unkept snapshots

lemma close_bare (s : Stream) (svc : Service) : s.bare.close svc = s.close svc := by
  induction s with
  | filtered matcher inner ih
  | annotated annotations inner ih
  | sorting keys collected inner ih
  | sliced window position inner ih
  | selected names inner ih
  | distinct seen inner ih => exact ih
  | _ => rfl

/-- A query that keeps nothing has the stream of its chain. -/
lemma stream_bare {q : Query} (h : q.Unkept snapshots) :
    (q.stream snapshots).bare = q.bare.stream .empty ∧ (q.stream snapshots).Unkept snapshots := by
  induction q with
  | empty => exact ⟨rfl, trivial⟩
  | search tag source =>
    have hnone : snapshots.get? tag.id = none := h
    rw [Query.stream, hnone]
    exact ⟨rfl, trivial⟩
  | staged tag stage below ih =>
    obtain ⟨hnone, hbelow⟩ := h
    obtain ⟨hbare, hunkept⟩ := ih hbelow
    have hstage : (Query.staged tag stage below).stream snapshots =
        Query.stageStream stage below (below.stream snapshots) := by
      rw [Query.stream, hnone]
    have hchain : (Query.staged tag stage below).bare.stream .empty =
        Query.stageStream stage below.bare (below.bare.stream .empty) := rfl
    rw [hstage, hchain, ← hbare]
    cases stage with
    | ordered keys => exact ⟨rfl, hbelow⟩
    | _ => exact ⟨rfl, hunkept⟩

/-- A stream that finds nothing kept takes the steps of its bare stream. -/
lemma step_bare {s s' : Stream} {event : StreamEvent} {svc' : Service} (hs : s.Unkept snapshots)
    (h : s.step snapshots svc = (event, s', svc')) :
    s.bare.step .empty svc = (event, s'.bare, svc') ∧ s'.Unkept snapshots := by
  induction s generalizing event s' svc' with
  | ended =>
    cases h
    exact ⟨rfl, trivial⟩
  | replay entries => cases entries <;> cases h <;> exact ⟨rfl, trivial⟩
  | starting source =>
    obtain ⟨e, -, rfl, -⟩ | ⟨request, lease, svc₁, result, session, d, -, -, -, hcase⟩ :=
      start_cases h
    · exact ⟨h, trivial⟩
    · obtain ⟨page, -, -, rfl, -⟩ | ⟨e, -, -, rfl, -⟩ := hcase <;> exact ⟨h, trivial⟩
  | reading lease request buffer cookie =>
    match buffer, cookie with
    | e :: rest, cookie =>
      cases h
      exact ⟨rfl, trivial⟩
    | [], none =>
      cases h
      exact ⟨rfl, trivial⟩
    | [], some cookie =>
      obtain ⟨result, session, d, -, hcase⟩ := turnPage_cases h
      obtain ⟨page, -, -, rfl, -⟩ | ⟨e, -, -, rfl, -⟩ := hcase <;> exact ⟨h, trivial⟩
  | unsorted keys below =>
    cases h
    obtain ⟨hbare, hunkept⟩ := stream_bare hs
    exact ⟨by rw [bare, step, ← hbare]; rfl, hunkept⟩
  | sorting keys collected inner ih =>
    rcases hinner : inner.step snapshots svc with ⟨below, inner', svc₁⟩
    obtain ⟨hbare, hunkept⟩ := ih hs hinner
    rw [step, hinner] at h
    rw [bare, step, hbare]
    cases below with
    | item e => cases h; exact ⟨rfl, hunkept⟩
    | pause => cases h; exact ⟨rfl, hunkept⟩
    | fault e =>
      cases h
      rw [← close_bare inner']
      exact ⟨rfl, trivial⟩
    | finish =>
      cases h
      rw [← close_bare inner']
      exact ⟨rfl, trivial⟩
  | sliced window position inner ih =>
    rcases hinner : inner.step snapshots svc with ⟨below, inner', svc₁⟩
    obtain ⟨hbare, hunkept⟩ := ih hs hinner
    rw [step_sliced, hinner] at h
    rw [bare, step_sliced, hbare]
    by_cases hover : window.isOver position = true
    · rw [if_pos hover] at h ⊢
      cases h
      rw [← close_bare inner]
      exact ⟨rfl, trivial⟩
    · rw [if_neg hover] at h ⊢
      cases below with
      | item e => cases h; exact ⟨rfl, hunkept⟩
      | pause => cases h; exact ⟨rfl, hunkept⟩
      | fault e => cases h; exact ⟨rfl, hunkept⟩
      | finish =>
        cases h
        rw [← close_bare inner']
        exact ⟨rfl, trivial⟩
  | filtered matcher inner ih
  | annotated annotations inner ih
  | selected names inner ih =>
    rcases hinner : inner.step snapshots svc with ⟨below, inner', svc₁⟩
    obtain ⟨hbare, hunkept⟩ := ih hs hinner
    rw [step, hinner] at h
    rw [bare, step, hbare]
    cases below <;> cases h <;> exact ⟨rfl, hunkept⟩
  | distinct seen inner ih =>
    rcases hinner : inner.step snapshots svc with ⟨below, inner', svc₁⟩
    obtain ⟨hbare, hunkept⟩ := ih hs hinner
    rw [step, hinner] at h
    rw [bare, step, hbare]
    cases below with
    | item e =>
      simp only at h ⊢
      by_cases hseen : seen.contains e.distinctKey = true
      · rw [if_pos hseen] at h ⊢
        cases h
        exact ⟨rfl, hunkept⟩
      · rw [if_neg hseen] at h ⊢
        cases h
        exact ⟨rfl, hunkept⟩
    | _ => cases h; exact ⟨rfl, hunkept⟩

lemma budget_bare_query {q : Query} (h : q.Unkept snapshots) (size : Nat) :
    q.bare.budget .empty size = q.budget snapshots size := by
  induction q with
  | empty => rfl
  | search tag source =>
    have hnone : snapshots.get? tag.id = none := h
    rw [Query.budget, hnone]
    rfl
  | staged tag stage below ih =>
    obtain ⟨hnone, hbelow⟩ := h
    have hchain := ih hbelow
    cases stage with
    | ordered keys =>
      simp only [Query.bare, Query.budget, hnone, Snapshots.get?_empty, hchain]
    | _ =>
      simp only [Query.bare, Query.budget, hnone, Snapshots.get?_empty]
      exact hchain

lemma budget_bare {s : Stream} (hs : s.Unkept snapshots) (size : Nat) :
    s.bare.budget .empty size = s.budget snapshots size := by
  induction s with
  | unsorted keys below =>
    rw [bare, budget, budget, budget_bare_query hs]
  | sorting keys collected inner ih =>
    rw [bare, budget, budget, ih hs]
  | reading lease request buffer cookie => cases cookie <;> rfl
  | filtered matcher inner ih
  | annotated annotations inner ih
  | sliced window position inner ih
  | selected names inner ih
  | distinct seen inner ih => exact ih hs
  | _ => rfl

end Stream

/-! ## Evaluations -/

namespace Results

variable {r r' : Results} {w w' : Workspace}

/-- Results of the bare stream take the same step, and nothing is recorded. -/
lemma step_bare {event : StreamEvent} (hr : r.stream.Unkept w.snapshots)
    (h : r.step w = (event, r', w')) :
    step ⟨r.stream.bare, none⟩ ⟨w.service, .empty⟩ =
        (event, ⟨r'.stream.bare, none⟩, ⟨w'.service, .empty⟩) ∧
      (event ≠ .finish → r'.stream.Unkept w'.snapshots) := by
  obtain ⟨hstep, hunkept⟩ := Stream.step_bare hr (stream_step h)
  refine ⟨?_, fun hevent => ?_⟩
  · rw [step, hstep]
    rfl
  · rw [snapshots_of_step h hevent]
    exact hunkept

/-- Whoever goes through results that find nothing kept finds what the bare stream delivers. -/
lemma foldWithin_bare {β : Type} (f : β → Entry → β) {steps : Nat} {acc acc' : β}
    {failure : Option QueryError} (hr : r.stream.Unkept w.snapshots)
    (h : foldWithin f steps acc r w = (acc', failure, w')) :
    foldWithin f steps acc ⟨r.stream.bare, none⟩ ⟨w.service, .empty⟩ =
      (acc', failure, ⟨w'.service, .empty⟩) := by
  have hclose : ∀ (r : Results) (w : Workspace),
      close ⟨r.stream.bare, none⟩ ⟨w.service, .empty⟩ = ⟨(r.close w).service, .empty⟩ := by
    intro r w
    rw [close, Stream.close_bare, close]
  induction steps generalizing acc r w with
  | zero =>
    cases h
    rw [foldWithin, hclose]
  | succ steps ih =>
    unfold foldWithin at h ⊢
    rcases hstep : r.step w with ⟨event, r₁, w₁⟩
    obtain ⟨hbare, hrest⟩ := step_bare hr hstep
    rw [hstep] at h
    rw [hbare]
    cases event with
    | item e => exact ih (hrest (by simp)) h
    | pause => exact ih (hrest (by simp)) h
    | fault e =>
      cases h
      simp only [hclose]
    | finish =>
      cases h
      simp only [hclose]

end Results

namespace Query

/-- As long as no instance of a query has kept a result, fetching it is fetching its chain where
nothing was ever kept: what comes out is the same, and so is what becomes of the directory and the
pool. -/
theorem fetch_bare {q : Query} {w : Workspace} (h : q.Unkept w.snapshots) :
    (q.fetch w).1 = (q.bare.fetch ⟨w.service, .empty⟩).1 ∧
      (q.fetch w).2.service = (q.bare.fetch ⟨w.service, .empty⟩).2.service := by
  obtain ⟨hbare, hunkept⟩ := Stream.stream_bare h
  have hcached : q.cached? w.snapshots = none := by
    cases q with
    | empty => rfl
    | search tag source => exact h
    | staged tag stage below => exact h.1
  have hchain : q.bare.cached? .empty = none := by cases q <;> rfl
  have hresults : q.bare.results .empty = ⟨(q.stream w.snapshots).bare, none⟩ := by
    rw [results, ← hbare]
    cases q <;> rfl
  have hbudget : Results.budget ⟨(q.stream w.snapshots).bare, none⟩ ⟨w.service, .empty⟩ =
      (q.results w.snapshots).budget w := Stream.budget_bare hunkept _
  rcases hfold : (q.results w.snapshots).fold (fun acc e => e :: acc) [] w with ⟨acc, failure, w'⟩
  have hbareFold : (q.bare.results .empty).fold (fun acc e => e :: acc) [] ⟨w.service, .empty⟩ =
      (acc, failure, ⟨w'.service, .empty⟩) := by
    rw [Results.fold, hresults, hbudget]
    exact Results.foldWithin_bare _ hunkept hfold
  rw [fetch, fetch, hcached, hchain]
  simp only [Results.toList, hfold, hbareFold]
  cases failure <;> exact ⟨rfl, rfl⟩

end Query

end DirectoryQuery
