import DirectoryQuery.Proofs.Query.Annotation
import DirectoryQuery.Proofs.Query.Pushdown
import DirectoryQuery.Proofs.Query.Sorting

/-!
# Filters commute with stages

A filter that is put on a query sinks through the stages: below filters, orderings and, as far as it
does not ask for what they compute, annotations; on a window it stays on top.  Where it ends up
makes no difference to the result.  A query that comes out has, as long as nothing was kept, the
entries of the query before that the filter accepts, in their order (`Query.gives_refine`).

That needs what `Pushdown` needs of a search, and only of the part of the filter that gets as far as
the search (`Query.sends`).  Conditions on computed attributes never do, nor does anything put on a
window.
-/

namespace DirectoryQuery

/-- Whether filters commute with the stage. -/
def Stage.commutes : Stage → Bool
  | .filtered _ | .annotated _ | .ordered _ | .sliced _ => true
  | .selected _ | .distinct => false

namespace Query

open DirectoryQuery.Filter

variable {entries : List Entry}

/-- The query is a faithful search with stages on top of it that filters commute with, or it is
empty. -/
def IsDerived (entries : List Entry) : Query → Prop
  | .empty => True
  | .search _ source => source.IsFaithful entries
  | .staged _ stage below => stage.commutes = true ∧ below.IsDerived entries

lemma IsDerived.isFaithful {q : Query} (h : q.IsDerived entries) {source : Source}
    (hsource : q.source? = some source) : source.IsFaithful entries := by
  induction q with
  | empty => cases hsource
  | search tag source' =>
    obtain rfl := Option.some.inj hsource
    exact h
  | staged tag stage below ih => exact ih h.2 hsource

/-- What is put on the search of a query when a filter is put on the query. -/
def sends : Query → Filter → Option Filter
  | .empty, _ => none
  | .search _ _, f => some f
  | .staged _ stage below, f =>
    match stage with
    | .sliced _ => none
    | .annotated annotations => (f.splitByNames (annotations.map (·.1))).pushed.bind below.sends
    | _ => below.sends f

/-- Only conditions of the filter get as far as the search. -/
lemma mem_conditions_of_sends {q : Query} {f : Filter} {c : Condition}
    (h : c ∈ conditions? (q.sends f)) : c ∈ f.conditions := by
  induction q generalizing f with
  | empty => cases h
  | search tag source =>
    rw [sends, conditions?_some] at h
    exact h
  | staged tag stage below ih =>
    cases stage with
    | sliced window => cases h
    | annotated annotations =>
      rw [sends] at h
      cases hpushed : (f.splitByNames (annotations.map (·.1))).pushed with
      | none =>
        rw [hpushed] at h
        cases h
      | some pushed =>
        rw [hpushed] at h
        exact (conditions_of_pushed hpushed c (ih h)).1
    | filtered matcher => exact ih h
    | ordered keys => exact ih h
    | selected names => exact ih h
    | distinct => exact ih h

/-- Puts a filter on a query if there is one. -/
def refine? (f : Option Filter) (q : Query) (next : Nat) : Except FilterError (Query × Nat) :=
  match f with
  | some f => q.refine f next
  | none => .ok (q, next)

lemma refine_annotated (f : Filter) (tag : QueryTag) (annotations : List (String × Annotation))
    (below : Query) (next : Nat) :
    refine f (staged tag (.annotated annotations) below) next =
      (refine? (f.splitByNames (annotations.map (·.1))).pushed below next).bind fun q =>
        filterOnTop? (f.splitByNames (annotations.map (·.1))).kept
          (q.1.derive (.annotated annotations) q.2).1
          (q.1.derive (.annotated annotations) q.2).2 := by
  rw [refine.eq_def]
  simp only
  cases (f.splitByNames (annotations.map (·.1))).pushed <;> rfl

/-! ## Results when nothing is kept -/

/-- The result of a query when none is kept. -/
def afresh (entries : List Entry) (q : Query) : List Entry :=
  q.result entries .empty

lemma afresh_search (tag : QueryTag) (source : Source) :
    (search tag source).afresh entries = entries.filter source.accepts :=
  result_search rfl source

lemma afresh_staged (tag : QueryTag) (stage : Stage) (below : Query) :
    (staged tag stage below).afresh entries = stage.apply (below.afresh entries) :=
  result_staged rfl stage below

lemma afresh_derive (stage : Stage) (q : Query) (next : Nat) :
    (q.derive stage next).1.afresh entries = stage.apply (q.afresh entries) := by
  cases q with
  | empty => exact stage.apply_nil.symm
  | search tag source => exact afresh_staged _ _ _
  | staged tag stage' below => exact afresh_staged _ _ _

/-- Composing succeeds, with a query that has this result. -/
def Gives (entries : List Entry) (outcome : Except FilterError (Query × Nat)) (es : List Entry) :
    Prop :=
  ∃ q next', outcome = .ok (q, next') ∧ q.afresh entries = es

lemma Gives.bind {outcome : Except FilterError (Query × Nat)}
    {g : Query × Nat → Except FilterError (Query × Nat)} {es es' : List Entry}
    (h : Gives entries outcome es)
    (hg : ∀ q next', q.afresh entries = es → Gives entries (g (q, next')) es') :
    Gives entries (outcome >>= g) es' := by
  obtain ⟨q, next', rfl, hresult⟩ := h
  exact hg q next' hresult

lemma gives_derive (stage : Stage) (q : Query) (next : Nat) :
    Gives entries (.ok (q.derive stage next)) (stage.apply (q.afresh entries)) :=
  ⟨_, _, rfl, afresh_derive stage q next⟩

lemma gives_filterOnTop? {f : Option Filter} (hf : ∀ c ∈ conditions? f, (leaf c).Compiles)
    (q : Query) (next : Nat) :
    Gives entries (filterOnTop? f q next) ((q.afresh entries).filter (accepts? f)) := by
  cases f with
  | none => exact ⟨q, next, rfl, (List.filter_eq_self.2 fun _ _ => rfl).symm⟩
  | some f =>
    rw [conditions?_some] at hf
    obtain ⟨matcher, hmatcher, haccepts⟩ := Matcher.exists_ofFilter (compiles_iff.2 hf)
    rw [filterOnTop?, filterOnTop, hmatcher]
    exact haccepts ▸ gives_derive (.filtered matcher) q next

/-! ## Putting a filter on a query -/

/-- A filter on a query leaves what both let pass, in the order and with the attributes that the
query gives. -/
theorem gives_refine {q : Query} (hq : q.IsDerived entries)
    (hentries : ∀ e ∈ entries, e.Built ∧ DistinguishedName.IsTidy e.dn) {f : Filter}
    (hf : f.Compiles) (hportable : ∀ c ∈ conditions? (q.sends f), c.IsPortable entries)
    (next : Nat) : Gives entries (refine f q next) ((q.afresh entries).filter f.accepts) := by
  induction q generalizing f next with
  | empty => exact ⟨.empty, next, rfl, rfl⟩
  | search tag source =>
    have hfresh : Snapshots.empty.FreshFrom next := fun _ _ => rfl
    rw [sends, conditions?_some] at hportable
    obtain ⟨q, next', hrefine, -, -, hresult⟩ :=
      composes_refineSearch hfresh hq hentries hf hportable tag.options
    rw [afresh_search]
    exact ⟨q, next', hrefine, hresult⟩
  | staged tag stage below ih =>
    obtain ⟨hstage, hbelow⟩ := hq
    rw [afresh_staged]
    cases stage with
    | filtered matcher =>
      rw [refine.eq_def, Stage.apply, List.filter_comm]
      refine (ih hbelow hf hportable next).bind fun q next' hresult => ?_
      rw [← hresult]
      exact gives_derive (.filtered matcher) q next'
    | ordered keys =>
      rw [refine.eq_def, Stage.apply, ← SortKey.sort_filter]
      refine (ih hbelow hf hportable next).bind fun q next' hresult => ?_
      rw [← hresult]
      exact gives_derive (.ordered keys) q next'
    | annotated annotations =>
      have hkept : ∀ c ∈ conditions? (f.splitByNames (annotations.map (·.1))).kept,
          (leaf c).Compiles :=
        fun c hc => compiles_iff.1 hf c ((isSplitOf_splitByNames f _).kept c hc)
      rw [sends] at hportable
      have hpushed : Gives entries
          (refine? (f.splitByNames (annotations.map (·.1))).pushed below next)
          ((below.afresh entries).filter
            (accepts? (f.splitByNames (annotations.map (·.1))).pushed)) := by
        cases hpart : (f.splitByNames (annotations.map (·.1))).pushed with
        | none => exact ⟨below, next, rfl, (List.filter_eq_self.2 fun _ _ => rfl).symm⟩
        | some pushed =>
          rw [hpart] at hportable
          exact ih hbelow (compiles_of_pushed hf hpart) hportable next
      -- What is pushed has the same verdict before the attributes are computed.
      rw [refine_annotated, Stage.apply, filter_annotate hf]
      refine hpushed.bind fun q next' hresult => ?_
      rw [← hresult]
      have htop : (q.derive (.annotated annotations) next').1.afresh entries =
          (q.afresh entries).map fun e => e.annotate annotations := afresh_derive _ q next'
      rw [← htop]
      exact gives_filterOnTop? hkept _ _
    | sliced window =>
      have hall : ∀ c ∈ conditions? (some f), (leaf c).Compiles := by
        rw [conditions?_some]
        exact compiles_iff.1 hf
      rw [← afresh_staged tag]
      exact gives_filterOnTop? hall _ next
    | selected names => cases hstage
    | distinct => cases hstage

end Query

end DirectoryQuery
