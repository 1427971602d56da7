import DirectoryQuery.Proofs.Query.Commuting
import Mathlib.Logic.Function.Basic

/-!
# Instances in a book

A book says of every instance of a query what its result is, computed as if nothing were kept.  When
what is kept agrees with the book, it makes no difference to any query that is filed there
(`Query.IsFiled.result_eq`).

Instances have numbers above those of the instances below them, and every operation draws new
numbers from a counter.  So whatever an operation makes of a filed query can be filed as well,
without touching what stands in the book already (`Query.Files`); for filters that is
`Query.files_refine`.
-/

namespace DirectoryQuery

open DirectoryQuery.Filter

/-! ## Searches that can be written -/

/-- The filter of a search is written exactly when its conditions compile, if the directory is to
evaluate them all. -/
lemma Source.exists_filterText_iff {s : Source}
    (hpushed : ∀ c ∈ conditions? s.filter, directoryPlacement c = .pushed) :
    (∃ text, s.filterText = .ok text) ↔ ∀ c ∈ conditions? s.filter, (leaf c).Compiles := by
  rw [filterText]
  cases hfilter : s.filter with
  | none => simp
  | some f =>
    rw [hfilter, conditions?_some] at hpushed
    rw [conditions?_some, ← compiles_iff]
    exact exists_render_iff fun c hc => not_isComparison_of_pushed (hpushed c hc)

/-- A search whose filter can be written stays faithful with a further filter for the directory. -/
lemma Source.IsFaithful.push_of_filterText {entries : List Entry} {s : Source}
    (h : s.IsFaithful entries) {base : String} (hbase : DistinguishedName.IsTidy base)
    (scope : Scope) {f : Option Filter}
    (hpushed : ∀ c ∈ conditions? f, directoryPlacement c = .pushed)
    (hportable : ∀ c ∈ conditions? f, c.IsPortable entries) {text : String}
    (htext : filterText ⟨base, scope, and? s.filter f⟩ = .ok text) :
    IsFaithful entries ⟨base, scope, and? s.filter f⟩ := by
  have hall : ∀ c ∈ conditions? (and? s.filter f), directoryPlacement c = .pushed :=
    forall_conditions?_and?.2 ⟨h.pushed, hpushed⟩
  have hcompiles : ∀ c ∈ conditions? (and? s.filter f), (leaf c).Compiles :=
    (exists_filterText_iff hall).1 ⟨text, htext⟩
  exact h.push hbase scope (forall_conditions?_and?.1 hcompiles).2 hpushed hportable

namespace Query

variable {entries : List Entry} {book book' : Nat → List Entry} {q : Query} {next next' : Nat}

/-! ## Instances in the book -/

/-- Every instance of the query has a number below `next` and above those of the instances below it,
and under this number stands its result. -/
def IsFiled (entries : List Entry) (book : Nat → List Entry) : Query → Nat → Prop
  | .empty, _ => True
  | .search tag source, next =>
    tag.id < next ∧ book tag.id = (search tag source).afresh entries
  | .staged tag stage below, next =>
    tag.id < next ∧ book tag.id = (staged tag stage below).afresh entries ∧
      below.IsFiled entries book tag.id

lemma IsFiled.mono (h : q.IsFiled entries book next) (hnext : next ≤ next') :
    q.IsFiled entries book next' := by
  cases q with
  | empty => trivial
  | search tag source => exact ⟨Nat.lt_of_lt_of_le h.1 hnext, h.2⟩
  | staged tag stage below => exact ⟨Nat.lt_of_lt_of_le h.1 hnext, h.2⟩

/-- Only the numbers below `next` matter. -/
lemma IsFiled.congr (h : q.IsFiled entries book next) (hbook : ∀ id < next, book' id = book id) :
    q.IsFiled entries book' next := by
  induction q generalizing next with
  | empty => trivial
  | search tag source => exact ⟨h.1, (hbook tag.id h.1).trans h.2⟩
  | staged tag stage below ih =>
    obtain ⟨hid, hresult, hbelow⟩ := h
    refine ⟨hid, (hbook tag.id hid).trans hresult, ih hbelow fun id hlt => ?_⟩
    exact hbook id (Nat.lt_trans hlt hid)

lemma IsFiled.of_tag? (h : q.IsFiled entries book next) {tag : QueryTag}
    (htag : q.tag? = some tag) : tag.id < next ∧ book tag.id = q.afresh entries := by
  cases q with
  | empty => cases htag
  | search tag' source =>
    obtain rfl := Option.some.inj htag
    exact h
  | staged tag' stage below =>
    obtain rfl := Option.some.inj htag
    exact ⟨h.1, h.2.1⟩

/-- If what is kept agrees with the book, it makes no difference to the result. -/
lemma IsFiled.result_eq (h : q.IsFiled entries book next) {snapshots : Snapshots}
    (hcurrent : ∀ id es, snapshots.get? id = some es → book id = es) :
    q.result entries snapshots = q.afresh entries := by
  induction q generalizing next with
  | empty => rfl
  | search tag source =>
    cases hget : snapshots.get? tag.id with
    | none => rw [result_search hget, afresh_search]
    | some es =>
      rw [result, meaning, hget, Option.getD_some, ← hcurrent _ _ hget]
      exact h.2
  | staged tag stage below ih =>
    obtain ⟨-, hresult, hbelow⟩ := h
    cases hget : snapshots.get? tag.id with
    | none => rw [result_staged hget, afresh_staged, ih hbelow]
    | some es =>
      rw [result, meaning, hget, Option.getD_some, ← hcurrent _ _ hget]
      exact hresult

/-! ## New instances -/

section Files

variable {ε : Type}

/-- If composing succeeds, what comes out can be filed without touching what stands in the book. -/
def Files (entries : List Entry) (book : Nat → List Entry) (next : Nat)
    (outcome : Except ε (Query × Nat)) : Prop :=
  ∀ q next', outcome = .ok (q, next') → q.IsDerived entries ∧ next ≤ next' ∧
    ∃ book' : Nat → List Entry, (∀ id < next, book' id = book id) ∧ q.IsFiled entries book' next'

lemma files_error (e : ε) : Files entries book next (.error e) := by
  intro q next' hok
  cases hok

lemma Files.bind {outcome : Except ε (Query × Nat)} {g : Query × Nat → Except ε (Query × Nat)}
    (h : Files entries book next outcome)
    (hg : ∀ q next' book', q.IsDerived entries → q.IsFiled entries book' next' →
      Files entries book' next' (g (q, next'))) :
    Files entries book next (outcome >>= g) := by
  cases outcome with
  | error e => exact files_error e
  | ok made =>
    intro q next'' hok
    obtain ⟨hderived, hnext, book', hbook, hfiled⟩ := h made.1 made.2 rfl
    obtain ⟨hderived', hnext', book'', hbook', hfiled'⟩ :=
      hg made.1 made.2 book' hderived hfiled q next'' hok
    refine ⟨hderived', Nat.le_trans hnext hnext', book'', fun id hid => ?_, hfiled'⟩
    exact (hbook' id (Nat.lt_of_lt_of_le hid hnext)).trans (hbook id hid)

lemma files_self (hderived : q.IsDerived entries) (hfiled : q.IsFiled entries book next) :
    Files entries book next (.ok (q, next) : Except ε (Query × Nat)) := by
  intro q' next' hok
  cases hok
  exact ⟨hderived, Nat.le_refl _, book, fun _ _ => rfl, hfiled⟩

lemma files_search {source : Source} (hsource : source.IsFaithful entries)
    (options : QueryOptions) :
    Files entries book next
      (.ok (.search ⟨next, options⟩ source, next + 1) : Except ε (Query × Nat)) := by
  intro q' next' hok
  cases hok
  refine ⟨hsource, Nat.le_succ next,
    Function.update book next ((search ⟨next, options⟩ source).afresh entries), fun id hid => ?_,
    Nat.lt_succ_self next, Function.update_self ..⟩
  exact Function.update_of_ne (Nat.ne_of_lt hid) ..

lemma files_staged {stage : Stage} (hstage : stage.commutes = true)
    (hderived : q.IsDerived entries) (hfiled : q.IsFiled entries book next)
    (options : QueryOptions) :
    Files entries book next
      (.ok (.staged ⟨next, options⟩ stage q, next + 1) : Except ε (Query × Nat)) := by
  intro q' next' hok
  cases hok
  have hbook : ∀ id < next, Function.update book next
      ((staged ⟨next, options⟩ stage q).afresh entries) id = book id :=
    fun id hid => Function.update_of_ne (Nat.ne_of_lt hid) ..
  exact ⟨⟨hstage, hderived⟩, Nat.le_succ next, _, hbook, Nat.lt_succ_self next,
    Function.update_self .., hfiled.congr hbook⟩

lemma files_derive {stage : Stage} (hstage : stage.commutes = true)
    (hderived : q.IsDerived entries) (hfiled : q.IsFiled entries book next) :
    Files entries book next (.ok (q.derive stage next) : Except ε (Query × Nat)) := by
  cases q with
  | empty => exact files_self hderived hfiled
  | search tag source => exact files_staged hstage hderived hfiled _
  | staged tag stage' below => exact files_staged hstage hderived hfiled _

end Files

/-! ## Operations on queries -/

lemma files_filterOnTop? (f : Option Filter) (hderived : q.IsDerived entries)
    (hfiled : q.IsFiled entries book next) : Files entries book next (filterOnTop? f q next) := by
  cases f with
  | none => exact files_self hderived hfiled
  | some f =>
    rw [filterOnTop?, filterOnTop]
    cases Matcher.ofFilter f with
    | error e => exact files_error e
    | ok matcher => exact files_derive rfl hderived hfiled

lemma files_searchWith {source : Source}
    (hsource : ∀ text, source.filterText = .ok text → source.IsFaithful entries)
    (kept : Option Filter) (options : QueryOptions) :
    Files entries book next (searchWith source kept options next) := by
  rw [searchWith]
  cases htext : source.filterText with
  | error e => exact files_error e
  | ok text =>
    refine (files_search (hsource text htext) options).bind
      (g := fun q => filterOnTop? kept q.1 q.2) fun q next' book' hderived hfiled => ?_
    exact files_filterOnTop? kept hderived hfiled

lemma files_refineSearch {source : Source} (hsource : source.IsFaithful entries) {f : Filter}
    (hportable : ∀ c ∈ f.conditions, c.IsPortable entries) (options : QueryOptions) :
    Files entries book next (refineSearch source f options next) := by
  have hsplit : f.splitForDirectory.IsSplitOf directoryPlacement f.conditions :=
    isSplitOf_split directoryPlacement f
  have hpinned : ∀ c ∈ f.splitForDirectory.pinned, directoryPlacement c = .pinned :=
    fun c hc => (hsplit.pinned c hc).2
  have hpush : ∀ {base : String}, DistinguishedName.IsTidy base → ∀ (scope : Scope) (text : String),
      Source.filterText ⟨base, scope, and? source.filter f.splitForDirectory.pushed⟩ = .ok text →
        Source.IsFaithful entries
          ⟨base, scope, and? source.filter f.splitForDirectory.pushed⟩ :=
    fun hbase scope text => hsource.push_of_filterText hbase scope
      (fun c hc => (hsplit.pushed c hc).2) fun c hc => hportable c (hsplit.pushed c hc).1
  rw [refineSearch]
  cases hresolve : Pin.resolve f.splitForDirectory.pinned with
  | conflict => exact files_self (q := .empty) trivial trivial
  | unpinned => exact files_searchWith (hpush hsource.base source.scope) _ _
  | entry dn checks =>
    obtain ⟨⟨c, hc, hoperand⟩, -⟩ := Pin.entry_of_resolve hpinned hresolve
    have htidy : DistinguishedName.IsTidy dn :=
      (hportable c (hsplit.pinned c hc).1).tidy (hpinned c hc) dn hoperand
    simp only
    split
    · exact files_searchWith (hpush htidy .singleEntry) _ _
    · exact files_self (q := .empty) trivial trivial

/-- What comes out of putting a filter on a query, whether or not it compiles, can be filed. -/
theorem files_refine {f : Filter} (hderived : q.IsDerived entries)
    (hfiled : q.IsFiled entries book next)
    (hportable : ∀ c ∈ conditions? (q.sends f), c.IsPortable entries) :
    Files entries book next (refine f q next) := by
  induction q generalizing f next with
  | empty => exact files_self hderived hfiled
  | search tag source =>
    rw [sends, conditions?_some] at hportable
    exact files_refineSearch hderived hportable tag.options
  | staged tag stage below ih =>
    obtain ⟨hstage, hbelow⟩ := hderived
    have hfiledBelow : below.IsFiled entries book next := hfiled.2.2.mono (Nat.le_of_lt hfiled.1)
    cases stage with
    | filtered matcher =>
      rw [refine.eq_def]
      exact (ih hbelow hfiledBelow hportable).bind
        fun q next' book' hderived' hfiled' => files_derive rfl hderived' hfiled'
    | ordered keys =>
      rw [refine.eq_def]
      exact (ih hbelow hfiledBelow hportable).bind
        fun q next' book' hderived' hfiled' => files_derive rfl hderived' hfiled'
    | annotated annotations =>
      rw [sends] at hportable
      have hpushed : Files entries book next
          (refine? (f.splitByNames (annotations.map (·.1))).pushed below next) := by
        cases hpart : (f.splitByNames (annotations.map (·.1))).pushed with
        | none => exact files_self hbelow hfiledBelow
        | some pushed =>
          rw [hpart] at hportable
          exact ih hbelow hfiledBelow hportable
      rw [refine_annotated]
      refine hpushed.bind fun q next' book' hderived' hfiled' => ?_
      have hstage : (Stage.annotated annotations).commutes = true := rfl
      refine (files_derive hstage hderived' hfiled').bind
        (g := fun q => filterOnTop? _ q.1 q.2) fun q next' book' hderived' hfiled' => ?_
      exact files_filterOnTop? _ hderived' hfiled'
    | sliced window =>
      rw [refine.eq_def]
      exact files_filterOnTop? (some f) (q := .staged tag (.sliced window) below)
        ⟨hstage, hbelow⟩ hfiled
    | selected names => cases hstage
    | distinct => cases hstage

lemma files_ofBase {base : String} (hbase : DistinguishedName.IsTidy base) (scope : Scope) :
    Files entries book next (.ok (ofBase base scope next) : Except FilterError (Query × Nat)) :=
  files_search ⟨hbase, by simp, by simp, by simp⟩ .default

lemma files_annotate (annotations : List (String × Annotation)) (hderived : q.IsDerived entries)
    (hfiled : q.IsFiled entries book next) :
    Files entries book next
      (.ok (q.annotate annotations next) : Except FilterError (Query × Nat)) := by
  unfold annotate
  split
  · exact files_self hderived hfiled
  · exact files_derive rfl hderived hfiled

lemma files_orderBy (keys : List String) (hderived : q.IsDerived entries)
    (hfiled : q.IsFiled entries book next) :
    Files entries book next (.ok (q.orderBy keys next) : Except FilterError (Query × Nat)) := by
  unfold orderBy
  simp only
  split
  · exact files_self hderived hfiled
  · split
    · exact files_derive rfl hderived.2 (hfiled.2.2.mono (Nat.le_of_lt hfiled.1))
    · exact files_derive rfl hderived hfiled

lemma files_slice (low : Int) (high : Option Int) (step : Int) (hderived : q.IsDerived entries)
    (hfiled : q.IsFiled entries book next) :
    Files entries book next (q.slice low high step next) := by
  unfold slice
  cases Window.ofBounds low high step with
  | error e => exact files_error e
  | ok window => exact files_derive rfl hderived hfiled

end Query

end DirectoryQuery
