import DirectoryQuery.Proofs.DistinguishedName
import DirectoryQuery.Proofs.Filter.Agreement
import DirectoryQuery.Proofs.Filter.Split
import DirectoryQuery.Proofs.Query.Search
import DirectoryQuery.Query.Compose

/-!
# Where a filter is evaluated makes no difference

A filter that is put on a query is taken apart: some of it goes into the filter that the directory
evaluates, some becomes the base of the search, and the rest is matched on what comes back.
Whichever way it goes, the query finds the entries of the directory that the search covers and that
every filter accepts (`Query.fetch_restricted`).

What has to be known for this is gathered in `Condition.IsPortable`, `DistinguishedName.IsTidy` and
`Entry.Built`.  A condition that goes to the directory has a name that can be written in a filter,
and read back there it has the same verdict.  No component of a name ends in a backslash that
escapes nothing, since a search for one entry compares spellings where other searches compare
components.  And an entry has its name under one spelling of the identity attribute only.
-/

namespace DirectoryQuery

/-! ## Conditions and searches that can be moved -/

/-- Written, read back and evaluated by a directory, the condition has the verdict of the compiled
one. -/
def Condition.AgreesOn (c : Condition) (e : Entry) : Prop :=
  ∀ text filter, c.render = .ok text → SearchFilter.parse text = .ok filter →
    filter.holds e = (Filter.leaf c).accepts e

/-- Where both sides compare values alike, a condition has one verdict. -/
lemma Condition.agreesOn_of_isUnmixed {c : Condition} (hname : IsPlainName c.field)
    (hclass : Text.sameName c.field classAttribute = false) (hid : isIdentity c.field = false)
    (hcompare : c.isComparison = false) {e : Entry} (hmix : c.IsUnmixed e) : c.AgreesOn e := by
  intro text filter hrender hparse
  have hasked := SearchFilter.parse_of_readsAs (readsAs_render_condition hname hrender)
  obtain rfl := Except.ok.inj (hparse.symm.trans hasked)
  cases hcompile : c.compile with
  | error e =>
    rw [(Condition.render_eq_error_iff hcompare e).2 hcompile] at hrender
    cases hrender
  | ok test =>
    have hleaf : (Filter.leaf c).compile = .ok test := hcompile
    rw [c.holds_asked hclass hid hcompare hmix hcompile, Filter.accepts_of_compile hleaf]

/-- What a condition needs to have the same verdict on these entries wherever it is evaluated. -/
structure Condition.IsPortable (entries : List Entry) (c : Condition) : Prop where
  plain : directoryPlacement c = .pushed → IsPlainName c.field
  agrees : directoryPlacement c = .pushed → ∀ e ∈ entries, c.AgreesOn e
  tidy : directoryPlacement c = .pinned → ∀ dn, c.operand = .one (.text dn) →
    DistinguishedName.IsTidy dn

namespace Source

open DirectoryQuery.Filter SearchFilter

/-- Whether the search is to find an entry. -/
def accepts (s : Source) (e : Entry) : Bool :=
  s.scope.covers s.base e.dn && accepts? s.filter e

/-- The directory evaluates the search as it is meant. -/
structure IsFaithful (entries : List Entry) (s : Source) : Prop where
  base : DistinguishedName.IsTidy s.base
  compiles : ∀ c ∈ conditions? s.filter, (leaf c).Compiles
  pushed : ∀ c ∈ conditions? s.filter, directoryPlacement c = .pushed
  portable : ∀ c ∈ conditions? s.filter, c.IsPortable entries

variable {entries : List Entry} {s : Source}

lemma readsAs_catchAll : ReadsAs (Text.bytesOf catchAll) (.present classAttribute) :=
  readsAs_renderPresence (show IsPlainName classAttribute by decide) true

lemma holds_asked {c : Condition} (hname : IsPlainName c.field) {text : String}
    (h : c.render = .ok text) {e : Entry} (hagrees : c.AgreesOn e) :
    c.asked.holds e = (leaf c).accepts e :=
  hagrees text c.asked h (parse_of_readsAs (readsAs_render_condition hname h))

/-- A faithful search stays so at another base and with a further filter for the directory. -/
lemma IsFaithful.push (h : s.IsFaithful entries) {base : String}
    (hbase : DistinguishedName.IsTidy base) (scope : Scope) {f : Option Filter}
    (hcompiles : ∀ c ∈ conditions? f, (leaf c).Compiles)
    (hpushed : ∀ c ∈ conditions? f, directoryPlacement c = .pushed)
    (hportable : ∀ c ∈ conditions? f, c.IsPortable entries) :
    IsFaithful entries ⟨base, scope, and? s.filter f⟩ where
  base := hbase
  compiles := forall_conditions?_and?.2 ⟨h.compiles, hcompiles⟩
  pushed := forall_conditions?_and?.2 ⟨h.pushed, hpushed⟩
  portable := forall_conditions?_and?.2 ⟨h.portable, hportable⟩

/-- The text of a faithful search is read back as a filter with the same verdicts. -/
lemma IsFaithful.exists_filter (h : s.IsFaithful entries) :
    ∃ text filter, s.filterText = .ok text ∧ SearchFilter.parse text = .ok filter ∧
      ∀ e ∈ entries, filter.holds e = accepts? s.filter e := by
  unfold filterText
  cases hfilter : s.filter with
  | none =>
    refine ⟨catchAll, .present classAttribute, rfl, parse_of_readsAs readsAs_catchAll, ?_⟩
    intro e _
    rw [SearchFilter.holds, Text.sameName_refl, Bool.true_or]
    rfl
  | some f =>
    obtain ⟨-, hcompiles, hpushed, hportable⟩ := h
    rw [hfilter, conditions?_some] at hcompiles hpushed hportable
    have hplain : ∀ c ∈ f.conditions, IsPlainName c.field := fun c hc =>
      (hportable c hc).plain (hpushed c hc)
    have hcompare : ∀ c ∈ f.conditions, c.isComparison = false := fun c hc =>
      not_isComparison_of_pushed (hpushed c hc)
    obtain ⟨text, htext⟩ := (exists_render_iff hcompare).2 (compiles_iff.2 hcompiles)
    refine ⟨text, f.asked, htext, parse_of_readsAs (readsAs_render hplain htext), fun e he => ?_⟩
    apply Filter.holds_asked (compiles_iff.2 hcompiles)
    intro c hc
    have hrender : ∃ text, (leaf c).render = .ok text :=
      (exists_render_iff (by simpa using hcompare c hc)).2 (hcompiles c hc)
    obtain ⟨text, htext⟩ := hrender
    exact holds_asked (hplain c hc) htext ((hportable c hc).agrees (hpushed c hc) e he)

/-- The directory finds what a faithful search is to find. -/
lemma IsFaithful.answer_eq {d : Directory} (h : s.IsFaithful d.entries)
    (hentries : ∀ e ∈ d.entries, DistinguishedName.IsTidy e.dn) {filter : SearchFilter}
    (hfilter : ∀ e ∈ d.entries, filter.holds e = accepts? s.filter e) :
    d.answer s filter = d.entries.filter s.accepts := by
  unfold Directory.answer
  split
  · apply List.filter_congr
    intro e he
    rw [hfilter e he, accepts]
  · rename_i hbase
    -- An entry that the scope covers would be a witness for the base.
    refine (List.filter_eq_nil_iff.2 fun e he haccepts => hbase ?_).symm
    rw [accepts, Bool.and_eq_true] at haccepts
    have hwithin :=
      Scope.isWithin_of_covers h.base.isSeparable (hentries e he).isSeparable haccepts.1
    rw [Directory.hasBase, Bool.or_eq_true]
    exact .inr (List.any_eq_true.2 ⟨e, he, hwithin⟩)

end Source

/-- A filter that compiles has a matcher with its verdicts. -/
lemma Matcher.exists_ofFilter {f : Filter} (h : f.Compiles) :
    ∃ matcher, Matcher.ofFilter f = .ok matcher ∧ matcher.accepts = Filter.accepts? (some f) := by
  obtain ⟨test, htest⟩ := h
  refine ⟨⟨f, test⟩, ?_, (funext (Filter.accepts_of_compile htest)).symm⟩
  rw [Matcher.ofFilter, htest]
  rfl

/-! ## Queries that select -/

/-- No result is kept under a number that is still to be given out. -/
def Snapshots.FreshFrom (snapshots : Snapshots) (next : Nat) : Prop :=
  ∀ id, next ≤ id → snapshots.get? id = none

lemma Snapshots.FreshFrom.mono {snapshots : Snapshots} {next next' : Nat}
    (h : snapshots.FreshFrom next) (hnext : next ≤ next') : snapshots.FreshFrom next' :=
  fun id hid => h id (Nat.le_trans hnext hid)

namespace Query

variable {entries : List Entry} {snapshots : Snapshots}

/-- The query is a faithful search with filters on top of it, or it is empty, and no result is kept
for any of its instances. -/
def IsSelection (entries : List Entry) (snapshots : Snapshots) : Query → Prop
  | .empty => True
  | .search tag source => snapshots.get? tag.id = none ∧ source.IsFaithful entries
  | .staged tag (.filtered _) below =>
    snapshots.get? tag.id = none ∧ below.IsSelection entries snapshots
  | .staged _ _ _ => False

/-- The entries that the search of a query is to find. -/
def found (entries : List Entry) (q : Query) : List Entry :=
  match q.source? with
  | some source => entries.filter source.accepts
  | none => []

/-- The result of a query on these entries. -/
def result (entries : List Entry) (snapshots : Snapshots) (q : Query) : List Entry :=
  q.meaning snapshots (q.found entries)

lemma result_search {tag : QueryTag} (h : snapshots.get? tag.id = none) (source : Source) :
    (search tag source).result entries snapshots = entries.filter source.accepts := by
  rw [result, meaning, h]
  rfl

lemma result_staged {tag : QueryTag} (h : snapshots.get? tag.id = none) (stage : Stage)
    (below : Query) :
    (staged tag stage below).result entries snapshots =
      stage.apply (below.result entries snapshots) := by
  rw [result, meaning, h]
  rfl

/-- Composing succeeds, with a query that selects these entries. -/
def Composes (entries : List Entry) (snapshots : Snapshots) (next : Nat)
    (outcome : Except FilterError (Query × Nat)) (es : List Entry) : Prop :=
  ∃ q next', outcome = .ok (q, next') ∧ next ≤ next' ∧ q.IsSelection entries snapshots ∧
    q.result entries snapshots = es

lemma Composes.bind {next : Nat} {outcome : Except FilterError (Query × Nat)}
    {g : Query × Nat → Except FilterError (Query × Nat)} {es es' : List Entry}
    (h : Composes entries snapshots next outcome es)
    (hg : ∀ q next', next ≤ next' → q.IsSelection entries snapshots →
      q.result entries snapshots = es → Composes entries snapshots next' (g (q, next')) es') :
    Composes entries snapshots next (outcome >>= g) es' := by
  obtain ⟨q, next', rfl, hnext, hq, hresult⟩ := h
  obtain ⟨q', next'', houtcome, hnext', hq', hresult'⟩ := hg q next' hnext hq hresult
  exact ⟨q', next'', houtcome, Nat.le_trans hnext hnext', hq', hresult'⟩

lemma composes_empty (next : Nat) : Composes entries snapshots next (.ok (.empty, next)) [] :=
  ⟨.empty, next, rfl, Nat.le_refl next, trivial, rfl⟩

/-- Where the search and the filter have no entry in common, the empty query will do. -/
lemma composes_nothing {source : Source} {f : Filter} {next : Nat}
    (h : ∀ e ∈ entries, source.accepts e = true → f.accepts e = false) :
    Composes entries snapshots next (.ok (.empty, next))
      ((entries.filter source.accepts).filter f.accepts) := by
  have hnil : (entries.filter source.accepts).filter f.accepts = [] := by
    apply List.filter_eq_nil_iff.2
    intro e he
    obtain ⟨hmem, haccepts⟩ := List.mem_filter.1 he
    rw [h e hmem haccepts]
    exact Bool.false_ne_true
  rw [hnil]
  exact composes_empty next

variable {next : Nat} (hfresh : snapshots.FreshFrom next)
include hfresh

lemma composes_search {source : Source} (hsource : source.IsFaithful entries)
    (options : QueryOptions) :
    Composes entries snapshots next (.ok (.search ⟨next, options⟩ source, next + 1))
      (entries.filter source.accepts) := by
  have hkept := hfresh next (Nat.le_refl next)
  exact ⟨_, _, rfl, Nat.le_succ next, ⟨hkept, hsource⟩, result_search hkept source⟩

lemma composes_derive {q : Query} (hq : q.IsSelection entries snapshots) (matcher : Matcher) :
    Composes entries snapshots next (.ok (q.derive (.filtered matcher) next))
      ((q.result entries snapshots).filter matcher.accepts) := by
  have hkept := hfresh next (Nat.le_refl next)
  cases q with
  | empty => exact composes_empty next
  | search tag source =>
    exact ⟨_, _, rfl, Nat.le_succ next, ⟨hkept, hq⟩, result_staged hkept _ _⟩
  | staged tag stage below =>
    exact ⟨_, _, rfl, Nat.le_succ next, ⟨hkept, hq⟩, result_staged hkept _ _⟩

lemma composes_filterOnTop? {q : Query} (hq : q.IsSelection entries snapshots) {f : Option Filter}
    (hf : ∀ c ∈ Filter.conditions? f, (Filter.leaf c).Compiles) :
    Composes entries snapshots next (filterOnTop? f q next)
      ((q.result entries snapshots).filter (Filter.accepts? f)) := by
  cases f with
  | none =>
    refine ⟨q, next, rfl, Nat.le_refl next, hq, ?_⟩
    exact (List.filter_eq_self.2 fun _ _ => rfl).symm
  | some f =>
    rw [Filter.conditions?_some] at hf
    obtain ⟨matcher, hmatcher, haccepts⟩ := Matcher.exists_ofFilter (Filter.compiles_iff.2 hf)
    rw [filterOnTop?, filterOnTop, hmatcher]
    exact haccepts ▸ composes_derive hfresh hq matcher

lemma composes_searchWith {source : Source} (hsource : source.IsFaithful entries)
    (options : QueryOptions) {kept : Option Filter}
    (hkept : ∀ c ∈ Filter.conditions? kept, (Filter.leaf c).Compiles) :
    Composes entries snapshots next (searchWith source kept options next)
      ((entries.filter source.accepts).filter (Filter.accepts? kept)) := by
  obtain ⟨text, filter, htext, -, -⟩ := hsource.exists_filter
  rw [searchWith, htext]
  refine (composes_search hfresh hsource options).bind
    (g := fun q => filterOnTop? kept q.1 q.2) fun q next' hnext hq hresult => ?_
  rw [← hresult]
  exact composes_filterOnTop? (hfresh.mono hnext) hq hkept

/-- Another search will do if it and what is left accept the same entries. -/
lemma composes_moved {source source' : Source} (hsource : source'.IsFaithful entries)
    (options : QueryOptions) {f : Filter} {kept : Option Filter}
    (hkept : ∀ c ∈ Filter.conditions? kept, (Filter.leaf c).Compiles)
    (h : ∀ e ∈ entries, (source'.accepts e && Filter.accepts? kept e) =
      (source.accepts e && f.accepts e)) :
    Composes entries snapshots next (searchWith source' kept options next)
      ((entries.filter source.accepts).filter f.accepts) := by
  have hsame : (entries.filter source.accepts).filter f.accepts =
      (entries.filter source'.accepts).filter (Filter.accepts? kept) := by
    rw [List.filter_filter, List.filter_filter]
    apply List.filter_congr
    intro e he
    rw [Bool.and_comm, ← h e he, Bool.and_comm]
  rw [hsame]
  exact composes_searchWith hfresh hsource options hkept

/-- A filter on a search leaves what both let pass, wherever its parts go. -/
lemma composes_refineSearch {source : Source} (hsource : source.IsFaithful entries)
    (hentries : ∀ e ∈ entries, e.Built ∧ DistinguishedName.IsTidy e.dn) {f : Filter}
    (hf : f.Compiles) (hportable : ∀ c ∈ f.conditions, c.IsPortable entries)
    (options : QueryOptions) :
    Composes entries snapshots next (refineSearch source f options next)
      ((entries.filter source.accepts).filter f.accepts) := by
  have hsplit : f.splitForDirectory.IsSplitOf directoryPlacement f.conditions :=
    Filter.isSplitOf_split directoryPlacement f
  have hcompiles := Filter.compiles_iff.1 hf
  have hpinned : ∀ c ∈ f.splitForDirectory.pinned, directoryPlacement c = .pinned :=
    fun c hc => (hsplit.pinned c hc).2
  have hkept : ∀ c ∈ Filter.conditions? f.splitForDirectory.kept, (Filter.leaf c).Compiles :=
    fun c hc => hcompiles c (hsplit.kept c hc)
  have hpushed : ∀ c ∈ Filter.conditions? f.splitForDirectory.pushed, (Filter.leaf c).Compiles :=
    fun c hc => hcompiles c (hsplit.pushed c hc).1
  have hpush : ∀ {base : String}, DistinguishedName.IsTidy base → ∀ scope : Scope,
      Source.IsFaithful entries
        ⟨base, scope, Filter.and? source.filter f.splitForDirectory.pushed⟩ :=
    fun hbase scope => hsource.push hbase scope hpushed (fun c hc => (hsplit.pushed c hc).2)
      fun c hc => hportable c (hsplit.pushed c hc).1
  have hparts : ∀ e ∈ entries, f.accepts e =
      (Filter.accepts? f.splitForDirectory.pushed e && Filter.accepts? f.splitForDirectory.kept e &&
        (Pin.resolve f.splitForDirectory.pinned).accepts e) :=
    fun e he => Filter.accepts_splitForDirectory hf (hentries e he).1
  rw [refineSearch]
  cases hresolve : Pin.resolve f.splitForDirectory.pinned with
  | conflict =>
    apply composes_nothing
    intro e he _
    rw [hparts e he, hresolve, Pin.accepts, Bool.and_false]
  | unpinned =>
    apply composes_moved hfresh (hpush hsource.base source.scope) options hkept
    intro e he
    rw [hparts e he, hresolve, Source.accepts, Source.accepts, Pin.accepts, Bool.and_true,
      Filter.accepts?_and? hsource.compiles hpushed]
    ac_rfl
  | entry dn checks =>
    obtain ⟨⟨c, hc, hoperand⟩, hchecks⟩ := Pin.entry_of_resolve hpinned hresolve
    have htidy : DistinguishedName.IsTidy dn :=
      (hportable c (hsplit.pinned c hc).1).tidy (hpinned c hc) dn hoperand
    have hcovers : ∀ e ∈ entries, DistinguishedName.same e.dn dn = true →
        source.scope.covers source.base e.dn = source.scope.covers source.base dn :=
      fun e he hsame => Scope.covers_eq_of_same (hentries e he).2 htidy hsame _ _
    simp only
    split
    · rename_i hcovered
      have hleft := Filter.forall_conditions?_and?.2 ⟨hkept, hchecks⟩
      apply composes_moved hfresh (hpush htidy .singleEntry) options hleft
      intro e he
      rw [hparts e he, hresolve, Source.accepts, Source.accepts, Pin.accepts,
        Filter.accepts?_and? hsource.compiles hpushed, Filter.accepts?_and? hkept hchecks,
        Scope.covers]
      cases hsame : DistinguishedName.same e.dn dn with
      | false => simp only [Bool.false_and, Bool.and_false]
      | true =>
        rw [hcovers e he hsame, hcovered]
        simp only [Bool.true_and]
        ac_rfl
    · rename_i hcovered
      apply composes_nothing
      intro e he haccepts
      rw [hparts e he, hresolve, Pin.accepts]
      cases hsame : DistinguishedName.same e.dn dn with
      | false => rw [Bool.false_and, Bool.and_false]
      | true =>
        rw [Source.accepts, hcovers e he hsame, eq_false_of_ne_true hcovered] at haccepts
        cases haccepts

/-- A filter on a selection leaves what both let pass. -/
theorem composes_refine {q : Query} (hq : q.IsSelection entries snapshots)
    (hentries : ∀ e ∈ entries, e.Built ∧ DistinguishedName.IsTidy e.dn) {f : Filter}
    (hf : f.Compiles) (hportable : ∀ c ∈ f.conditions, c.IsPortable entries) :
    Composes entries snapshots next (refine f q next)
      ((q.result entries snapshots).filter f.accepts) := by
  induction q with
  | empty => exact composes_empty next
  | search tag source =>
    rw [refine, result_search hq.1]
    exact composes_refineSearch hfresh hq.2 hentries hf hportable tag.options
  | staged tag stage below ih =>
    cases stage with
    | filtered matcher =>
      rw [refine.eq_def, result_staged hq.1, Stage.apply]
      have hbelow := ih hq.2
      refine hbelow.bind (g := fun q => .ok (q.1.derive (.filtered matcher) q.2))
        fun below' next' hnext hbelow' hresult => ?_
      have hswap : ((below.result entries snapshots).filter matcher.accepts).filter f.accepts =
          (below'.result entries snapshots).filter matcher.accepts := by
        rw [hresult, List.filter_filter, List.filter_filter]
        exact List.filter_congr fun e _ => Bool.and_comm _ _
      rw [hswap]
      exact composes_derive (hfresh.mono hnext) hbelow' matcher
    | _ => exact hq.elim

end Query

/-! ## Restrictions, one after the other -/

/-- A filter that is put on a query, or one whose matches are taken out of it. -/
structure Restriction where
  isExcluded : Bool
  filter : Filter

namespace Restriction

/-- Whether the restriction lets an entry pass. -/
def accepts (r : Restriction) (e : Entry) : Bool :=
  r.filter.accepts e != r.isExcluded

/-- The filter that lets the same entries pass. -/
def asFilter (r : Restriction) : Filter :=
  if r.isExcluded then r.filter.negate else r.filter

variable {r : Restriction}

lemma conditions_asFilter (r : Restriction) : r.asFilter.conditions = r.filter.conditions := by
  unfold asFilter
  split
  · exact Filter.conditions_negate r.filter
  · rfl

lemma compiles_asFilter (h : r.filter.Compiles) : r.asFilter.Compiles := by
  unfold asFilter
  split
  · exact Filter.compiles_negate h
  · exact h

lemma accepts_asFilter (h : r.filter.Compiles) (e : Entry) :
    r.asFilter.accepts e = r.accepts e := by
  rw [asFilter, accepts]
  cases r.isExcluded with
  | true =>
    rw [if_pos rfl, Filter.accepts_negate h, Bool.bne_true]
  | false =>
    rw [if_neg Bool.false_ne_true, Bool.bne_false]

end Restriction

namespace Query

/-- Puts a restriction on a query. -/
def restrict (q : Query) (r : Restriction) (next : Nat) : Except FilterError (Query × Nat) :=
  if r.isExcluded then q.exclude r.filter next else q.filter r.filter next

lemma restrict_eq (q : Query) (r : Restriction) (next : Nat) :
    q.restrict r next = q.refine r.asFilter next := by
  rw [restrict, Restriction.asFilter]
  split <;> rfl

/-- Restrictions on a selection leave what all of them let pass. -/
lemma composes_restrictions {entries : List Entry} {snapshots : Snapshots} {next : Nat}
    (hfresh : snapshots.FreshFrom next) {q : Query} (hq : q.IsSelection entries snapshots)
    (hentries : ∀ e ∈ entries, e.Built ∧ DistinguishedName.IsTidy e.dn)
    {restrictions : List Restriction} (hcompiles : ∀ r ∈ restrictions, r.filter.Compiles)
    (hportable : ∀ r ∈ restrictions, ∀ c ∈ r.filter.conditions, c.IsPortable entries) :
    Composes entries snapshots next
      (restrictions.foldlM (fun (q, next) r => restrict q r next) (q, next))
      ((q.result entries snapshots).filter fun e => restrictions.all fun r => r.accepts e) := by
  induction restrictions generalizing q next with
  | nil =>
    refine ⟨q, next, rfl, Nat.le_refl next, hq, ?_⟩
    exact (List.filter_eq_self.2 fun _ _ => rfl).symm
  | cons r restrictions ih =>
    obtain ⟨hr, hcompiles⟩ := List.forall_mem_cons.1 hcompiles
    obtain ⟨hrportable, hportable⟩ := List.forall_mem_cons.1 hportable
    rw [List.foldlM_cons]
    rw [← r.conditions_asFilter] at hrportable
    have hfirst := composes_refine hfresh hq hentries (Restriction.compiles_asFilter hr) hrportable
    rw [← restrict_eq] at hfirst
    apply hfirst.bind
    intro q' next' hnext hq' hresult
    have hrest := ih (hfresh.mono hnext) hq' hcompiles hportable
    have hsame : (q'.result entries snapshots).filter (fun e =>
        restrictions.all fun r => r.accepts e) =
          (q.result entries snapshots).filter fun e =>
            (r :: restrictions).all fun r => r.accepts e := by
      rw [hresult, List.filter_filter]
      apply List.filter_congr
      intro e _
      rw [List.all_cons, Restriction.accepts_asFilter hr, Bool.and_comm]
    rw [← hsame]
    exact hrest

/-! ## Fetching -/

lemma IsSelection.isFaithful {entries : List Entry} {snapshots : Snapshots} {q : Query}
    (h : q.IsSelection entries snapshots) {source : Source} (hsource : q.source? = some source) :
    source.IsFaithful entries := by
  induction q with
  | empty => cases hsource
  | search tag source' =>
    obtain rfl := Option.some.inj hsource
    exact h.2
  | staged tag stage below ih =>
    cases stage with
    | filtered matcher => exact ih h.2 hsource
    | _ => exact h.elim

/-- On a ready service, fetching a query whose search is faithful gives its result. -/
lemma fetch_eq_result {w : Workspace} (hready : w.service.Ready) {q : Query}
    (hfaithful : ∀ source, q.source? = some source →
      source.IsFaithful w.service.directory.entries)
    (hentries : ∀ e ∈ w.service.directory.entries, DistinguishedName.IsTidy e.dn) :
    (q.fetch w).1 = .ok (q.result w.service.directory.entries w.snapshots) := by
  apply fetch_eq_meaning
  intro source hsource
  obtain ⟨text, filter, htext, hparse, hholds⟩ := (hfaithful source hsource).exists_filter
  have hfound : q.found w.service.directory.entries =
      w.service.directory.answer source filter := by
    rw [(hfaithful source hsource).answer_eq hentries hholds, found, hsource]
  rw [hfound]
  exact Stream.delivers_starting hready htext hparse

/-- On a ready service, fetching a selection gives its result. -/
lemma fetch_selection {w : Workspace} (hready : w.service.Ready) {q : Query}
    (hq : q.IsSelection w.service.directory.entries w.snapshots)
    (hentries : ∀ e ∈ w.service.directory.entries, DistinguishedName.IsTidy e.dn) :
    (q.fetch w).1 = .ok (q.result w.service.directory.entries w.snapshots) :=
  fetch_eq_result hready (fun _ hsource => hq.isFaithful hsource) hentries

/-- Putting filters on a search, or taking out what they match, succeeds, and fetching the query
that comes out gives the entries of the directory, in their order, that the scope covers at the base
and that every restriction lets pass. -/
theorem fetch_restricted {w : Workspace} (hready : w.service.Ready) {base : String}
    (hbase : DistinguishedName.IsTidy base) (scope : Scope) {next : Nat}
    (hfresh : w.snapshots.FreshFrom next)
    (hentries : ∀ e ∈ w.service.directory.entries, e.Built ∧ DistinguishedName.IsTidy e.dn)
    {restrictions : List Restriction} (hcompiles : ∀ r ∈ restrictions, r.filter.Compiles)
    (hportable : ∀ r ∈ restrictions, ∀ c ∈ r.filter.conditions,
      c.IsPortable w.service.directory.entries) :
    ∃ q next',
      restrictions.foldlM (fun (q, next) r => restrict q r next) (ofBase base scope next) =
        .ok (q, next') ∧
      (q.fetch w).1 = .ok (w.service.directory.entries.filter fun e =>
        scope.covers base e.dn && restrictions.all fun r => r.accepts e) := by
  have hsource : Source.IsFaithful w.service.directory.entries ⟨base, scope, none⟩ :=
    ⟨hbase, by simp, by simp, by simp⟩
  have hkept := hfresh next (Nat.le_refl next)
  obtain ⟨q, next', hcompose, -, hq, hresult⟩ :=
    composes_restrictions (hfresh.mono (Nat.le_succ next)) (q := .search ⟨next, .default⟩ _)
      ⟨hkept, hsource⟩ hentries hcompiles hportable
  refine ⟨q, next', hcompose, ?_⟩
  rw [fetch_selection hready hq fun e he => (hentries e he).2, hresult, result_search hkept,
    List.filter_filter]
  refine congrArg Except.ok (List.filter_congr ?_)
  intro e _
  rw [Source.accepts, Bool.and_comm]
  simp

/-- One filter goes to the directory in part and becomes the base of the search in part, the other
is matched on what comes back. -/
theorem fetch_restricted_ann :
    let ann := ((Entry.named "cn=Ann,dc=org").insert "ou" [.text "Sales"]).insert "age" [.int 30]
    let bob := ((Entry.named "cn=Bob,dc=org").insert "ou" [.text "Sales"]).insert "age" [.int 12]
    let w : Workspace :=
      ⟨⟨Directory.empty.addAll [ann, bob], .ofConfig (.ofPrimary "localhost")⟩, .empty⟩
    let restrictions : List Restriction :=
      [⟨false, .all [.leaf ⟨"ou", none, .one (.text "sales")⟩,
          .leaf ⟨"dn", none, .one (.text "CN=ann, DC=org")⟩]⟩,
        ⟨true, .leaf ⟨"age", some "lt", .one (.int 18)⟩⟩]
    ∃ q next',
      restrictions.foldlM (fun (q, next) r => restrict q r next) (ofBase "dc=org" .subtree 0) =
        .ok (q, next') ∧
      (q.fetch w).1 = .ok [ann] := by
  intro ann bob w restrictions
  have hready : w.service.Ready :=
    ⟨rfl, nofun, ⟨"localhost", by decide +kernel, rfl⟩, rfl, by decide +kernel, by decide +kernel⟩
  have hlist : w.service.directory.entries = [ann, bob] := by decide +kernel
  have hentries : ∀ e ∈ w.service.directory.entries,
      e.Built ∧ DistinguishedName.IsTidy e.dn := by
    have htidy : ∀ e ∈ [ann, bob], DistinguishedName.IsTidy e.dn := by decide +kernel
    rw [hlist]
    refine fun e he => ⟨?_, htidy e he⟩
    simp only [List.mem_cons, List.not_mem_nil, or_false] at he
    obtain rfl | rfl := he
    · exact .insert (.insert (.named _) _ _) _ _
    · exact .insert (.insert (.named _) _ _) _ _
  have hcompiles : ∀ r ∈ restrictions, r.filter.Compiles :=
    List.forall_mem_cons.2 ⟨⟨_, rfl⟩, List.forall_mem_singleton.2 ⟨_, rfl⟩⟩
  have hou : Condition.IsPortable w.service.directory.entries
      ⟨"ou", none, .one (.text "sales")⟩ := by
    have hname : IsPlainName "ou" := by decide
    have hunmixed : ∀ e ∈ w.service.directory.entries,
        ∀ u ∈ e.get "ou", ∀ v ∈ [Value.text "sales"], u.isMixed v = false := by
      rw [hlist]
      decide +kernel
    refine ⟨fun _ => hname, fun _ e he => ?_, fun h => absurd h (by decide)⟩
    exact Condition.agreesOn_of_isUnmixed hname (by decide) (by decide) (by decide)
      fun _ => hunmixed e he
  have hdn : Condition.IsPortable w.service.directory.entries
      ⟨"dn", none, .one (.text "CN=ann, DC=org")⟩ := by
    refine ⟨fun h => absurd h (by decide), fun h => absurd h (by decide), fun _ dn h => ?_⟩
    obtain rfl := Value.text.inj (Operand.one.inj h)
    decide +kernel
  have hage : Condition.IsPortable w.service.directory.entries
      ⟨"age", some "lt", .one (.int 18)⟩ :=
    ⟨fun h => absurd h (by decide), fun h => absurd h (by decide), fun h => absurd h (by decide)⟩
  have hportable : ∀ r ∈ restrictions, ∀ c ∈ r.filter.conditions,
      c.IsPortable w.service.directory.entries := by
    refine List.forall_mem_cons.2 ⟨?_, ?_⟩
    · rw [Filter.forall_conditions_all]
      exact List.forall_mem_cons.2 ⟨List.forall_mem_singleton.2 hou,
        List.forall_mem_singleton.2 (List.forall_mem_singleton.2 hdn)⟩
    · exact List.forall_mem_singleton.2 (List.forall_mem_singleton.2 hage)
  have htidy : DistinguishedName.IsTidy "dc=org" := by decide +kernel
  have hfresh : w.snapshots.FreshFrom 0 := fun _ _ => rfl
  obtain ⟨q, next', hcompose, hfetch⟩ :=
    fetch_restricted hready htidy .subtree hfresh hentries hcompiles hportable
  refine ⟨q, next', hcompose, ?_⟩
  rw [hfetch]
  decide +kernel

/-- Without the condition on backslashes an entry can be lost: this one lies below the base and has
the name that is asked for, but that name as it is asked for is not below the base. -/
example :
    let e := Entry.named "x\\ ,y"
    let f := Filter.leaf ⟨"dn", none, .one (.text "x\\,y")⟩
    Scope.subtree.covers "y" e.dn = true ∧ f.accepts e = true ∧
      ((refineSearch ⟨"y", .subtree, none⟩ f .default 0).toOption.map fun q => q.1.isKnownEmpty) =
        some true := by
  decide +kernel

end Query

end DirectoryQuery
