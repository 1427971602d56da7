import DirectoryQuery.Proofs.Query.Failures
import DirectoryQuery.Proofs.Query.Ordering

/-!
# Filters and the numbers of new instances

A filter that is put on a query makes new instances and shares others.  The numbers of the new ones
come from a counter, and nothing is kept under them yet.  So they make no difference to what the
query comes to that comes out (`Query.alike_refine`): it is only the shared instances whose kept
results count.

Several queries that are made from one another, each with the counter that the last one left, have
no number in common but those of shared instances (`Query.Distinguished`).
-/

namespace DirectoryQuery

/-- A stage on nothing comes to nothing. -/
lemma Stage.outcome_nothing (stage : Stage) : stage.outcome .nothing = .nothing := by
  have herror := stage.error_outcome (o := .nothing) rfl
  have hentries := stage.entries_outcome (o := .nothing) rfl
  rcases houtcome : stage.outcome .nothing with ⟨entries, error⟩
  rw [houtcome] at herror hentries
  rw [show entries = [] from hentries, show error = none from herror]
  rfl

namespace Query

variable {snapshots : Snapshots} {d : Directory} {q q' p : Query} {next next' first : Nat}

/-! ## What queries come to -/

/-- A stage that is put on a query has kept nothing yet. -/
lemma outcome_derive (hfresh : snapshots.get? next = none) (stage : Stage) (q : Query) :
    (q.derive stage next).1.outcome snapshots d = stage.outcome (q.outcome snapshots d) := by
  cases q with
  | empty => exact stage.outcome_nothing.symm
  | search tag source => simp only [derive, outcome, hfresh]
  | staged tag stage' below => simp only [derive, outcome, hfresh]

lemma freshFrom_derive (hfresh : snapshots.FreshFrom next) (stage : Stage) (q : Query) :
    snapshots.FreshFrom (q.derive stage next).2 := by
  cases q with
  | empty => exact hfresh
  | search tag source => exact hfresh.mono (Nat.le_succ next)
  | staged tag stage' below => exact hfresh.mono (Nat.le_succ next)

/-- Composing fails twice with one error, or makes two queries that come to the same.  Nothing is
kept under the numbers that are free afterwards. -/
inductive Alike {ε : Type} (snapshots : Snapshots) (d : Directory) :
    Except ε (Query × Nat) → Except ε (Query × Nat) → Prop
  | error (e : ε) : Alike snapshots d (.error e) (.error e)
  | ok {q q' : Query} {next next' : Nat} (h : q.outcome snapshots d = q'.outcome snapshots d)
    (hnext : snapshots.FreshFrom next) (hnext' : snapshots.FreshFrom next') :
    Alike snapshots d (.ok (q, next)) (.ok (q', next'))

lemma Alike.bind {ε : Type} {made made' : Except ε (Query × Nat)}
    {g g' : Query × Nat → Except ε (Query × Nat)} (h : Alike snapshots d made made')
    (hg : ∀ q q' next next', q.outcome snapshots d = q'.outcome snapshots d →
      snapshots.FreshFrom next → snapshots.FreshFrom next' →
        Alike snapshots d (g (q, next)) (g' (q', next'))) :
    Alike snapshots d (made >>= g) (made' >>= g') := by
  cases h with
  | error e => exact .error e
  | ok h hnext hnext' => exact hg _ _ _ _ h hnext hnext'

section Fresh

variable (hnext : snapshots.FreshFrom next) (hnext' : snapshots.FreshFrom next')
include hnext hnext'

lemma outcome_derive_congr (h : q.outcome snapshots d = q'.outcome snapshots d) (stage : Stage) :
    (q.derive stage next).1.outcome snapshots d = (q'.derive stage next').1.outcome snapshots d := by
  rw [outcome_derive (hnext next (Nat.le_refl next)), outcome_derive (hnext' next' (Nat.le_refl _)),
    h]

lemma alike_derive {ε : Type} (h : q.outcome snapshots d = q'.outcome snapshots d)
    (stage : Stage) :
    Alike (ε := ε) snapshots d (.ok (q.derive stage next)) (.ok (q'.derive stage next')) :=
  have houtcome := outcome_derive_congr hnext hnext' h stage
  .ok houtcome (freshFrom_derive hnext stage q) (freshFrom_derive hnext' stage q')

lemma alike_filterOnTop? (h : q.outcome snapshots d = q'.outcome snapshots d)
    (f : Option Filter) :
    Alike snapshots d (filterOnTop? f q next) (filterOnTop? f q' next') := by
  cases f with
  | none => exact .ok h hnext hnext'
  | some f =>
    rw [filterOnTop?, filterOnTop?, filterOnTop, filterOnTop]
    cases Matcher.ofFilter f with
    | error e => exact .error e
    | ok matcher => exact alike_derive hnext hnext' h (.filtered matcher)

lemma alike_searchWith (source : Source) (kept : Option Filter) (options : QueryOptions) :
    Alike snapshots d (searchWith source kept options next)
      (searchWith source kept options next') := by
  rw [searchWith, searchWith]
  cases source.filterText with
  | error e => exact .error e
  | ok text =>
    refine alike_filterOnTop? (hnext.mono (Nat.le_succ next)) (hnext'.mono (Nat.le_succ next')) ?_
      kept
    simp only [outcome, hnext next (Nat.le_refl next), hnext' next' (Nat.le_refl next')]

lemma alike_refineSearch (source : Source) (f : Filter) (options : QueryOptions) :
    Alike snapshots d (refineSearch source f options next)
      (refineSearch source f options next') := by
  rw [refineSearch, refineSearch]
  cases Pin.resolve f.splitForDirectory.pinned with
  | conflict => exact .ok rfl hnext hnext'
  | unpinned => exact alike_searchWith hnext hnext' ..
  | entry dn checks =>
    simp only
    split
    · exact alike_searchWith hnext hnext' ..
    · exact .ok rfl hnext hnext'

/-- Whatever numbers a filter on a query takes for new instances, what comes out comes to the
same. -/
theorem alike_refine (f : Filter) (q : Query) :
    Alike snapshots d (refine f q next) (refine f q next') := by
  induction q generalizing f next next' with
  | empty => exact .ok rfl hnext hnext'
  | search tag source => exact alike_refineSearch hnext hnext' source f tag.options
  | staged tag stage below ih =>
    cases hwindow : stage.isWindow with
    | true =>
      rw [refine_window hwindow, refine_window hwindow]
      exact alike_filterOnTop? hnext hnext' rfl (some f)
    | false =>
      have hbelow : Alike snapshots d (refine? (stage.passes f) below next)
          (refine? (stage.passes f) below next') := by
        cases stage.passes f with
        | none => exact .ok rfl hnext hnext'
        | some pushed => exact ih hnext hnext' pushed
      rw [refine_staged hwindow, refine_staged hwindow]
      refine hbelow.bind fun q q' next next' houtcome hnext hnext' => ?_
      exact alike_filterOnTop? (freshFrom_derive hnext stage q) (freshFrom_derive hnext' stage q')
        (outcome_derive_congr hnext hnext' houtcome stage) _

end Fresh

/-! ## Numbers -/

/-- The counter is not below its first value, and the instances of the query are shared or were made
with numbers from that value on. -/
def MadeFrom (shared : List Query) (first : Nat) (p : Query) (next : Nat) : Prop :=
  first ≤ next ∧
    ∀ level ∈ p.levels, level ∈ shared ∨ ∃ tag, level.tag? = some tag ∧ first ≤ tag.id

lemma madeFrom_derive {shared : List Query} (stage : Stage) (p : Query) (next : Nat)
    (h : MadeFrom shared first p next) :
    MadeFrom shared first (p.derive stage next).1 (p.derive stage next).2 := by
  obtain ⟨hnext, hlevels⟩ := h
  cases p with
  | empty => exact ⟨hnext, hlevels⟩
  | search tag source =>
    exact ⟨Nat.le_succ_of_le hnext, List.forall_mem_cons.2 ⟨.inr ⟨_, rfl, hnext⟩, hlevels⟩⟩
  | staged tag stage' below =>
    exact ⟨Nat.le_succ_of_le hnext, List.forall_mem_cons.2 ⟨.inr ⟨_, rfl, hnext⟩, hlevels⟩⟩

lemma heritable_madeFrom (shared : List Query) (first : Nat) :
    Heritable (MadeFrom shared first) where
  derive := madeFrom_derive
  below h := ⟨h.1, fun level hlevel => h.2 level (List.mem_cons_of_mem _ hlevel)⟩
  empty h := ⟨h.1, nofun⟩
  search h _ := ⟨Nat.le_succ_of_le h.1, List.forall_mem_singleton.2 (.inr ⟨_, rfl, h.1⟩)⟩

/-- The instances have numbers below the counter, and no two of them have the same. -/
structure Distinguished (levels : List Query) (next : Nat) : Prop where
  below : ∀ a ∈ levels, ∃ tag, a.tag? = some tag ∧ tag.id < next
  eq_of_id : ∀ a ∈ levels, ∀ b ∈ levels, a.tag?.map QueryTag.id = b.tag?.map QueryTag.id → a = b

lemma exists_tag?_of_mem_levels (h : p ∈ q.levels) : ∃ tag, p.tag? = some tag := by
  induction q with
  | empty => cases h
  | search tag source => exact ⟨tag, by rw [List.mem_singleton.1 h]; rfl⟩
  | staged tag stage below ih =>
    obtain rfl | hbelow := List.mem_cons.1 h
    · exact ⟨tag, rfl⟩
    · exact ih hbelow

lemma Numbers.distinguished (h : q.Numbers next) : Distinguished q.levels next where
  below a ha := by
    obtain ⟨tag, htag⟩ := exists_tag?_of_mem_levels ha
    exact ⟨tag, htag, all_iff_levels.1 h.1 a ha tag htag⟩
  eq_of_id _ ha _ hb hid := h.2.eq_of_mem ha hb hid

/-- The instances of a further query have numbers of their own, but for those that it shares. -/
lemma Distinguished.append {levels : List Query} (h : Distinguished levels first)
    (hp : p.Numbers next) (hmade : MadeFrom levels first p next) :
    Distinguished (levels ++ p.levels) next where
  below a ha := by
    obtain ha | ha := List.mem_append.1 ha
    · obtain ⟨tag, htag, hid⟩ := h.below a ha
      exact ⟨tag, htag, Nat.lt_of_lt_of_le hid hmade.1⟩
    · exact hp.distinguished.below a ha
  eq_of_id := by
    have hacross : ∀ a ∈ levels, ∀ b ∈ p.levels,
        a.tag?.map QueryTag.id = b.tag?.map QueryTag.id → a = b := by
      intro a ha b hb hid
      obtain hb | ⟨tag, htag, hle⟩ := hmade.2 b hb
      · exact h.eq_of_id a ha b hb hid
      · obtain ⟨tag', htag', hlt⟩ := h.below a ha
        rw [htag, htag', Option.map_some, Option.map_some, Option.some.injEq] at hid
        omega
    intro a ha b hb hid
    obtain ha | ha := List.mem_append.1 ha
    · obtain hb | hb := List.mem_append.1 hb
      · exact h.eq_of_id a ha b hb hid
      · exact hacross a ha b hb hid
    · obtain hb | hb := List.mem_append.1 hb
      · exact (hacross b hb a ha hid.symm).symm
      · exact hp.distinguished.eq_of_id a ha b hb hid

/-- So do the instances of a query that was made from one of these. -/
lemma Distinguished.append_of_heritable {levels : List Query} (h : Distinguished levels next)
    (hq : q.Numbers next) (hshared : q.levels ⊆ levels)
    (hmade : ∀ P, Heritable P → P q next → P p next') :
    Distinguished (levels ++ p.levels) next' ∧ p.Numbers next' := by
  have hp : p.Numbers next' := hmade Numbers heritable_numbers hq
  have hstart : MadeFrom levels next q next :=
    ⟨Nat.le_refl next, fun level hlevel => .inl (hshared hlevel)⟩
  exact ⟨h.append hp (hmade _ (heritable_madeFrom levels next) hstart), hp⟩

end Query

end DirectoryQuery
