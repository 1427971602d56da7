import DirectoryQuery.Proofs.Query.Commuting
import DirectoryQuery.Query.Derivation

/-!
# What a derived query takes over

An operation on a query makes new instances and shares others.  The new ones have numbers from the
counter and the options of an instance that was there (`Derivation.makes_apply`).

Whose options they are is not always the query's own.  A filter sinks through the stages of a query,
which are then put back on top of what it makes of the query below; sorting a sorted query puts one
sort in place of two.  In both cases the options come from further down (`Derivation.lender`).
`Derivation.options_of_apply` says whose options a derived query has, and that they are the query's
own if all its instances have the same.
-/

namespace DirectoryQuery

open DirectoryQuery.Filter

/-! ## Filters on stages -/

namespace Stage

/-- Whether the stage counts entries, so that no filter may pass below it. -/
def isWindow : Stage → Bool
  | .sliced _ => true
  | _ => false

/-- What of a filter passes below the stage. -/
def passes (f : Filter) : Stage → Option Filter
  | .sliced _ => none
  | .annotated annotations => (f.splitByNames (annotations.map (·.1))).pushed
  | _ => some f

/-- What of a filter stays on top of the stage. -/
def retains (f : Filter) : Stage → Option Filter
  | .sliced _ => some f
  | .annotated annotations => (f.splitByNames (annotations.map (·.1))).kept
  | _ => none

end Stage

namespace Query

lemma refine_window {stage : Stage} (h : stage.isWindow = true) (f : Filter) (tag : QueryTag)
    (below : Query) (next : Nat) :
    refine f (.staged tag stage below) next = filterOnTop f (.staged tag stage below) next := by
  cases stage with
  | sliced window => rfl
  | _ => cases h

/-- A filter is taken apart by the stage, and the stage is put back between its parts. -/
lemma refine_staged {stage : Stage} (h : stage.isWindow = false) (f : Filter) (tag : QueryTag)
    (below : Query) (next : Nat) :
    refine f (.staged tag stage below) next =
      (refine? (stage.passes f) below next).bind fun q =>
        filterOnTop? (stage.retains f) (q.1.derive stage q.2).1 (q.1.derive stage q.2).2 := by
  cases stage with
  | sliced window => cases h
  | annotated annotations => exact refine_annotated f tag annotations below next
  | _ => rfl

end Query

/-! ## Outcomes -/

namespace Query

variable {ε : Type} {P P' : Query → Nat → Prop}

/-- If composing succeeds, the query and the counter that come out have a property. -/
def Yields (P : Query → Nat → Prop) (outcome : Except ε (Query × Nat)) : Prop :=
  ∀ q next, outcome = .ok (q, next) → P q next

lemma yields_error (e : ε) : Yields P (.error e) := by
  intro q next hok
  cases hok

lemma yields_ok {made : Query × Nat} (h : P made.1 made.2) :
    Yields P (.ok made : Except ε (Query × Nat)) := by
  intro q next hok
  obtain rfl := Except.ok.inj hok
  exact h

lemma Yields.bind {outcome : Except ε (Query × Nat)} {g : Query × Nat → Except ε (Query × Nat)}
    (h : Yields P outcome) (hg : ∀ q next, P q next → Yields P' (g (q, next))) :
    Yields P' (outcome >>= g) := by
  cases outcome with
  | error e => exact yields_error e
  | ok made => exact hg made.1 made.2 (h made.1 made.2 rfl)

lemma Yields.mapError {ε' : Type} {outcome : Except ε (Query × Nat)} (h : Yields P outcome)
    (g : ε → ε') : Yields P (outcome.mapError g) := by
  cases outcome with
  | error e => exact yields_error _
  | ok made => exact yields_ok (h made.1 made.2 rfl)

/-- What holds of a query and of what stages make of it holds with a filter on top. -/
lemma yields_filterOnTop? (hderive : ∀ stage q next, P q next →
      P (q.derive stage next).1 (q.derive stage next).2)
    (f : Option Filter) {q : Query} {next : Nat} (h : P q next) :
    Yields P (filterOnTop? f q next) := by
  cases f with
  | none => exact yields_ok h
  | some f =>
    rw [filterOnTop?, filterOnTop]
    cases Matcher.ofFilter f with
    | error e => exact yields_error e
    | ok matcher => exact yields_ok (hderive (.filtered matcher) q next h)

/-- What holds of a new search and of what stages make of it holds with a filter on a search. -/
lemma yields_refineSearch {source : Source} {options : QueryOptions} {next : Nat}
    (hderive : ∀ stage q next, P q next → P (q.derive stage next).1 (q.derive stage next).2)
    (hempty : P .empty next) (hsearch : ∀ source, P (.search ⟨next, options⟩ source) (next + 1))
    (f : Filter) : Yields P (refineSearch source f options next) := by
  have hwith : ∀ source kept, Yields P (searchWith source kept options next) := by
    intro source kept
    rw [searchWith]
    cases source.filterText with
    | error e => exact yields_error e
    | ok text => exact yields_filterOnTop? hderive kept (hsearch source)
  rw [refineSearch]
  cases Pin.resolve f.splitForDirectory.pinned with
  | conflict => exact yields_ok hempty
  | unpinned => exact hwith _ _
  | entry dn checks =>
    simp only
    split
    · exact hwith _ _
    · exact yields_ok hempty

/-- What holds of a query holds of what stages make of it and of the query below its topmost stage,
and a new search with the options of an old one has it. -/
structure Heritable (P : Query → Nat → Prop) : Prop where
  derive : ∀ stage q next, P q next → P (q.derive stage next).1 (q.derive stage next).2
  below : ∀ {tag stage q next}, P (.staged tag stage q) next → P q next
  empty : ∀ {q next}, P q next → P .empty next
  search : ∀ {tag source next}, P (.search tag source) next →
    ∀ source', P (.search ⟨next, tag.options⟩ source') (next + 1)

/-- A filter on a query keeps what is heritable. -/
theorem Heritable.refine (hP : Heritable P) {f : Filter} {q : Query} {next : Nat} (hq : P q next) :
    Yields P (q.refine f next) := by
  induction q generalizing f next with
  | empty => exact yields_ok hq
  | search tag source =>
    exact yields_refineSearch hP.derive (hP.empty hq) (hP.search hq) f
  | staged tag stage below ih =>
    cases hwindow : stage.isWindow with
    | true =>
      rw [refine_window hwindow]
      exact yields_filterOnTop? hP.derive (some f) hq
    | false =>
      have hbelow : Yields P (refine? (stage.passes f) below next) := by
        cases stage.passes f with
        | none => exact yields_ok (hP.below hq)
        | some pushed => exact ih (hP.below hq)
      rw [refine_staged hwindow]
      refine hbelow.bind fun q next' hmade => ?_
      exact yields_filterOnTop? hP.derive _ (hP.derive stage q next' hmade)

end Query

/-! ## Instances -/

namespace Query

variable {p : QueryTag → Prop} {first next : Nat}

/-- All instances of the query have a property. -/
def All (p : QueryTag → Prop) : Query → Prop
  | .empty => True
  | .search tag _ => p tag
  | .staged tag _ below => p tag ∧ below.All p

lemma All.mono {p' : QueryTag → Prop} {q : Query} (hq : q.All p) (h : ∀ tag, p tag → p' tag) :
    q.All p' := by
  induction q with
  | empty => trivial
  | search tag source => exact h tag hq
  | staged tag stage below ih => exact ⟨h tag hq.1, ih hq.2⟩

/-- A property passes to new instances with the options of an old one. -/
def Passes (p : QueryTag → Prop) (first : Nat) : Prop :=
  ∀ tag id, p tag → first ≤ id → p ⟨id, tag.options⟩

/-- The counter is not below its first value, and all instances of the query have a property. -/
def Makes (p : QueryTag → Prop) (first : Nat) (q : Query) (next : Nat) : Prop :=
  first ≤ next ∧ q.All p

lemma Makes.derive (hp : Passes p first) (stage : Stage) (q : Query) (next : Nat)
    (h : Makes p first q next) :
    Makes p first (q.derive stage next).1 (q.derive stage next).2 := by
  obtain ⟨hnext, hq⟩ := h
  cases q with
  | empty => exact ⟨hnext, trivial⟩
  | search tag source => exact ⟨by simp only [Query.derive]; omega, hp tag next hq hnext, hq⟩
  | staged tag stage' below =>
    exact ⟨by simp only [Query.derive]; omega, hp tag next hq.1 hnext, hq⟩

lemma heritable_makes (hp : Passes p first) : Heritable (Makes p first) where
  derive := Makes.derive hp
  below h := ⟨h.1, h.2.2⟩
  empty h := ⟨h.1, trivial⟩
  search h _ := ⟨Nat.le_succ_of_le h.1, hp _ _ h.2 h.1⟩

/-! ## Options -/

/-- The query whose options are those of the outcome when a filter is put on a query: the search or
the window where the filter comes to rest, or what lies below the annotations that hold it back. -/
def lender : Query → Filter → Query
  | .empty, _ => .empty
  | .search tag source, _ => .search tag source
  | .staged tag stage below, f =>
    if stage.isWindow then .staged tag stage below
    else
      match stage.passes f with
      | some pushed => below.lender pushed
      | none => below

/-- The query that a sort is put on: what lies below the topmost stage, if that sorts. -/
def unsorted : Query → Query
  | .staged _ (.ordered _) below => below
  | q => q

lemma orderBy_of_isEmpty {keys : List String}
    (h : (keys.filterMap SortKey.parse?).isEmpty = true) (q : Query) (next : Nat) :
    q.orderBy keys next = (q, next) := by
  rw [orderBy.eq_def]
  exact if_pos h

/-- The keys of the topmost stage, if that sorts. -/
def sortKeys : Query → List SortKey
  | .staged _ (.ordered keys) _ => keys
  | _ => []

lemma orderBy_of_not_isEmpty {keys : List String}
    (h : ¬(keys.filterMap SortKey.parse?).isEmpty = true) (q : Query) (next : Nat) :
    q.orderBy keys next =
      q.unsorted.derive (.ordered (keys.filterMap SortKey.parse? ++ q.sortKeys)) next := by
  rw [orderBy.eq_def, if_neg h]
  split
  · rfl
  · rename_i hnot
    rw [unsorted, sortKeys, List.append_nil]
    · exact hnot
    · exact hnot

section Heritable

variable {P : Query → Nat → Prop} (hP : Heritable P)
include hP

lemma Heritable.unsorted {q : Query} {next : Nat} (hq : P q next) : P q.unsorted next := by
  unfold Query.unsorted
  split
  · exact hP.below hq
  · exact hq

lemma Heritable.lender {q : Query} {next : Nat} (hq : P q next) (f : Filter) :
    P (q.lender f) next := by
  induction q generalizing f with
  | empty => exact hq
  | search tag source => exact hq
  | staged tag stage below ih =>
    rw [Query.lender]
    split
    · exact hq
    · split
      · exact ih (hP.below hq) _
      · exact hP.below hq

end Heritable

/-- The query has these options, unless it is empty. -/
def Carries (options : QueryOptions) (q : Query) (_ : Nat) : Prop :=
  q.isKnownEmpty = false → q.options = options

lemma carries_options (q : Query) (next : Nat) : Carries q.options q next :=
  fun _ => rfl

lemma Carries.derive {options : QueryOptions} (stage : Stage) (q : Query) (next : Nat)
    (h : Carries options q next) :
    Carries options (q.derive stage next).1 (q.derive stage next).2 := by
  cases q with
  | empty => exact h
  | search tag source => exact fun _ => h rfl
  | staged tag stage' below => exact fun _ => h rfl

lemma carries_refine (f : Filter) (q : Query) (next : Nat) :
    Yields (Carries (q.lender f).options) (q.refine f next) := by
  induction q generalizing f next with
  | empty => exact yields_ok (carries_options .empty next)
  | search tag source =>
    exact yields_refineSearch Carries.derive (fun h => nomatch h) (fun source _ => rfl) f
  | staged tag stage below ih =>
    by_cases hwindow : stage.isWindow = true
    · rw [refine_window hwindow, lender, if_pos hwindow]
      exact yields_filterOnTop? Carries.derive (some f) (carries_options _ next)
    · have hlender : Yields (Carries (lender (.staged tag stage below) f).options)
          (refine? (stage.passes f) below next) := by
        rw [lender, if_neg hwindow]
        cases stage.passes f with
        | none => exact yields_ok (carries_options below next)
        | some pushed => exact ih pushed next
      rw [refine_staged (Bool.eq_false_iff.2 hwindow)]
      refine hlender.bind fun q next' hmade => ?_
      exact yields_filterOnTop? Carries.derive _ (Carries.derive stage q next' hmade)

end Query

/-! ## Operations -/

namespace Derivation

open Query

variable {p : QueryTag → Prop} {first next : Nat} {q : Query}

/-- The query whose options an operation takes over. -/
def lender (how : Derivation) (q : Query) : Query :=
  match how, q with
  | .filter (.ok f), q => q.lender f
  | .exclude (.ok f), q => q.lender f.negate
  | .orderBy keys, q => if (keys.filterMap SortKey.parse?).isEmpty then q else q.unsorted
  | _, q => q

/-- What an operation can do to a query. -/
inductive Acts (how : Derivation) (q : Query) (next : Nat) : Except QueryError (Query × Nat) → Prop
  | fails (e : QueryError) : Acts how q next (.error e)
  | keeps : Acts how q next (.ok (how.lender q, next))
  | stages (stage : Stage) : Acts how q next (.ok ((how.lender q).derive stage next))
  | refines (f : Filter) (h : how.lender q = q.lender f) :
    Acts how q next ((q.refine f next).mapError .filter)
  | replaces (options : QueryOptions) (h : how = .withOptions options) :
    Acts how q next (.ok (q.withOptions options next))

lemma acts_apply (how : Derivation) (q : Query) (next : Nat) :
    how.Acts q next (how.apply q next) := by
  cases how with
  | same => exact .keeps
  | filter f =>
    cases f with
    | error e => exact .fails _
    | ok f => exact .refines f rfl
  | exclude f =>
    cases f with
    | error e => exact .fails _
    | ok f => exact .refines f.negate rfl
  | annotate annotations =>
    rw [apply, Query.annotate]
    split
    · exact .keeps
    · exact .stages _
  | orderBy keys =>
    by_cases hkeys : (keys.filterMap SortKey.parse?).isEmpty = true
    · have hlender : (Derivation.orderBy keys).lender q = q := if_pos hkeys
      have hkeeps : (Derivation.orderBy keys).Acts q next _ := .keeps
      rw [hlender] at hkeeps
      rw [apply, orderBy_of_isEmpty hkeys]
      exact hkeeps
    · have hlender : (Derivation.orderBy keys).lender q = q.unsorted := if_neg hkeys
      rw [apply, orderBy_of_not_isEmpty hkeys, ← hlender]
      exact .stages _
  | select names => exact .stages _
  | distinct =>
    rw [apply, Query.distinct.eq_def]
    split
    · exact .keeps
    · exact .stages _
  | slice low high step =>
    rw [apply, Query.slice]
    cases Window.ofBounds low high step with
    | error e => exact .fails e
    | ok window => exact .stages _
  | withOptions options => exact .replaces options rfl

/-- Whether the operation gives a query other options. -/
def setsOptions : Derivation → Bool
  | .withOptions _ => true
  | _ => false

section Heritable

variable {P : Query → Nat → Prop} (hP : Heritable P)
include hP

lemma heritable_lender (hq : P q next) (how : Derivation) : P (how.lender q) next := by
  cases how with
  | filter f =>
    cases f with
    | error e => exact hq
    | ok f => exact hP.lender hq f
  | exclude f =>
    cases f with
    | error e => exact hq
    | ok f => exact hP.lender hq f.negate
  | orderBy keys =>
    rw [lender]
    split
    · exact hq
    · exact hP.unsorted hq
  | _ => exact hq

/-- An operation keeps what is heritable, if giving a query other options does. -/
theorem heritable_apply (hq : P q next) (how : Derivation)
    (hgiven : ∀ options, how = .withOptions options →
      P (q.withOptions options next).1 (q.withOptions options next).2) :
    Yields P (how.apply q next) := by
  have hlender : P (how.lender q) next := heritable_lender hP hq how
  have hacts := acts_apply how q next
  generalize how.apply q next = outcome at hacts ⊢
  cases hacts with
  | fails e => exact yields_error e
  | keeps => exact yields_ok hlender
  | stages stage => exact yields_ok (hP.derive stage _ _ hlender)
  | refines f h => exact (hP.refine hq).mapError _
  | replaces options h => exact yields_ok (hgiven options h)

end Heritable

/-- Whatever an operation makes of a query has numbers from the counter and options that are there
already or are given. -/
theorem makes_apply (hp : Passes p first) (hq : q.All p) (hnext : first ≤ next) (how : Derivation)
    (hgiven : ∀ options, how = .withOptions options → ∀ id, first ≤ id → p ⟨id, options⟩) :
    Yields (Makes p first) (how.apply q next) := by
  refine heritable_apply (heritable_makes hp) ⟨hnext, hq⟩ how fun options h => ?_
  have hnew : p ⟨next, options⟩ := hgiven options h next hnext
  cases q with
  | empty => exact ⟨hnext, trivial⟩
  | search tag source => exact ⟨Nat.le_succ_of_le hnext, hnew⟩
  | staged tag stage below => exact ⟨Nat.le_succ_of_le hnext, hnew, hq.2⟩

lemma carries_apply {how : Derivation} (hhow : how.setsOptions = false) (q : Query) (next : Nat) :
    Yields (Carries (how.lender q).options) (how.apply q next) := by
  have hacts := acts_apply how q next
  generalize how.apply q next = outcome at hacts ⊢
  cases hacts with
  | fails e => exact yields_error e
  | keeps => exact yields_ok (carries_options _ next)
  | stages stage => exact yields_ok (Carries.derive stage _ _ (carries_options _ next))
  | refines f h =>
    rw [h]
    exact (carries_refine f q next).mapError _
  | replaces options h =>
    rw [h] at hhow
    cases hhow

/-- Whatever operations make of a query has numbers from the counter and options that are there
already or are given. -/
theorem makes_applyAll (hp : Passes p first) (hq : q.All p) (hnext : first ≤ next)
    {hows : List Derivation} (hgiven : ∀ options, .withOptions options ∈ hows →
      ∀ id, first ≤ id → p ⟨id, options⟩) :
    Yields (Makes p first) (applyAll hows q next) := by
  induction hows generalizing q next with
  | nil => exact yields_ok ⟨hnext, hq⟩
  | cons how rest ih =>
    have hfirst : Yields (Makes p first) (how.apply q next) := by
      refine makes_apply hp hq hnext how fun options hhow => hgiven options ?_
      rw [hhow]
      exact List.mem_cons_self
    refine hfirst.bind fun q' next' hmade => ?_
    exact ih hmade.2 hmade.1 fun options hmem => hgiven options (List.mem_cons_of_mem _ hmem)

/-- A derived query that is not empty has the options of the query that the operation takes them
over from.  If all instances of a query have the same options, whatever is derived from it has them,
too, however many operations it takes. -/
theorem options_of_apply (q : Query) (next : Nat) :
    (∀ (how : Derivation) (q' : Query) (next' : Nat), how.setsOptions = false →
        how.apply q next = .ok (q', next') → q'.isKnownEmpty = false →
          q'.options = (how.lender q).options) ∧
      ∀ options hows q' next', q.All (fun tag => tag.options = options) →
        (∀ how ∈ hows, how.setsOptions = false) → applyAll hows q next = .ok (q', next') →
          q'.isKnownEmpty = false →
            q'.options = options ∧ q'.All fun tag => tag.options = options := by
  constructor
  · intro how q' next' hhow hmade hfound
    exact carries_apply hhow q next q' next' hmade hfound
  · intro options hows q' next' huniform hhows hmade hfound
    have hpasses : Passes (fun tag => tag.options = options) 0 := fun tag id htag _ => htag
    have hgiven : ∀ given, Derivation.withOptions given ∈ hows → ∀ id, 0 ≤ id →
        (QueryTag.mk id given).options = options := by
      intro given hmem
      cases hhows _ hmem
    obtain ⟨-, hall⟩ := makes_applyAll hpasses huniform (Nat.zero_le next) hgiven q' next' hmade
    refine ⟨?_, hall⟩
    cases q' with
    | empty => cases hfound
    | search tag source => exact hall
    | staged tag stage below => exact hall.1

/-- The filter stays on a window with options of its own.  In the other chain it goes to the search,
and the first sort is replaced. -/
theorem options_of_apply_refetch :
    let adult : Filter := .leaf ⟨"age", some "gte", .one (.int 18)⟩
    let source : Source := ⟨"dc=org", .subtree, none⟩
    let window : Query :=
      .staged ⟨1, ⟨.refetch⟩⟩ (.sliced ⟨0, some 5, 1⟩) (.search ⟨0, .default⟩ source)
    let hows : List Derivation := [.orderBy ["cn"], .filter (.ok adult), .orderBy ["-sn"]]
    (∃ q' next', (Derivation.filter (.ok adult)).apply window 2 = .ok (q', next') ∧
        q'.options = ⟨.refetch⟩) ∧
      ∃ q' next', applyAll hows (.search ⟨0, ⟨.refetch⟩⟩ source) 1 = .ok (q', next') ∧
        q'.options = ⟨.refetch⟩ := by
  intro adult source window hows
  have hone : ∃ q' next', (Derivation.filter (.ok adult)).apply window 2 = .ok (q', next') ∧
      q'.isKnownEmpty = false := ⟨_, _, rfl, rfl⟩
  have hall : ∃ q' next',
      applyAll hows (.search ⟨0, ⟨.refetch⟩⟩ source) 1 = .ok (q', next') ∧
        q'.isKnownEmpty = false := ⟨_, _, rfl, rfl⟩
  obtain ⟨q', next', hmade, hfound⟩ := hone
  obtain ⟨q'', next'', hmades, hfounds⟩ := hall
  have hhows : ∀ how ∈ hows, how.setsOptions = false := by decide
  refine ⟨⟨q', next', hmade, ?_⟩, q'', next'', hmades, ?_⟩
  · exact (options_of_apply window 2).1 _ q' next' rfl hmade hfound
  · have hinherits := (options_of_apply (.search ⟨0, ⟨.refetch⟩⟩ source) 1).2
    exact (hinherits ⟨.refetch⟩ hows q'' next'' rfl hhows hmades hfounds).1

/-- Sorting a sorted query that asks every time gives a query that does not, since the search it was
made from does not.  So does a filter. -/
theorem options_not_taken_over :
    let all := Query.ofBase "dc=org" .subtree 0
    let sorted := all.1.orderBy ["cn"] all.2
    let asking := sorted.1.withOptions ⟨.refetch⟩ sorted.2
    let present : Filter := .leaf ⟨"mail", some "present", .one (.bool true)⟩
    asking.1.options = ⟨.refetch⟩ ∧
      (∃ q' next', (Derivation.orderBy ["sn"]).apply asking.1 asking.2 = .ok (q', next') ∧
        q'.isKnownEmpty = false ∧ q'.options ≠ asking.1.options) ∧
      ∃ q' next', (Derivation.filter (.ok present)).apply asking.1 asking.2 = .ok (q', next') ∧
        q'.isKnownEmpty = false ∧ q'.options ≠ asking.1.options := by
  intro all sorted asking present
  exact ⟨rfl, ⟨_, _, rfl, rfl, by decide⟩, _, _, rfl, rfl, by decide⟩

end Derivation

end DirectoryQuery
