import DirectoryQuery.Proofs.Query.Budget

/-!
# What evaluations keep

An evaluation changes what is kept in one way only: when its results end, and its record has no
error, the record becomes the kept result of its instance.  `Results.record_next` says so of a
request for the next entry.  The evaluations that go through all results collect the same entries
whatever they do with them (`Results.foldWithin_eq_collect`), so all of them keep what fetching
keeps (`Query.kept`).

Once a result is kept it is never replaced (`Snapshots.extends_keep`), and whatever is asked of the
instance is answered from it and leaves the workspace alone.
-/

namespace DirectoryQuery

namespace Snapshots

/-- Whatever was kept still is. -/
def Extends (s s' : Snapshots) : Prop :=
  ∀ id entries, s.get? id = some entries → s'.get? id = some entries

variable {s s' s'' : Snapshots}

lemma Extends.refl (s : Snapshots) : s.Extends s :=
  fun _ _ h => h

lemma Extends.trans (h : s.Extends s') (k : s'.Extends s'') : s.Extends s'' :=
  fun id entries hkept => k id entries (h id entries hkept)

lemma extends_keep (s : Snapshots) (id : Nat) (entries : List Entry) :
    s.Extends (s.keep id entries) := by
  intro other kept hkept
  rw [get?_keep]
  split
  · rename_i hother
    rw [← hother, hkept]
    rfl
  · exact hkept

/-- What an instance has kept afresh is what was to be kept for it. -/
lemma eq_of_get?_keep {id other : Nat} {entries kept : List Entry} (hbefore : s.get? other = none)
    (hafter : (s.keep id entries).get? other = some kept) : other = id ∧ kept = entries := by
  rw [get?_keep] at hafter
  split at hafter
  · rename_i hother
    rw [← hother, hbefore] at hafter
    exact ⟨hother, (Option.some.inj hafter).symm⟩
  · rw [hbefore] at hafter
    cases hafter

end Snapshots

namespace Results

variable {r r' : Results} {w w' : Workspace}

/-! ## The next entry -/

lemma record_step {event : StreamEvent} (h : r.step w = (event, r', w')) :
    (r'.recorder, w'.snapshots) = record r.recorder event w.snapshots := by
  rcases hstep : r.stream.step w.snapshots w.service with ⟨event', s, svc⟩
  rw [step, hstep] at h
  cases h
  rfl

/-- A step that is not the last takes something from the budget. -/
lemma budget_lt_of_step {event : StreamEvent} (h : r.step w = (event, r', w'))
    (hevent : event.isStop = false) (hsnapshots : w'.snapshots = w.snapshots) :
    r'.budget w' < r.budget w := by
  have hstream := stream_step h
  rw [budget, budget, hsnapshots, Stream.entries_step hstream]
  exact Stream.budget_step hstream rfl hevent

lemma record_pause (recorder : Option Recorder) (snapshots : Snapshots) :
    record recorder .pause snapshots = (recorder, snapshots) := by
  cases recorder <;> rfl

lemma record_nextWithin {steps : Nat} {outcome : Option (Except QueryError Entry)}
    (hsteps : r.budget w ≤ steps) (h : nextWithin steps r w = (outcome, r', w')) :
    ∃ event, Answers event outcome ∧
      (r'.recorder, w'.snapshots) = record r.recorder event w.snapshots := by
  induction steps generalizing r w with
  | zero => exact absurd hsteps (Nat.not_le_of_lt (Stream.budget_pos r.stream))
  | succ steps ih =>
    unfold nextWithin at h
    rcases hstep : r.step w with ⟨event, r₁, w₁⟩
    have hrecord := record_step hstep
    rw [hstep] at h
    cases event with
    | item e =>
      cases h
      exact ⟨.item e, rfl, hrecord⟩
    | fault e =>
      cases h
      exact ⟨.fault e, rfl, hrecord⟩
    | finish =>
      cases h
      exact ⟨.finish, rfl, hrecord⟩
    | pause =>
      have hless := budget_step_pause hstep
      rw [record_pause, Prod.mk.injEq] at hrecord
      obtain ⟨hrecorder, hsnapshots⟩ := hrecord
      obtain ⟨event, hanswers, hrecord⟩ := ih (by omega) h
      rw [hrecorder, hsnapshots] at hrecord
      exact ⟨event, hanswers, hrecord⟩

/-- Asking for the next entry takes note of what is answered, and of nothing else. -/
lemma record_next {outcome : Option (Except QueryError Entry)} (h : r.next w = (outcome, r', w')) :
    ∃ event, Answers event outcome ∧
      r'.recorder = (record r.recorder event w.snapshots).1 ∧
      w'.snapshots = (record r.recorder event w.snapshots).2 := by
  obtain ⟨event, hanswers, hrecord⟩ := record_nextWithin (Nat.le_refl _) h
  exact ⟨event, hanswers, congrArg Prod.fst hrecord, congrArg Prod.snd hrecord⟩

lemma Answers.event_eq {event event' : StreamEvent} {outcome : Option (Except QueryError Entry)}
    (h : Answers event outcome) (h' : Answers event' outcome) : event = event' := by
  cases event <;> cases event' <;> simp_all [Answers]

/-- What is taken note of is what is answered. -/
lemma record_next_of_answers (event : StreamEvent) {outcome : Option (Except QueryError Entry)}
    (hanswers : Answers event outcome) (h : r.next w = (outcome, r', w')) :
    r'.recorder = (record r.recorder event w.snapshots).1 ∧
      w'.snapshots = (record r.recorder event w.snapshots).2 := by
  obtain ⟨event', hanswers', hrecord⟩ := record_next h
  rwa [hanswers.event_eq hanswers']

/-- Nothing is kept while there is something to answer. -/
lemma snapshots_next_of_some {answer : Except QueryError Entry}
    (h : r.next w = (some answer, r', w')) : w'.snapshots = w.snapshots := by
  obtain ⟨event, hanswers, -, hsnapshots⟩ := record_next h
  rw [hsnapshots]
  cases r.recorder with
  | none => rfl
  | some recorder =>
    cases event with
    | finish => cases hanswers
    | _ => rfl

/-- Results that are not recorded leave nothing behind. -/
lemma snapshots_next_of_unrecorded {outcome : Option (Except QueryError Entry)}
    (hrecorder : r.recorder = none) (h : r.next w = (outcome, r', w')) :
    w'.snapshots = w.snapshots := by
  obtain ⟨event, -, -, hsnapshots⟩ := record_next h
  rw [hsnapshots, hrecorder]
  rfl

/-- A result is kept afresh when it ends and its record is without an error. -/
lemma eq_of_record {recorder : Option Recorder} {event : StreamEvent} {snapshots : Snapshots}
    {id : Nat} {es : List Entry} (hbefore : snapshots.get? id = none)
    (hafter : (record recorder event snapshots).2.get? id = some es) :
    event = .finish ∧ recorder = some ⟨id, es.reverse, false⟩ := by
  have hsame : snapshots.get? id ≠ some es := by
    rw [hbefore]
    exact (Option.some_ne_none es).symm
  unfold record at hafter
  split at hafter
  · exact absurd hafter hsame
  · rename_i r
    split at hafter
    · exact absurd hafter hsame
    · exact absurd hafter hsame
    · exact absurd hafter hsame
    · split at hafter
      · exact absurd hafter hsame
      · rename_i hfailed
        obtain ⟨rfl, rfl⟩ := Snapshots.eq_of_get?_keep hbefore hafter
        refine ⟨rfl, ?_⟩
        rw [List.reverse_reverse, ← eq_false_of_ne_true hfailed]

lemma extends_record (recorder : Option Recorder) (event : StreamEvent) (snapshots : Snapshots) :
    snapshots.Extends (record recorder event snapshots).2 := by
  unfold record
  split
  · exact .refl _
  · split
    · exact .refl _
    · exact .refl _
    · exact .refl _
    · split
      · exact .refl _
      · exact Snapshots.extends_keep _ _ _

/-! ## All entries -/

/-- All entries up to the end or the first error, the last one in front. -/
abbrev collectWithin (steps : Nat) (seen : List Entry) (r : Results) (w : Workspace) :
    List Entry × Option QueryError × Workspace :=
  foldWithin (fun acc e => e :: acc) steps seen r w

/-- Whatever is done with the entries, they are the same. -/
lemma foldWithin_eq_collect {β : Type} (f : β → Entry → β) (init : β) (steps : Nat)
    (seen : List Entry) (r : Results) (w : Workspace) :
    foldWithin f steps (seen.reverse.foldl f init) r w =
      ((collectWithin steps seen r w).1.reverse.foldl f init,
        (collectWithin steps seen r w).2) := by
  induction steps generalizing seen r w with
  | zero => rfl
  | succ steps ih =>
    unfold collectWithin foldWithin
    rcases r.step w with ⟨event, r₁, w₁⟩
    cases event with
    | item e =>
      have hseen : f (seen.reverse.foldl f init) e = (e :: seen).reverse.foldl f init := by
        rw [List.reverse_cons, List.foldl_append, List.foldl_cons, List.foldl_nil]
      simp only [hseen]
      exact ih (e :: seen) r₁ w₁
    | fault e => rfl
    | finish => rfl
    | pause => exact ih seen r₁ w₁

/-- Results that are not recorded leave nothing behind. -/
lemma snapshots_collect_of_unrecorded (steps : Nat) (seen : List Entry)
    (hrecorder : r.recorder = none) :
    (collectWithin steps seen r w).2.2.snapshots = w.snapshots := by
  induction steps generalizing seen r w with
  | zero => rfl
  | succ steps ih =>
    unfold collectWithin foldWithin
    rcases hstep : r.step w with ⟨event, r₁, w₁⟩
    have hrecord := record_step hstep
    rw [hrecorder] at hrecord
    obtain ⟨hrecorder₁, hsnapshots⟩ := Prod.mk.inj hrecord
    cases event with
    | item e => exact (ih (e :: seen) hrecorder₁).trans hsnapshots
    | fault e => exact hsnapshots
    | finish => exact hsnapshots
    | pause => exact (ih seen hrecorder₁).trans hsnapshots

/-- What is collected without an error is kept, and nothing else is. -/
lemma snapshots_collect {steps id : Nat} {seen : List Entry} (hsteps : r.budget w ≤ steps)
    (hrecorder : r.recorder = some ⟨id, seen, false⟩) :
    (collectWithin steps seen r w).2.2.snapshots =
      match (collectWithin steps seen r w).2.1 with
      | none => w.snapshots.keep id (collectWithin steps seen r w).1.reverse
      | some _ => w.snapshots := by
  induction steps generalizing seen r w with
  | zero => exact absurd hsteps (Nat.not_le_of_lt (Stream.budget_pos r.stream))
  | succ steps ih =>
    unfold collectWithin foldWithin
    rcases hstep : r.step w with ⟨event, r₁, w₁⟩
    have hrecord := record_step hstep
    rw [hrecorder] at hrecord
    obtain ⟨hrecorder₁, hsnapshots⟩ := Prod.mk.inj hrecord
    cases event with
    | item e =>
      have hless := budget_lt_of_step hstep rfl hsnapshots
      have hrest := ih (r := r₁) (w := w₁) (by omega) hrecorder₁
      rw [hsnapshots] at hrest
      exact hrest
    | fault e => exact hsnapshots
    | finish => exact hsnapshots
    | pause =>
      have hless := budget_step_pause hstep
      have hrest := ih (r := r₁) (w := w₁) (by omega) hrecorder₁
      rw [hsnapshots] at hrest
      exact hrest

/-- Who finds that there is no next entry has collected all of them. -/
lemma collectWithin_of_nextWithin {steps : Nat} (hsteps : r.budget w ≤ steps) (seen : List Entry)
    (h : nextWithin steps r w = (none, r', w')) :
    collectWithin steps seen r w = (seen, none, r'.close w') := by
  induction steps generalizing r w with
  | zero => exact absurd hsteps (Nat.not_le_of_lt (Stream.budget_pos r.stream))
  | succ steps ih =>
    unfold nextWithin at h
    unfold collectWithin foldWithin
    rcases hstep : r.step w with ⟨event, r₁, w₁⟩
    rw [hstep] at h
    cases event with
    | item e => cases h
    | fault e => cases h
    | finish =>
      cases h
      rfl
    | pause =>
      have hless := budget_step_pause hstep
      exact ih (by omega) h

/-! ## Entries that were kept -/

lemma next_replay_cons (e : Entry) (rest : List Entry) (w : Workspace) :
    next ⟨.replay (e :: rest), none⟩ w = (some (.ok e), ⟨.replay rest, none⟩, w) := rfl

lemma next_replay_nil (w : Workspace) :
    next ⟨.replay [], none⟩ w = (none, ⟨.ended, none⟩, w) := rfl

lemma next_ended (w : Workspace) : next ⟨.ended, none⟩ w = (none, ⟨.ended, none⟩, w) := rfl

lemma fold_replay {β : Type} (f : β → Entry → β) (init : β) (es : List Entry) (w : Workspace) :
    fold f init ⟨.replay es, none⟩ w = (es.foldl f init, none, w) := by
  show foldWithin f (es.length + 1) init ⟨.replay es, none⟩ w = (es.foldl f init, none, w)
  induction es generalizing init with
  | nil => rfl
  | cons e rest ih => exact ih (f init e)

end Results

namespace Query

variable {q : Query} {w : Workspace}

/-! ## Evaluations -/

/-- What is kept after all results of a query were gone through. -/
def kept (q : Query) (w : Workspace) : Snapshots :=
  match q.recorder? w.snapshots, (q.fetch w).1 with
  | some recorder, .ok es => w.snapshots.keep recorder.id es
  | _, _ => w.snapshots

/-- A query that is to keep its result starts with an empty record. -/
lemma recorder?_cases (q : Query) (snapshots : Snapshots) :
    q.recorder? snapshots = none ∨
      ∃ tag, q.tag? = some tag ∧ tag.options.cache = .snapshot ∧ snapshots.get? tag.id = none ∧
        q.recorder? snapshots = some ⟨tag.id, [], false⟩ := by
  unfold recorder?
  cases htag : q.tag? with
  | none => exact .inl rfl
  | some tag =>
    by_cases h : tag.options.cache = .snapshot ∧ snapshots.get? tag.id = none
    · exact .inr ⟨tag, rfl, h.1, h.2, if_pos h⟩
    · exact .inl (if_neg h)

lemma cached?_of_get? {tag : QueryTag} {es : List Entry} (htag : q.tag? = some tag)
    (h : w.snapshots.get? tag.id = some es) : q.cached? w.snapshots = some es := by
  rw [cached?, htag]
  exact h

lemma cached?_of_recorder? {recorder : Recorder} (h : q.recorder? w.snapshots = some recorder) :
    q.cached? w.snapshots = none := by
  obtain hnone | ⟨tag, htag, -, hget, -⟩ := q.recorder?_cases w.snapshots
  · rw [hnone] at h
    cases h
  · rw [cached?, htag]
    exact hget

/-- All results of a query, the last one in front. -/
abbrev collect (q : Query) (w : Workspace) : List Entry × Option QueryError × Workspace :=
  (q.results w.snapshots).collectWithin ((q.results w.snapshots).budget w) [] w

lemma fold_eq_collect {β : Type} (f : β → Entry → β) (init : β) :
    (q.results w.snapshots).fold f init w =
      ((q.collect w).1.reverse.foldl f init, (q.collect w).2) :=
  Results.foldWithin_eq_collect f init _ [] _ w

lemma fetch_eq_collect (h : q.cached? w.snapshots = none) :
    q.fetch w = (match (q.collect w).2.1 with
      | none => .ok (q.collect w).1.reverse
      | some e => .error e, (q.collect w).2.2) := by
  rw [fetch, h]
  simp only [Results.toList, fold_eq_collect]
  rcases q.collect w with ⟨acc, e | e, w'⟩
  · simp
  · rfl

/-- Going through all results keeps what fetching keeps. -/
lemma snapshots_collect (h : q.cached? w.snapshots = none) :
    (q.collect w).2.2.snapshots = q.kept w := by
  obtain hnone | ⟨tag, -, -, -, hrecorder⟩ := q.recorder?_cases w.snapshots
  · rw [kept, hnone]
    exact Results.snapshots_collect_of_unrecorded _ [] hnone
  · rw [kept, hrecorder, fetch_eq_collect h, Results.snapshots_collect (Nat.le_refl _) hrecorder]
    cases (q.collect w).2.1 <;> rfl

/-- An instance that has kept its result keeps nothing else. -/
lemma kept_of_cached {es : List Entry} (h : q.cached? w.snapshots = some es) :
    q.kept w = w.snapshots := by
  rw [kept]
  cases hrecorder : q.recorder? w.snapshots with
  | none => rfl
  | some recorder =>
    rw [cached?_of_recorder? hrecorder] at h
    cases h

lemma extends_kept (q : Query) (w : Workspace) : w.snapshots.Extends (q.kept w) := by
  rw [kept]
  split
  · exact Snapshots.extends_keep _ _ _
  · exact .refl _

/-- An instance keeps a result afresh if it is to keep one and fetching gives this one. -/
lemma get?_kept_iff {tag : QueryTag} (htag : q.tag? = some tag)
    (hcache : tag.options.cache = .snapshot) (hbefore : w.snapshots.get? tag.id = none)
    (es : List Entry) :
    (q.kept w).get? tag.id = some es ↔ (q.fetch w).1 = .ok es := by
  have hrecorder : q.recorder? w.snapshots = some ⟨tag.id, [], false⟩ := by
    rw [recorder?, htag]
    exact if_pos ⟨hcache, hbefore⟩
  rw [kept, hrecorder]
  cases (q.fetch w).1 with
  | error e => simp [hbefore]
  | ok es' => simp [Snapshots.get?_keep, hbefore]

/-- What is kept afresh is kept for the query itself. -/
lemma of_get?_kept {id : Nat} {es : List Entry} (hbefore : w.snapshots.get? id = none)
    (hafter : (q.kept w).get? id = some es) :
    ∃ tag, q.tag? = some tag ∧ tag.id = id ∧ tag.options.cache = .snapshot ∧
      (q.fetch w).1 = .ok es := by
  have hsame : w.snapshots.get? id ≠ some es := by
    rw [hbefore]
    exact (Option.some_ne_none es).symm
  rw [kept] at hafter
  obtain hnone | ⟨tag, htag, hcache, -, hrecorder⟩ := q.recorder?_cases w.snapshots
  · rw [hnone] at hafter
    exact absurd hafter hsame
  · rw [hrecorder] at hafter
    cases hfetch : (q.fetch w).1 with
    | error e =>
      rw [hfetch] at hafter
      exact absurd hafter hsame
    | ok found =>
      rw [hfetch] at hafter
      obtain ⟨hid, rfl⟩ := Snapshots.eq_of_get?_keep hbefore hafter
      exact ⟨tag, htag, hid.symm, hcache, rfl⟩

lemma snapshots_fetch (q : Query) (w : Workspace) : (q.fetch w).2.snapshots = q.kept w := by
  cases hcached : q.cached? w.snapshots with
  | some es =>
    rw [kept_of_cached hcached, fetch, hcached]
  | none =>
    rw [← snapshots_collect hcached, fetch_eq_collect hcached]

lemma snapshots_count (q : Query) (w : Workspace) : (q.count w).2.snapshots = q.kept w := by
  cases hcached : q.cached? w.snapshots with
  | some es =>
    rw [kept_of_cached hcached, count, hcached]
  | none =>
    rw [← snapshots_collect hcached, count, hcached, fold_eq_collect]
    rcases q.collect w with ⟨acc, e | e, w'⟩ <;> rfl

/-! ## Results that were kept -/

lemma results_of_cached {es : List Entry} (h : q.cached? w.snapshots = some es) :
    q.results w.snapshots = ⟨.replay es, none⟩ := by
  cases q with
  | empty => cases h
  | search tag source | staged tag stage below =>
    have hget : w.snapshots.get? tag.id = some es := h
    simp [results, stream, recorder?, tag?, hget]

/-- A kept result answers every evaluation, and none of them changes anything. -/
theorem evaluations_of_cached {es : List Entry} (h : q.cached? w.snapshots = some es) :
    q.fetch w = (.ok es, w) ∧ q.count w = (.ok es.length, w) ∧ q.one w = (.ok es.head?, w) ∧
      (∀ index, q.get index w = (.ok es[index]?, w)) ∧
      ∀ as, q.aggregate as w = (es.foldl Aggregations.accumulate as.reset, none, w) := by
  refine ⟨?_, ?_, ?_, fun index => ?_, fun as => ?_⟩
  · rw [fetch, h]
  · rw [count, h]
  · rw [one, results_of_cached h]
    cases es <;> rfl
  · rw [get, h]
  · rw [aggregate, results_of_cached h, Results.fold_replay]

lemma snapshots_aggregate (q : Query) (as : Aggregations) (w : Workspace) :
    (q.aggregate as w).2.2.snapshots = q.kept w := by
  cases hcached : q.cached? w.snapshots with
  | some es =>
    obtain ⟨-, -, -, -, haggregate⟩ := evaluations_of_cached hcached
    rw [kept_of_cached hcached, haggregate]
  | none => rw [← snapshots_collect hcached, aggregate, fold_eq_collect]

/-- The first entry alone is no complete result, unless there is none. -/
lemma snapshots_one (q : Query) (w : Workspace) :
    (q.one w).1 = .ok none ∧ (q.fetch w).1 = .ok [] ∧ (q.one w).2.snapshots = q.kept w ∨
      (q.one w).1 ≠ .ok none ∧ (q.one w).2.snapshots = w.snapshots := by
  cases hcached : q.cached? w.snapshots with
  | some es =>
    obtain ⟨hfetch, -, hone, -⟩ := evaluations_of_cached hcached
    rw [hone, hfetch, kept_of_cached hcached]
    cases es with
    | nil => exact .inl ⟨rfl, rfl, rfl⟩
    | cons e rest => exact .inr ⟨by simp, rfl⟩
  | none =>
    rcases hnext : (q.results w.snapshots).next w with ⟨outcome, r', w'⟩
    obtain ⟨event, hanswers, -, hafter⟩ := Results.record_next hnext
    have hevent : event ≠ .finish → w'.snapshots = w.snapshots := by
      intro hfinish
      rw [hafter]
      cases (q.results w.snapshots).recorder <;> cases event <;>
        first | rfl | exact absurd rfl hfinish
    rw [one, Results.first, hnext]
    cases event with
    | item e =>
      obtain rfl : outcome = some (.ok e) := hanswers
      exact .inr ⟨by simp, hevent (by simp)⟩
    | fault e =>
      obtain rfl : outcome = some (.error e) := hanswers
      exact .inr ⟨by simp, hevent (by simp)⟩
    | pause => exact hanswers.elim
    | finish =>
      obtain rfl : outcome = none := hanswers
      have hcollect : q.collect w = ([], none, r'.close w') :=
        Results.collectWithin_of_nextWithin (Nat.le_refl _) [] hnext
      refine .inl ⟨rfl, ?_, ?_⟩
      · rw [fetch_eq_collect hcached, hcollect]
        rfl
      · rw [← snapshots_collect hcached, hcollect]

lemma snapshots_get (q : Query) (index : Nat) (w : Workspace) :
    (q.get index w).2.snapshots = w.snapshots := by
  unfold get
  split
  · rfl
  · rw [Results.first]
    rcases hnext : Results.next ⟨.sliced (.single index) 0 (q.stream w.snapshots), none⟩ w with
      ⟨outcome, r', w'⟩
    have hsnapshots := Results.snapshots_next_of_unrecorded rfl hnext
    rcases outcome with - | (e | e) <;> exact hsnapshots

end Query

end DirectoryQuery
