import DirectoryQuery.Proofs.Query.Faults
import DirectoryQuery.Proofs.Query.Evaluation

/-!
# Results that fail on the way

Results are read entry by entry while servers go down and come up and requests are set up to fail,
between two requests for an entry or in the midst of one (`Results.Read`).  Whatever is set up and
however often, the answers begin like those of results that do not fail, then there is one error at
most, and behind it nothing (`Results.exists_course`).  Sorted results are all there before the
first of them is answered, so these fail before that or not at all (`Stream.AwaitsSort.step`,
`Stream.IsLocal.step`).

`Query.read_prefix` adds what is kept of results that failed, which is nothing, and that fetching
them again finds them when what was set up is gone.
-/

namespace DirectoryQuery

/-- From outside, servers go down or come up, credentials change, and requests are set up to fail or
no longer so.  The entries and the sessions stay as they are. -/
structure Service.Disturbed (svc svc' : Service) : Prop where
  pool : svc'.pool = svc.pool
  entries : svc'.directory.entries = svc.directory.entries
  searchesRun : svc'.directory.searchesRun = svc.directory.searchesRun

namespace Results

/-- Asks for the next entry a number of times. -/
def ask : Nat → Results → Workspace →
    List (Option (Except QueryError Entry)) × Results × Workspace
  | 0, r, w => ([], r, w)
  | n + 1, r, w =>
    let (answer, r, w) := r.next w
    let (answers, r, w) := ask n r w
    (answer :: answers, r, w)

/-- The results were asked for entries one by one and gave these answers, with disturbances between
the requests or between the steps of one.  While the search is still to be started, no failure is
set up that would be taken for a base that is not there. -/
inductive Read : Results → Workspace → List (Option (Except QueryError Entry)) → Results →
    Workspace → Prop
  | nil (r : Results) (w : Workspace) : Read r w [] r w
  | next {r r₁ r' : Results} {w w₁ w' : Workspace} {answer : Option (Except QueryError Entry)}
    {answers : List (Option (Except QueryError Entry))} (h : r.next w = (answer, r₁, w₁))
    (k : Read r₁ w₁ answers r' w') : Read r w (answer :: answers) r' w'
  /-- A step of a request that is still under way. -/
  | pause {r r₁ r' : Results} {w w₁ w' : Workspace}
    {answers : List (Option (Except QueryError Entry))} (h : r.step w = (.pause, r₁, w₁))
    (k : Read r₁ w₁ answers r' w') : Read r w answers r' w'
  | disturb {r r' : Results} {w w' : Workspace} {svc : Service}
    {answers : List (Option (Except QueryError Entry))} (h : w.service.Disturbed svc)
    (hkind : r.stream.pending ≠ 0 →
      ∀ e, svc.directory.searchFailure = some e → e.isAcceptable = false)
    (k : Read r ⟨svc, w.snapshots⟩ answers r' w') : Read r w answers r' w'

end Results

/-! ## Sorted results -/

/-- No stage fails by itself. -/
lemma Stage.error_outcome {o : Outcome} (stage : Stage) (h : o.error = none) :
    (stage.outcome o).error = none := by
  cases stage with
  | ordered keys => simp only [outcome, Outcome.sorted, h]
  | sliced window => simp only [outcome, Outcome.cut, h, ite_self]
  | _ => exact h

/-- No stage adds entries. -/
lemma Stage.entries_outcome {o : Outcome} (stage : Stage) (h : o.entries = []) :
    (stage.outcome o).entries = [] := by
  obtain ⟨entries, error⟩ := o
  obtain rfl : entries = [] := h
  cases stage with
  | ordered keys =>
    cases error with
    | none => exact Stage.apply_nil (.ordered keys)
    | some e => rfl
  | sliced window => exact Stage.apply_nil (.sliced window)
  | _ => rfl

namespace Stream

/-- What is left is at hand. -/
inductive IsLocal : Stream → Prop
  | ended : IsLocal .ended
  | replay (entries : List Entry) : IsLocal (.replay entries)
  | stage {inner s : Stream} (hs : IsStage inner s) (h : IsLocal inner) : IsLocal s

/-- Something is to be sorted that is not all there. -/
inductive AwaitsSort : Stream → Prop
  | unsorted (keys : List SortKey) (below : Query) : AwaitsSort (.unsorted keys below)
  | sorting (keys : List SortKey) (collected : List Entry) (inner : Stream) :
    AwaitsSort (.sorting keys collected inner)
  | stage {inner s : Stream} (hs : IsStage inner s) (h : AwaitsSort inner) : AwaitsSort s

variable {snapshots : Snapshots} {svc svc' : Service} {s s' inner : Stream} {event : StreamEvent}

/-- What is at hand does not fail. -/
lemma IsLocal.step (hs : s.IsLocal) (h : s.step snapshots svc = (event, s', svc')) :
    s'.IsLocal ∧ ∀ e, event ≠ .fault e := by
  induction hs generalizing event s' svc' with
  | ended =>
    cases h
    exact ⟨.ended, nofun⟩
  | replay entries =>
    cases entries with
    | nil =>
      cases h
      exact ⟨.ended, nofun⟩
    | cons e rest =>
      cases h
      exact ⟨.replay rest, nofun⟩
  | stage hs _ ih =>
    obtain ⟨below, inner', hbelow, hpass, hs'⟩ | ⟨rfl, rfl, -⟩ | ⟨inner', svc₁, -, rfl, rfl, -⟩ :=
      step_stage hs h
    · obtain ⟨hinner', hfault⟩ := ih hbelow
      refine ⟨.stage hs' hinner', ?_⟩
      rintro e rfl
      cases hpass
      exact hfault e rfl
    · exact ⟨.ended, nofun⟩
    · exact ⟨.ended, nofun⟩

/-- Nothing is delivered before all is there to be sorted, and then it is at hand. -/
lemma AwaitsSort.step (hs : s.AwaitsSort) (h : s.step snapshots svc = (event, s', svc')) :
    event = .pause ∧ (s'.AwaitsSort ∨ s'.IsLocal) ∨ event.isStop = true := by
  induction hs generalizing event s' svc' with
  | unsorted keys below =>
    cases h
    exact .inl ⟨rfl, .inl (.sorting keys [] _)⟩
  | sorting keys collected inner =>
    obtain ⟨below, inner', svc₁, -, hcase⟩ := step_sorting h
    obtain ⟨-, rfl, ⟨collected', rfl⟩, -⟩ | ⟨e, -, rfl, -, -⟩ | ⟨-, rfl, rfl, -⟩ := hcase
    · exact .inl ⟨rfl, .inl (.sorting keys collected' inner')⟩
    · exact .inr rfl
    · exact .inl ⟨rfl, .inr (.replay _)⟩
  | stage hs _ ih =>
    obtain ⟨below, inner', hbelow, hpass, hs'⟩ | ⟨rfl, -, -⟩ | ⟨inner', svc₁, -, rfl, -, -⟩ :=
      step_stage hs h
    · obtain ⟨rfl, hinner'⟩ | hstop := ih hbelow
      · cases hpass
        exact .inl ⟨rfl, hinner'.imp (.stage hs') (.stage hs')⟩
      · exact .inr (hpass.isStop_eq ▸ hstop)
    · exact .inr rfl
    · exact .inr rfl

end Stream

/-- Evaluating the query sorts something. -/
def Query.Sorts (snapshots : Snapshots) : Query → Prop
  | .empty | .search _ _ => False
  | .staged tag stage below =>
    snapshots.get? tag.id = none ∧ ((∃ keys, stage = .ordered keys) ∨ below.Sorts snapshots)

/-- What is sorted and fails has no entries. -/
lemma Query.Sorts.entries_eq_nil {snapshots : Snapshots} {d : Directory} {q : Query}
    (h : q.Sorts snapshots) (herror : (q.outcome snapshots d).error ≠ none) :
    (q.outcome snapshots d).entries = [] := by
  induction q with
  | empty => exact h.elim
  | search tag source => exact h.elim
  | staged tag stage below ih =>
    obtain ⟨hnone, hsorts⟩ := h
    simp only [outcome, hnone] at herror ⊢
    have hfails : (below.outcome snapshots d).error ≠ none := mt stage.error_outcome herror
    obtain ⟨keys, rfl⟩ | hbelow := hsorts
    · obtain ⟨e, he⟩ := Option.ne_none_iff_exists'.1 hfails
      simp only [Stage.outcome, Outcome.sorted, he, Outcome.failure]
    · exact stage.entries_outcome (ih hbelow hfails)

lemma Query.Sorts.awaitsSort {snapshots : Snapshots} {q : Query} (h : q.Sorts snapshots) :
    (q.stream snapshots).AwaitsSort := by
  induction q with
  | empty => exact h.elim
  | search tag source => exact h.elim
  | staged tag stage below ih =>
    obtain ⟨hnone, hsorts⟩ := h
    simp only [stream, hnone]
    cases stage with
    | ordered keys => exact .unsorted keys below
    | _ =>
      obtain ⟨keys, hkeys⟩ | hbelow := hsorts
      · cases hkeys
      · refine .stage ?_ (ih hbelow)
        constructor

namespace Results

variable {d : Directory} {r r' : Results} {w w' : Workspace}
  {answers : List (Option (Except QueryError Entry))}

lemma isLocal_pauses (hr : r.stream.IsLocal) (h : r.Pauses w r' w') : r'.stream.IsLocal := by
  induction h with
  | refl => exact hr
  | step h _ ih => exact ih (hr.step (stream_step h)).1

lemma isLocal_next {answer : Option (Except QueryError Entry)} (hr : r.stream.IsLocal)
    (h : r.next w = (answer, r', w')) :
    r'.stream.IsLocal ∧ ∀ e, answer ≠ some (.error e) := by
  obtain ⟨r₁, w₁, event, hpauses, hstep, hanswers⟩ := next_pauses h
  obtain ⟨hr', hfault⟩ := (isLocal_pauses hr hpauses).step (stream_step hstep)
  refine ⟨hr', ?_⟩
  rintro e rfl
  cases event with
  | fault e' => exact hfault e' rfl
  | item e' => cases hanswers
  | pause => exact hanswers
  | finish => cases hanswers

lemma awaitsSort_pauses (hr : r.stream.AwaitsSort) (h : r.Pauses w r' w') :
    r'.stream.AwaitsSort ∨ r'.stream.IsLocal := by
  induction h with
  | refl => exact .inl hr
  | step h k ih =>
    obtain ⟨-, hawaits | hlocal⟩ | hstop := hr.step (stream_step h)
    · exact ih hawaits
    · exact .inr (isLocal_pauses hlocal k)
    · cases hstop

/-- When a sorted entry is answered, the rest is at hand. -/
lemma awaitsSort_next {e : Entry} (hr : r.stream.AwaitsSort)
    (h : r.next w = (some (.ok e), r', w')) : r'.stream.IsLocal := by
  obtain ⟨r₁, w₁, event, hpauses, hstep, hanswers⟩ := next_pauses h
  obtain hawaits | hlocal := awaitsSort_pauses hr hpauses
  · obtain ⟨rfl, -⟩ | hstop := hawaits.step (stream_step hstep)
    · exact hanswers.elim
    · cases event with
      | item e' => cases hstop
      | fault e' => cases hanswers
      | pause => cases hstop
      | finish => cases hanswers
  · exact (hlocal.step (stream_step hstep)).1

/-! ## Reading on -/

/-- A record with an error is not kept. -/
lemma record_finish_of_failed {recorder : Option Recorder}
    (h : ∀ r, recorder = some r → r.failed = true) (snapshots : Snapshots) :
    record recorder .finish snapshots = (none, snapshots) := by
  cases recorder with
  | none => rfl
  | some r => rw [record, if_pos (h r rfl)]

/-- Results that are through, and have no record that is without an error, answer that nothing is
left and let nothing be kept. -/
lemma read_of_isSpent (hr : r.stream.IsSpent)
    (hrecorder : ∀ recorder, r.recorder = some recorder → recorder.failed = true)
    (h : r.Read w answers r' w') :
    answers = List.replicate answers.length none ∧ r'.stream.IsSpent ∧
      w'.snapshots = w.snapshots := by
  induction h with
  | nil => exact ⟨rfl, hr, rfl⟩
  | next h _ ih =>
    obtain ⟨rfl, hspent⟩ := next_of_isSpent hr h
    obtain ⟨hrecord, hsnapshots⟩ := record_next_of_answers .finish rfl h
    rw [record_finish_of_failed hrecorder] at hrecord hsnapshots
    obtain ⟨hrest, hspent', hkept⟩ := ih hspent (by simp [hrecord])
    refine ⟨?_, hspent', hkept.trans hsnapshots⟩
    rw [List.length_cons, List.replicate_succ, ← hrest]
  | pause h _ _ =>
    obtain ⟨hevent, -⟩ := hr.step (stream_step h)
    cases hevent
  | disturb _ _ _ ih => exact ih hr hrecorder

/-- How reading results went that had this outcome ahead of them, and what they came to. -/
structure Course (r : Results) (w : Workspace) (ahead : Outcome)
    (answers : List (Option (Except QueryError Entry))) (r' : Results) (w' : Workspace)
    (o : Outcome) : Prop where
  begins : o.entries <+: ahead.entries
  complete : o = ahead ∨ ∃ e, o.error = some e ∧ some (.error e) ∈ answers
  answers_eq : answers = (List.range answers.length).map o.answer
  isLocal : r.stream.IsLocal → o = ahead
  awaitsSort : r.stream.AwaitsSort → o = ahead ∨ o.entries = []
  spent : o.entries.length < answers.length → r'.stream.IsSpent
  /-- The record is kept if it is without an error, and nothing else is. -/
  kept : w'.snapshots = w.snapshots ∨ o = ahead ∧ o.error = none ∧
    ∃ id seen, r.recorder = some ⟨id, seen, false⟩ ∧
      w'.snapshots = w.snapshots.keep id (seen.reverse ++ o.entries)

variable {ahead o : Outcome}

lemma course_nil (r : Results) (w : Workspace) (ahead : Outcome) :
    Course r w ahead [] r w ahead where
  begins := List.prefix_refl _
  complete := .inl rfl
  answers_eq := rfl
  isLocal _ := rfl
  awaitsSort _ := .inl rfl
  spent := nofun
  kept := .inl rfl

/-- An entry is answered, and then things go as they went. -/
lemma Course.item {r₁ : Results} {w₁ : Workspace} {e : Entry}
    (h : Course r₁ w₁ ahead answers r' w' o) (hnext : r.next w = (some (.ok e), r₁, w₁)) :
    Course r w (ahead.cons e) (some (.ok e) :: answers) r' w' (o.cons e) := by
  obtain ⟨hrecord, -⟩ := record_next_of_answers (.item e) rfl hnext
  have hsame := snapshots_next_of_some hnext
  exact
    { begins := (List.prefix_cons_inj e).2 h.begins
      complete := h.complete.imp (congrArg _) fun ⟨e', he', hmem⟩ =>
        ⟨e', he', List.mem_cons_of_mem _ hmem⟩
      answers_eq := by
        rw [List.length_cons, Outcome.answers_cons, ← h.answers_eq]
      isLocal := fun hlocal => congrArg _ (h.isLocal (isLocal_next hlocal hnext).1)
      awaitsSort := fun hawaits =>
        .inl (congrArg _ (h.isLocal (awaitsSort_next hawaits hnext)))
      spent := fun hover => h.spent (Nat.lt_of_succ_lt_succ hover)
      kept := by
        obtain hkept | ⟨hsound, hnone, id, seen, hrecorder, hkept⟩ := h.kept
        · exact .inl (hkept.trans hsame)
        · refine .inr ⟨congrArg _ hsound, hnone, ?_⟩
          rw [hrecord] at hrecorder
          cases hr : r.recorder with
          | none =>
            rw [hr] at hrecorder
            cases hrecorder
          | some recorder =>
            rw [hr] at hrecorder
            obtain ⟨id', seen', failed⟩ := recorder
            obtain ⟨rfl, rfl, rfl⟩ := Recorder.mk.inj (Option.some.inj hrecorder)
            refine ⟨id', seen', rfl, ?_⟩
            rw [hkept, hsame, List.reverse_cons, List.append_assoc]
            rfl }

/-- An error is answered, and then that nothing is left. -/
lemma course_failure {r₁ : Results} {w₁ : Workspace} {e : QueryError} (ahead : Outcome)
    (hnext : r.next w = (some (.error e), r₁, w₁)) (hspent : r₁.stream.IsSpent)
    (h : r₁.Read w₁ answers r' w') :
    Course r w ahead (some (.error e) :: answers) r' w' (.failure e) := by
  obtain ⟨hrecord, -⟩ := record_next_of_answers (.fault e) rfl hnext
  have hsame := snapshots_next_of_some hnext
  have hfailed : ∀ recorder, r₁.recorder = some recorder → recorder.failed = true := by
    rw [hrecord]
    cases r.recorder with
    | none => nofun
    | some recorder =>
      rintro _ ⟨⟩
      rfl
  obtain ⟨hrest, hspent', hkept⟩ := read_of_isSpent hspent hfailed h
  exact
    { begins := List.nil_prefix
      complete := .inr ⟨e, rfl, List.mem_cons_self⟩
      answers_eq := by
        rw [List.length_cons, Outcome.answers_failure, ← hrest]
      isLocal := fun hlocal => absurd rfl ((isLocal_next hlocal hnext).2 e)
      awaitsSort := fun _ => .inr rfl
      spent := fun _ => hspent'
      kept := .inl (hkept.trans hsame) }

/-- It is answered that nothing is left, once and ever after. -/
lemma course_nothing {r₁ : Results} {w₁ : Workspace} (hnext : r.next w = (none, r₁, w₁))
    (hspent : r₁.stream.IsSpent) (h : r₁.Read w₁ answers r' w') :
    Course r w .nothing (none :: answers) r' w' .nothing := by
  obtain ⟨hrecord, hsnapshots⟩ := record_next_of_answers .finish rfl hnext
  have hunrecorded : r₁.recorder = none := by
    rw [hrecord]
    cases r.recorder <;> rfl
  obtain ⟨hrest, hspent', hkept⟩ := read_of_isSpent hspent (by simp [hunrecorded]) h
  exact
    { begins := List.nil_prefix
      complete := .inl rfl
      answers_eq := by
        rw [List.length_cons, Outcome.answers_nothing, List.replicate_succ, ← hrest]
      isLocal := fun _ => rfl
      awaitsSort := fun _ => .inl rfl
      spent := fun _ => hspent'
      kept := by
        rw [hkept, hsnapshots]
        cases hr : r.recorder with
        | none => exact .inl rfl
        | some recorder =>
          obtain ⟨id, seen, failed⟩ := recorder
          cases failed with
          | true => exact .inl rfl
          | false =>
            exact .inr ⟨rfl, rfl, id, seen, rfl, by rw [Outcome.nothing, List.append_nil]; rfl⟩ }

/-- Before the first answer. -/
lemma Course.pause {r₁ : Results} {w₁ : Workspace} (h : Course r₁ w₁ ahead answers r' w' o)
    (hstep : r.step w = (.pause, r₁, w₁)) : Course r w ahead answers r' w' o := by
  have hrecord := record_step hstep
  rw [record_pause, Prod.mk.injEq] at hrecord
  obtain ⟨hrecorder, hsame⟩ := hrecord
  exact
    { h with
      isLocal := fun hlocal => h.isLocal (hlocal.step (stream_step hstep)).1
      awaitsSort := by
        intro hawaits
        obtain ⟨-, hawaits | hlocal⟩ | hstop := hawaits.step (stream_step hstep)
        · exact h.awaitsSort hawaits
        · exact .inl (h.isLocal hlocal)
        · cases hstop
      kept := by
        rw [← hsame, ← hrecorder]
        exact h.kept }

/-- A disturbed service serves on. -/
lemma sound_disturb {s : Stream} {svc svc' : Service} (hs : s.Sound d svc)
    (h : svc.Disturbed svc') (hkind : s.pending ≠ 0 →
      ∀ e, svc'.directory.searchFailure = some e → e.isAcceptable = false) : s.Sound d svc' where
  fits := hs.fits
  serves :=
    { entries := h.entries.trans hs.serves.entries
      entries_le := hs.serves.entries_le
      searchesRun_lt := h.searchesRun ▸ hs.serves.searchesRun_lt
      failure := hkind }

/-- Whatever disturbs reading: the answers begin like those to come, then there is one error at
most, and behind it nothing. -/
theorem exists_course (hr : r.stream.Sound d w.service)
    (hahead : r.stream.outcome w.snapshots d = ahead) (h : r.Read w answers r' w') :
    ∃ o, Course r w ahead answers r' w' o := by
  induction h generalizing ahead with
  | nil r w => exact ⟨_, course_nil r w ahead⟩
  | @next r r₁ r' w w₁ w' answer answers h k ih =>
    obtain ⟨hr₁, -, event, hanswers, hopens, hspent⟩ := sound_next hr h
    rw [hahead] at hopens
    cases event with
    | item e =>
      obtain rfl : answer = some (.ok e) := hanswers
      obtain rfl : ahead = (r₁.stream.outcome w.snapshots d).cons e := hopens
      obtain ⟨o, hcourse⟩ := ih hr₁ (by rw [snapshots_next_of_some h])
      exact ⟨_, hcourse.item h⟩
    | fault e =>
      obtain rfl : answer = some (.error e) := hanswers
      exact ⟨_, course_failure ahead h (hspent rfl) k⟩
    | pause => exact hanswers.elim
    | finish =>
      obtain rfl : answer = none := hanswers
      obtain rfl : ahead = .nothing := hopens
      exact ⟨_, course_nothing h (hspent rfl) k⟩
  | @pause r r₁ _ w w₁ _ _ h _ ih =>
    obtain ⟨hr₁, -, hopens⟩ := hr.step (stream_step h)
    have hsame : r.stream.outcome w.snapshots d = r₁.stream.outcome w.snapshots d := hopens
    rw [hsame, ← snapshots_of_step h nofun] at hahead
    obtain ⟨o, hcourse⟩ := ih hr₁ hahead
    exact ⟨o, hcourse.pause h⟩
  | disturb h hkind _ ih =>
    obtain ⟨o, hcourse⟩ := ih (sound_disturb hr h hkind) hahead
    exact ⟨o, { hcourse with kept := hcourse.kept }⟩

/-! ## Reading undisturbed -/

/-- On a ready service the answers are the outcome. -/
lemma ask_of_ready (hr : r.stream.Sound d w.service) (hready : w.service.Ready) (n : Nat) :
    (r.ask n w).1 = (List.range n).map (r.stream.outcome w.snapshots d).answer := by
  induction n generalizing r w with
  | zero => rfl
  | succ n ih =>
    rcases hnext : r.next w with ⟨answer, r₁, w₁⟩
    obtain ⟨hr₁, hready₁, -⟩ := sound_next hr hnext
    obtain ⟨rfl, hrest⟩ := next_answer hr hready hnext
    have hlater := ih hr₁ (hready₁ hready)
    rw [outcome_next hnext] at hlater
    rw [ask, hnext, List.range_succ_eq_map, List.map_cons, List.map_map]
    exact congrArg _ (hlater.trans (List.map_congr_left fun k _ => hrest k))

/-! ## What is left behind -/

lemma disturbed_failNextSearch (svc : Service) (e : DirectoryError) :
    svc.Disturbed { svc with directory := svc.directory.failNextSearch e } :=
  ⟨rfl, rfl, rfl⟩

lemma endures_disturb {svc svc' : Service} (h : svc.Disturbed svc') (a : Stake) :
    a.Endures svc a svc' where
  config := by rw [h.pool]
  entries := h.entries
  allOpen hopen := by rwa [h.pool]
  searchesRun := Nat.le_of_eq (congrArg (· + a.asks) h.searchesRun)

lemma endures_read (h : r.Read w answers r' w') :
    r.stream.stake.Endures w.service r'.stream.stake w'.service := by
  induction h with
  | nil => exact .refl _ _
  | next h _ ih => exact (covers_next Stake.covers_spares h).toEndures.trans ih
  | pause h _ ih =>
    exact (Stream.covers_step Stake.covers_spares (stream_step h)).toEndures.trans ih
  | disturb h _ _ ih => exact (endures_disturb h _).trans ih

/-- Results that are through stay so, whenever they are asked. -/
lemma eq_none_of_polled (hr : r.stream.IsSpent) (h : r.Polled answers r') :
    ∀ answer ∈ answers, answer = none := by
  induction h with
  | nil => nofun
  | cons h _ ih =>
    obtain ⟨rfl, hspent⟩ := next_of_isSpent hr h
    exact List.forall_mem_cons.2 ⟨rfl, ih hspent⟩

end Results

namespace Query

open Results

variable {q : Query} {w w' : Workspace} {rs : List Entry}

/-- A disturbed service is ready again when what was set up is gone. -/
lemma ready_of_read (hready : w.service.Ready)
    (hroom : w.service.directory.searchesRun + 2 < Text.maxSize)
    {answers : List (Option (Except QueryError Entry))} {r : Results}
    (h : (q.results w.snapshots).Read w answers r w') {w'' : Workspace}
    (hw'' : w'' = w' ∨ w'' = r.close w') {svc : Service} (hsvc : w''.service.Disturbed svc)
    (hspared : w.service.directory.Spared svc.directory) :
    svc.Ready ∧ svc.directory.searchesRun + 1 < Text.maxSize ∧
      svc.directory.entries = w.service.directory.entries := by
  have hread := endures_read h
  have hend : ∃ b, (q.results w.snapshots).stream.stake.Endures w.service b w''.service := by
    obtain rfl | rfl := hw''
    · exact ⟨_, hread⟩
    · exact ⟨_, hread.trans (Stream.covers_close Stake.covers_spares r.stream).toEndures⟩
  obtain ⟨b, hend⟩ := hend
  have hall := hend.trans (endures_disturb hsvc b)
  have hpending : (q.results w.snapshots).stream.stake.asks ≤ 1 := Stream.pending_stream_le q
  have hheld : (q.results w.snapshots).stream.stake.held = [] :=
    congrArg Stake.held (Stream.stake_stream q)
  have hsearches := hall.searchesRun
  refine ⟨hall.ready hspared hready (by rw [hheld]; nofun) (by omega), by omega, hall.entries⟩

/-- Whatever is set up to fail while results are read, and whenever: the answers begin like those of
results that are read undisturbed, then there is one error at most, and from then on nothing is
left; if something is sorted, there is no entry before the error.  Results that failed are not kept.
When what was set up is gone, fetching gives what it would have given at first.  A failure that
passes for a missing base is left out while the search is still to be started, and the searches have
to be so few that cookies can number them. -/
theorem read_prefix (q : Query) (hready : w.service.Ready)
    (hroom : w.service.directory.searchesRun + 2 < Text.maxSize) :
    ∃ ahead : Outcome, (q.fetch w).1 = ahead.result ∧
      (∀ n, ((q.results w.snapshots).ask n w).1 = (List.range n).map ahead.answer) ∧
      ∀ answers r w', (q.results w.snapshots).Read w answers r w' →
        (∃ o : Outcome, o.entries <+: ahead.entries ∧
          (o = ahead ∨ ∃ e, o.error = some e ∧ some (.error e) ∈ answers) ∧
          answers = (List.range answers.length).map o.answer ∧
          (o.error ≠ none → q.Sorts w.snapshots → o.entries = []) ∧
          (o.error ≠ none → w'.snapshots = w.snapshots) ∧
          (o.entries.length < answers.length →
            ∀ later r', r.Polled later r' → ∀ answer ∈ later, answer = none)) ∧
        ∀ w'' svc, w'' = w' ∨ w'' = r.close w' → w''.service.Disturbed svc →
          w.service.directory.Spared svc.directory →
          (q.fetch ⟨svc, w''.snapshots⟩).1 = ahead.result := by
  have hsound : (q.results w.snapshots).stream.Sound w.service.directory w.service :=
    Stream.sound_stream hready rfl (by omega) q
  have hahead : (q.results w.snapshots).stream.outcome w.snapshots w.service.directory =
      q.outcome w.snapshots w.service.directory := Stream.outcome_stream q
  refine ⟨q.outcome w.snapshots w.service.directory, fetch_eq_outcome hready rfl (by omega) q,
    fun n => hahead ▸ ask_of_ready hsound hready n, fun answers r w' hread => ?_⟩
  obtain ⟨o, hcourse⟩ := exists_course hsound hahead hread
  refine ⟨⟨o, hcourse.begins, hcourse.complete, hcourse.answers_eq, ?_, ?_, fun hover later r' =>
    eq_none_of_polled (hcourse.spent hover)⟩, fun w'' svc hw'' hsvc hspared => ?_⟩
  · intro herror hsorts
    obtain rfl | hnil := hcourse.awaitsSort hsorts.awaitsSort
    · exact hsorts.entries_eq_nil herror
    · exact hnil
  · exact fun herror => hcourse.kept.resolve_right fun h => herror h.2.1
  obtain ⟨hready', hroom', hentries⟩ := ready_of_read hready hroom hread hw'' hsvc hspared
  have hsnapshots : w''.snapshots = w'.snapshots := by
    obtain rfl | rfl := hw''
    · rfl
    · rfl
  rw [fetch_eq_outcome (w := ⟨svc, w''.snapshots⟩) hready' hentries hroom' q, hsnapshots]
  obtain hsame | ⟨rfl, hnone, id, seen, hrecorder, hkept⟩ := hcourse.kept
  · rw [hsame]
  -- What was kept is all of it, so the query comes to the same as before.
  obtain hunrecorded | ⟨tag, htag, -, hget, hrecorder'⟩ := q.recorder?_cases w.snapshots
  · cases hunrecorded.symm.trans hrecorder
  cases hrecorder'.symm.trans hrecorder
  have hcached : q.cached? w'.snapshots =
      some (q.outcome w.snapshots w.service.directory).entries := by
    rw [cached?, htag, hkept]
    simp [Snapshots.get?_keep, hget]
  rw [outcome_of_cached hcached, ← hnone]

/-- The second page of three fails.  One entry was answered before, nothing is kept, and fetching
later gives what it would have given at first. -/
theorem read_prefix_second_page :
    let w : Workspace := ⟨⟨Directory.empty.addAll
        [.named "cn=Ann,dc=org", .named "cn=Bob,dc=org", .named "cn=Cyd,dc=org"],
      .ofConfig { PoolConfig.ofPrimary "localhost" with pageSize := 1 }⟩, .empty⟩
    let q : Query :=
      .staged ⟨1, .default⟩ .distinct (.search ⟨0, .default⟩ ⟨"dc=org", .subtree, none⟩)
    let first := (q.results w.snapshots).next w
    let failing : Service := { first.2.2.service with
      directory := first.2.2.service.directory.failNextSearch (.noSuchObject "dc=org") }
    let second := first.2.1.next ⟨failing, first.2.2.snapshots⟩
    let third := second.2.1.next second.2.2
    first.1.map (fun answer => answer.toOption.map Entry.dn) = some (some "cn=Ann,dc=org") ∧
      second.1.map Except.toOption = some none ∧ third.1.isNone = true ∧
      ∃ ahead o : Outcome, (q.fetch w).1 = ahead.result ∧ o.entries <+: ahead.entries ∧
        [first.1, second.1, third.1] = (List.range 3).map o.answer ∧
        third.2.2.snapshots = w.snapshots ∧ (q.fetch third.2.2).1 = ahead.result := by
  intro w q first failing second third
  have hready : w.service.Ready :=
    ⟨rfl, nofun, ⟨"localhost", by decide +kernel, rfl⟩, rfl, by decide +kernel, by decide +kernel⟩
  have hroom : w.service.directory.searchesRun + 2 < Text.maxSize := by decide +kernel
  have hpending : first.2.1.stream.pending = 0 := by decide +kernel
  have hanswer : first.1.map (fun answer => answer.toOption.map Entry.dn) =
      some (some "cn=Ann,dc=org") := by decide +kernel
  have herror : second.1.map Except.toOption = some none := by decide +kernel
  have hnone : third.1.isNone = true := by decide +kernel
  have hspared : w.service.directory.Spared third.2.2.service.directory :=
    ⟨by decide +kernel, by decide +kernel, by decide +kernel⟩
  have hfirst : (q.results w.snapshots).next w = first := rfl
  have hdisturbed : first.2.2.service.Disturbed failing := disturbed_failNextSearch _ _
  have hsecond : first.2.1.next ⟨failing, first.2.2.snapshots⟩ = second := rfl
  have hthird : second.2.1.next second.2.2 = third := rfl
  clear_value third second failing first
  have hread : (q.results w.snapshots).Read w [first.1, second.1, third.1] third.2.1 third.2.2 :=
    .next hfirst (.disturb hdisturbed (fun h => absurd hpending h)
      (.next hsecond (.next hthird (.nil _ _))))
  obtain ⟨ahead, hfetch, -, hreads⟩ := read_prefix q hready hroom
  obtain ⟨⟨o, hbegins, -, hanswers, -, hkept, -⟩, hlater⟩ := hreads _ _ _ hread
  have hfails : o.error ≠ none := by
    intro hnone
    have hanswer : second.1 = o.answer 1 :=
      Option.some.inj (congrArg (fun answers => answers[1]?) hanswers)
    rw [hanswer, Outcome.answer, hnone, Option.toList_none, List.map_nil, List.append_nil,
      List.getElem?_map, Option.map_map] at herror
    cases hentry : o.entries[1]? with
    | none => rw [hentry] at herror; cases herror
    | some e => rw [hentry] at herror; cases herror
  exact ⟨hanswer, herror, hnone, ahead, o, hfetch, hbegins, hanswers, hkept hfails,
    hlater _ third.2.2.service (.inl rfl) ⟨rfl, rfl, rfl⟩ hspared⟩

end Query

end DirectoryQuery
