import DirectoryQuery.Proofs.Query.Step

/-!
# Runs of results

Whatever is done with the results of a query, it takes them step by step.  `Results.Runs` relates
the results and the workspace before some steps to those after them, and says which error the steps
ended with.  An evaluation takes the kept result of its query, or it is a run with a close behind it
(`Query.Evaluates`); `Query.evaluates_fetch` and the lemmas after it say so of every evaluation.

What is true of an evaluation because every step and every close keep it is then an induction on
runs, which is the same for all evaluations.
-/

namespace DirectoryQuery

/-- The error that an evaluation ended with. -/
def QueryError.of? {α : Type} : Except QueryError α → Option QueryError
  | .error e => some e
  | .ok _ => none

/-- The error that an event is. -/
def StreamEvent.error? : StreamEvent → Option QueryError
  | .fault e => some e
  | _ => none

namespace StreamEvent

variable {below event : StreamEvent}

lemma PassesAs.error?_eq (h : below.PassesAs event) : below.error? = event.error? := by
  cases h <;> rfl

end StreamEvent

namespace Results

open QueryError

/-- Steps one after the other.  They end anywhere, or with the first error. -/
inductive Runs : Results → Workspace → Option QueryError → Results → Workspace → Prop where
  | refl (r : Results) (w : Workspace) : Runs r w none r w
  | fault {r r' : Results} {w w' : Workspace} {e : QueryError}
    (h : r.step w = (.fault e, r', w')) : Runs r w (some e) r' w'
  | step {r r₁ r' : Results} {w w₁ w' : Workspace} {event : StreamEvent} {error : Option QueryError}
    (h : r.step w = (event, r₁, w₁)) (hevent : event.error? = none) (k : Runs r₁ w₁ error r' w') :
    Runs r w error r' w'

variable {r r' : Results} {w w' : Workspace}

lemma runs_nextWithin {steps : Nat} {outcome : Option (Except QueryError Entry)}
    (h : nextWithin steps r w = (outcome, r', w')) : r.Runs w (outcome.bind of?) r' w' := by
  induction steps generalizing r w with
  | zero =>
    cases h
    exact .refl _ _
  | succ steps ih =>
    unfold nextWithin at h
    rcases hstep : r.step w with ⟨event, r₁, w₁⟩
    rw [hstep] at h
    cases event with
    | item e => cases h; exact .step hstep rfl (.refl _ _)
    | fault e => cases h; exact .fault hstep
    | finish => cases h; exact .step hstep rfl (.refl _ _)
    | pause => exact .step hstep rfl (ih h)

/-- Asking for the next entry is a run. -/
lemma runs_next {outcome : Option (Except QueryError Entry)} (h : r.next w = (outcome, r', w')) :
    r.Runs w (outcome.bind of?) r' w' :=
  runs_nextWithin h

/-- A run with a close behind it. -/
def RunsOut (r : Results) (w : Workspace) (error : Option QueryError) (w' : Workspace) : Prop :=
  ∃ r' w₁, r.Runs w error r' w₁ ∧ w' = r'.close w₁

section Fold

variable {β : Type} (f : β → Entry → β)

lemma runsOut_foldWithin (steps : Nat) (acc : β) (r : Results) (w : Workspace) :
    r.RunsOut w (foldWithin f steps acc r w).2.1 (foldWithin f steps acc r w).2.2 := by
  induction steps generalizing acc r w with
  | zero => exact ⟨r, w, .refl _ _, rfl⟩
  | succ steps ih =>
    unfold foldWithin
    rcases hstep : r.step w with ⟨event, r₁, w₁⟩
    cases event with
    | item e =>
      obtain ⟨r', w', hruns, hclose⟩ := ih (f acc e) r₁ w₁
      exact ⟨r', w', .step hstep rfl hruns, hclose⟩
    | fault e => exact ⟨r₁, w₁, .fault hstep, rfl⟩
    | finish => exact ⟨r₁, w₁, .step hstep rfl (.refl _ _), rfl⟩
    | pause =>
      obtain ⟨r', w', hruns, hclose⟩ := ih acc r₁ w₁
      exact ⟨r', w', .step hstep rfl hruns, hclose⟩

lemma runsOut_fold (init : β) (r : Results) (w : Workspace) :
    r.RunsOut w (r.fold f init w).2.1 (r.fold f init w).2.2 :=
  runsOut_foldWithin f _ init r w

end Fold

lemma runsOut_toList (r : Results) (w : Workspace) :
    r.RunsOut w (of? (r.toList w).1) (r.toList w).2 := by
  have h := runsOut_fold (fun acc e => e :: acc) [] r w
  unfold toList
  rcases hfold : r.fold (fun acc e => e :: acc) [] w with ⟨acc, e | e, w'⟩
  · rw [hfold] at h
    exact h
  · rw [hfold] at h
    exact h

lemma runsOut_first (r : Results) (w : Workspace) :
    r.RunsOut w (of? (r.first w).1) (r.first w).2 := by
  unfold first
  rcases hnext : r.next w with ⟨e | e | e, r', w'⟩
  · exact ⟨r', w', runs_next hnext, rfl⟩
  · exact ⟨r', w', runs_next hnext, rfl⟩
  · exact ⟨r', w', runs_next hnext, rfl⟩

end Results

namespace Query

open QueryError

/-- An evaluation of a query, the error that it ends with and the workspace that it leaves.  It
takes the kept result, or it runs the query's stream out, perhaps with a stage on top. -/
inductive Evaluates (q : Query) (w : Workspace) : Option QueryError → Workspace → Prop where
  | kept : Evaluates q w none w
  | runs {r : Results} {error : Option QueryError} {w' : Workspace}
    (hstream : r.stream = q.stream w.snapshots ∨ Stream.IsStage (q.stream w.snapshots) r.stream)
    (h : r.RunsOut w error w') : Evaluates q w error w'

variable (q : Query) (w : Workspace)

lemma evaluates_fetch : q.Evaluates w (of? (q.fetch w).1) (q.fetch w).2 := by
  unfold fetch
  split
  · exact .kept
  · exact .runs (.inl rfl) (Results.runsOut_toList (q.results w.snapshots) w)

lemma evaluates_one : q.Evaluates w (of? (q.one w).1) (q.one w).2 :=
  .runs (.inl rfl) (Results.runsOut_first (q.results w.snapshots) w)

lemma evaluates_get (index : Nat) : q.Evaluates w (of? (q.get index w).1) (q.get index w).2 := by
  unfold get
  split
  · exact .kept
  · exact .runs (.inr (.sliced (.single index) 0)) (Results.runsOut_first ⟨_, none⟩ w)

lemma evaluates_count : q.Evaluates w (of? (q.count w).1) (q.count w).2 := by
  unfold count
  split
  · exact .kept
  · have h := Results.runsOut_fold (fun n _ => n + 1) 0 (q.results w.snapshots) w
    rcases hfold : (q.results w.snapshots).fold (fun n _ => n + 1) 0 w with ⟨n, e | e, w'⟩
    · rw [hfold] at h
      exact .runs (.inl rfl) h
    · rw [hfold] at h
      exact .runs (.inl rfl) h

lemma evaluates_aggregate (as : Aggregations) :
    q.Evaluates w (q.aggregate as w).2.1 (q.aggregate as w).2.2 :=
  .runs (.inl rfl) (Results.runsOut_fold Aggregations.accumulate as.reset (q.results w.snapshots) w)

end Query

end DirectoryQuery
