import DirectoryQuery.Proofs.Directory.Pages
import DirectoryQuery.Proofs.Query.Search

/-!
# Requests for the next entry

A request for the next entry takes one step of the stream, or more when a step brings about nothing
yet.  `Results.Turns` says what such a request comes to: its answer, the pages of the search that
were asked for on the way (`Results.pages`), and what is left afterwards.
-/

namespace DirectoryQuery

namespace Stream

/-- A search that begins without an error has a filter that the directory can read, and an open
session. -/
lemma exists_of_start {source : Source} {svc svc' : Service} {event : StreamEvent} {s' : Stream}
    (h : start source svc = (event, s', svc')) (hevent : ∀ e, event ≠ .fault e)
    (hsvc : svc.directory.Healthy) :
    ∃ text filter lease svc₁, source.filterText = .ok text ∧
      SearchFilter.parse text = .ok filter ∧ svc.checkOut = (.ok lease, svc₁) ∧
      lease.session.isOpen = true ∧ svc₁.directory.Healthy := by
  unfold start at h
  cases htext : source.filterText with
  | error e =>
    have hrequest : source.request svc.pool.config.pageSize = .error e := by
      rw [Source.request, htext]
      rfl
    rw [hrequest] at h
    cases h
    exact absurd rfl (hevent _)
  | ok text =>
    rw [Source.request_of_filterText htext] at h
    rcases hout : svc.checkOut with ⟨e | lease, svc₁⟩
    · simp only [hout] at h
      cases h
      exact absurd rfl (hevent _)
    have hhealthy := (Service.unasked_checkOut hout).healthy hsvc
    -- Neither a closed session nor an unreadable filter makes an error that a search would accept.
    have herror : ∀ (e : DirectoryError) (session : Session) (d : Directory),
        e.isAcceptable = false → lease.session.page ⟨source.base, text, source.scope,
          svc.pool.config.pageSize⟩ none svc₁.directory ≠ (.error e, session, d) := by
      intro e session d he hpage
      simp only [hout, hpage, he, Bool.false_eq_true, if_false] at h
      cases h
      exact hevent _ rfl
    rw [Session.page] at herror
    by_cases hopen : lease.session.isOpen = true
    · rw [if_pos hopen] at herror
      cases hfilter : SearchFilter.parse text with
      | error e =>
        let request : SearchRequest :=
          ⟨source.base, text, source.scope, svc.pool.config.pageSize⟩
        have hread : SearchFilter.parse request.filter = .error e := hfilter
        have hpage : lease.session.firstPage request svc₁.directory =
            (.error (.protocol e.message), lease.session,
              { svc₁.directory with searches := svc₁.directory.searches ++ [request] }) := by
          rw [Session.firstPage, Directory.search_of_unreadable hhealthy hread]
        exact absurd hpage (herror _ _ _ rfl)
      | ok filter => exact ⟨text, filter, lease, svc₁, rfl, hfilter, rfl, hopen, hhealthy⟩
    · rw [if_neg hopen] at herror
      exact absurd rfl (herror Session.closedError _ _ rfl)

/-- Whether the next step of a stream that reads a search asks the directory for a page. -/
def asks : Stream → Bool
  | .starting _ => true
  | .reading _ _ [] (some _) => true
  | _ => false

/-- What is left of the page that a stream reads. -/
def buffer : Stream → List Entry
  | .reading _ _ buffer _ => buffer
  | _ => []

/-- The page that a step asked for, if it asked for one. -/
def asked (before after : Stream) : List (List Entry) :=
  if before.asks then [after.buffer] else []

end Stream

namespace Results

variable {r : Results} {w : Workspace} {s s' : Stream} {svc svc' : Service}
  {event : StreamEvent}

/-- The pages that are asked for on the way to the next entry, for a number of steps. -/
def pagesWithin : Nat → Results → Workspace → List (List Entry)
  | 0, _, _ => []
  | steps + 1, r, w =>
    match r.step w with
    | (.pause, r', w') => r.stream.asked r'.stream ++ pagesWithin steps r' w'
    | (_, r', _) => r.stream.asked r'.stream

/-- The pages that are asked for on the way to the next entry. -/
def pages (r : Results) (w : Workspace) : List (List Entry) :=
  pagesWithin (r.budget w) r w

lemma eq_of_answers {answer answer' : Option (Except QueryError Entry)}
    (h : Answers event answer) (h' : Answers event answer') : answer = answer' := by
  cases event with
  | item e => exact Eq.trans h h'.symm
  | fault e => exact Eq.trans h h'.symm
  | pause => exact h.elim
  | finish => exact Eq.trans h h'.symm

/-- A step that brings about something is answered at once. -/
lemma within_of_step {r' : Results} {w' : Workspace} (h : r.step w = (event, r', w'))
    (hevent : event ≠ .pause) (steps : Nat) :
    ∃ answer, Answers event answer ∧ nextWithin (steps + 1) r w = (answer, r', w') ∧
      pagesWithin (steps + 1) r w = r.stream.asked r'.stream := by
  unfold nextWithin pagesWithin
  rw [h]
  cases event with
  | item e => exact ⟨_, rfl, rfl, rfl⟩
  | fault e => exact ⟨_, rfl, rfl, rfl⟩
  | finish => exact ⟨_, rfl, rfl, rfl⟩
  | pause => exact absurd rfl hevent

lemma within_of_pause {r' : Results} {w' : Workspace} (h : r.step w = (.pause, r', w'))
    (steps : Nat) :
    nextWithin (steps + 1) r w = nextWithin steps r' w' ∧
      pagesWithin (steps + 1) r w = r.stream.asked r'.stream ++ pagesWithin steps r' w' := by
  rw [nextWithin, pagesWithin, h]
  exact ⟨rfl, rfl⟩

/-- What a request for the next entry comes to: its answer, the pages that it takes, and the stream
and the service after it. -/
def Turns (r : Results) (w : Workspace) (event : StreamEvent) (pages : List (List Entry))
    (s' : Stream) (svc' : Service) : Prop :=
  ∃ answer r' w', Answers event answer ∧ r.next w = (answer, r', w') ∧ r.pages w = pages ∧
    r'.stream = s' ∧ w'.service = svc'

lemma turns_of_step (h : r.stream.step w.snapshots w.service = (event, s', svc'))
    (hevent : event ≠ .pause) : r.Turns w event (r.stream.asked s') s' svc' := by
  obtain ⟨recorder, snapshots, hstep, -⟩ := step_of_stream h r.recorder
  obtain ⟨steps, hsteps⟩ := exists_eq_succ (Nat.le_refl (r.budget w))
  obtain ⟨answer, hanswer, hnext, hpages⟩ := within_of_step (r := r) (w := w) hstep hevent steps
  refine ⟨answer, ⟨s', recorder⟩, ⟨svc', snapshots⟩, hanswer, ?_, ?_, rfl, rfl⟩
  · rw [next, hsteps, hnext]
  · rw [pages, hsteps, hpages]

/-- A step that brings about nothing yet is followed by another. -/
lemma turns_of_pause (h : r.stream.step w.snapshots w.service = (.pause, s, svc))
    (h' : s.step w.snapshots svc = (event, s', svc')) (hevent : event ≠ .pause) :
    r.Turns w event (r.stream.asked s ++ s.asked s') s' svc' := by
  obtain ⟨recorder, snapshots, hstep, hkept⟩ := step_of_stream h r.recorder
  obtain rfl := hkept (by simp)
  obtain ⟨recorder', snapshots', hstep', -⟩ := step_of_stream h' recorder
  obtain ⟨steps, hsteps⟩ := exists_eq_succ (Nat.le_refl (r.budget w))
  have hless : budget ⟨s, recorder⟩ ⟨svc, w.snapshots⟩ < r.budget w :=
    budget_step_pause (r := r) (w := w) hstep
  have hmore : budget ⟨s, recorder⟩ ⟨svc, w.snapshots⟩ ≤ steps := by omega
  obtain ⟨steps', rfl⟩ := exists_eq_succ hmore
  obtain ⟨hnext, hpages⟩ := within_of_pause (r := r) (w := w) hstep (steps' + 1)
  obtain ⟨answer, hanswer, hnext', hpages'⟩ := within_of_step hstep' hevent steps'
  refine ⟨answer, ⟨s', recorder'⟩, ⟨svc', snapshots'⟩, hanswer, ?_, ?_, rfl, rfl⟩
  · rw [next, hsteps, hnext, hnext']
  · rw [pages, hsteps, hpages, hpages']

end Results

end DirectoryQuery
