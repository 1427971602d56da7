import DirectoryQuery.Proofs.Pool.Custody
import DirectoryQuery.Proofs.Query.Step

/-!
# Streams come to an end

Every step that delivers an entry or nothing yet takes something from the budget of its stream
(`Stream.budget_step`), since a page with a cookie is never the end of its search and never empty.
An evaluation that makes as many steps as the budget allows therefore reaches an entry, an error or
the end (`Results.next_pauses`).

A budget speaks of the number of entries in the directory, which no step changes.
-/

namespace DirectoryQuery

/-! ## Entries stay -/

namespace Service

variable {svc svc' : Service}

lemma entries_closeSession (s : Session) :
    (svc.closeSession s).directory.entries = svc.directory.entries := by
  rw [closeSession, Session.close]
  split <;> rfl

lemma entries_giveBack (l : Lease) :
    (svc.giveBack l).directory.entries = svc.directory.entries := by
  unfold giveBack
  cases l.disposition with
  | evict => exact entries_closeSession l.session
  | release =>
    rw [takeBack, release]
    split
    · rfl
    · exact entries_closeSession l.session

lemma entries_checkOut {result : Except DirectoryError Lease}
    (h : svc.checkOut = (result, svc')) : svc'.directory.entries = svc.directory.entries := by
  rw [checkOut, acquire, acquireFrom] at h
  cases hidle : svc.pool.idle with
  | cons s rest =>
    simp only [hidle] at h
    cases h
    rfl
  | nil =>
    rcases hbind : svc.directory.bindFirst svc.pool.config.bindName svc.pool.config.password
      svc.pool.config.candidates.length svc.pool.config.candidates with ⟨e | s, d⟩
    · simp only [hidle, hbind] at h
      cases h
      exact (Directory.bindFirst_error hbind).1.entries
    · simp only [hidle, hbind] at h
      cases h
      exact (Directory.bindFirst_ok hbind).entries

end Service

namespace Stream

variable {snapshots : Snapshots} {svc svc' : Service} {s s' inner : Stream} {event : StreamEvent}

lemma entries_abandon (lease : Lease) (cookie : Option Cookie) (svc : Service) :
    (abandon lease cookie svc).directory.entries = svc.directory.entries := by
  cases cookie with
  | none => exact Service.entries_giveBack lease
  | some cookie =>
    rw [abandon]
    rcases h : lease.session.abandon cookie svc.directory with ⟨e | u, session, d⟩
    · exact (Service.entries_giveBack _).trans (Session.abandon_changes h).2.1.entries
    · exact (Service.entries_giveBack _).trans (Session.abandon_changes h).2.1.entries

lemma close_stage (hs : IsStage inner s) (svc : Service) : s.close svc = inner.close svc := by
  cases hs <;> rfl

lemma entries_close (s : Stream) (svc : Service) :
    (s.close svc).directory.entries = svc.directory.entries := by
  induction s using Stream.induction with
  | ended => rfl
  | replay entries => rfl
  | starting source => rfl
  | reading lease request buffer cookie => exact entries_abandon lease cookie svc
  | unsorted keys below => rfl
  | sorting keys collected inner ih => exact ih
  | stage inner s hs ih => rw [close_stage hs, ih]

lemma entries_start {source : Source} (h : start source svc = (event, s', svc')) :
    svc'.directory.entries = svc.directory.entries := by
  obtain ⟨e, -, -, hsvc⟩ | ⟨request, lease, svc₁, result, session, d, -, hout, hpage, hcase⟩ :=
    start_cases h
  · obtain rfl | ⟨err, hout⟩ := hsvc
    · rfl
    · exact Service.entries_checkOut hout
  · have hentries : d.entries = svc.directory.entries :=
      (Session.page_changes hpage).2.entries.trans (Service.entries_checkOut hout)
    obtain ⟨page, -, -, -, rfl⟩ | ⟨e, -, -, -, rfl⟩ := hcase
    · exact hentries
    · exact (Service.entries_giveBack _).trans hentries

/-- A step does not change the entries of the directory. -/
lemma entries_step (h : s.step snapshots svc = (event, s', svc')) :
    svc'.directory.entries = svc.directory.entries := by
  induction s using Stream.induction generalizing event s' svc' with
  | ended =>
    cases h
    rfl
  | replay entries => cases entries <;> cases h <;> rfl
  | starting source => exact entries_start h
  | reading lease request buffer cookie =>
    match buffer, cookie with
    | e :: rest, cookie =>
      cases h
      rfl
    | [], none =>
      cases h
      exact Service.entries_giveBack lease
    | [], some cookie =>
      obtain ⟨result, session, d, hpage, hcase⟩ := turnPage_cases h
      have hentries := (Session.page_changes hpage).2.entries
      obtain ⟨page, -, -, -, rfl⟩ | ⟨e, -, -, -, rfl⟩ := hcase
      · exact hentries
      · exact (Service.entries_giveBack _).trans hentries
  | unsorted keys below =>
    cases h
    rfl
  | sorting keys collected inner ih =>
    obtain ⟨below, inner', svc₁, hbelow, ⟨-, -, -, rfl⟩ | ⟨e, -, -, -, rfl⟩ | ⟨-, -, -, rfl⟩⟩ :=
      step_sorting h
    · exact ih hbelow
    · exact (entries_close inner' svc₁).trans (ih hbelow)
    · exact (entries_close inner' svc₁).trans (ih hbelow)
  | stage inner s hs ih =>
    obtain ⟨below, inner', hbelow, -, -⟩ | ⟨-, -, rfl⟩ | ⟨inner', svc₁, hbelow, -, -, rfl⟩ :=
      step_stage hs h
    · exact ih hbelow
    · exact entries_close inner svc
    · exact (entries_close inner' svc₁).trans (ih hbelow)

/-! ## The budget shrinks -/

variable {size : Nat}

lemma budget_stage (hs : IsStage inner s) :
    s.budget snapshots size = inner.budget snapshots size := by
  cases hs <;> rfl

lemma budget_pos (s : Stream) : 0 < s.budget snapshots size := by
  induction s using Stream.induction with
  | ended => exact Nat.one_pos
  | replay entries => exact Nat.succ_pos _
  | starting source => exact Nat.succ_pos _
  | reading lease request buffer cookie => cases cookie <;> exact Nat.succ_pos _
  | unsorted keys below => exact Nat.succ_pos _
  | sorting keys collected inner ih => exact Nat.succ_pos _
  | stage inner s hs ih => rwa [budget_stage hs]

/-- The budget of a query is that of its stream. -/
lemma budget_stream (q : Query) :
    (q.stream snapshots).budget snapshots size = q.budget snapshots size := by
  induction q with
  | empty => rfl
  | search tag source =>
    rw [Query.stream, Query.budget]
    cases snapshots.get? tag.id <;> rfl
  | staged tag stage below ih =>
    cases hkept : snapshots.get? tag.id with
    | some entries =>
      simp only [Query.stream, Query.budget, hkept]
      rfl
    | none =>
      cases stage with
      | ordered keys =>
        simp only [Query.stream, Query.budget, hkept]
        rfl
      | _ =>
        simp only [Query.stream, Query.budget, hkept]
        exact ih

/-- What a page leaves to read is less than twice what was left before it. -/
lemma budget_deliver {session session' : Session} {lease : Lease} {request : SearchRequest}
    {search position : Nat} {results : List Entry} {page : Page}
    (hresults : session.results? search = some results)
    (h : (page, session') = session.deliver request.pageSize search results position) :
    (reading { lease with session := session' } request page.entries page.cookie).budget snapshots
        size ≤ 2 * (results.length - position) + 1 := by
  obtain hlast | ⟨next, hposition, hnext, hmore⟩ :=
    session.deliver_cases request.pageSize search results position
  · rw [hlast] at h
    cases h
    rw [budget, List.length_drop]
    omega
  · rw [hmore] at h
    cases h
    have hbehind : entriesBehind session (.encode search next) ≤ results.length - next := by
      rw [entriesBehind, Cookie.decode?_encode]
      split
      · rename_i heq
        split at heq
        · cases heq
          exact Nat.le_of_eq (by rw [hresults, Option.getD_some])
        · cases heq
      · exact Nat.zero_le _
    rw [budget, List.length_drop, List.length_take]
    show _ + 2 * entriesBehind session (.encode search next) + 2 ≤ _
    omega

lemma budget_start {source : Source} (h : start source svc = (event, s', svc'))
    (hsize : size = svc.directory.entries.length) :
    s'.budget snapshots size < 2 * size + 3 := by
  have hended : ended.budget snapshots size < 2 * size + 3 := by
    unfold budget
    omega
  obtain ⟨e, -, rfl, -⟩ | ⟨request, lease, svc₁, result, session, d, -, hout, hpage, hcase⟩ :=
    start_cases h
  · exact hended
  obtain ⟨page, rfl, -, rfl, -⟩ | ⟨e, -, -, rfl, -⟩ := hcase
  · obtain ⟨filter, search, -, -, -, hdeliver⟩ := Session.page_none_ok hpage
    have hbound : budget snapshots size
        (.reading { lease with session } request page.entries page.cookie) ≤ _ :=
      budget_deliver (Session.results?_remember ..) hdeliver
    have hfound : (svc₁.directory.find request filter).length ≤ size := by
      rw [hsize, ← Service.entries_checkOut hout]
      exact List.length_filter_le _ _
    omega
  · exact hended

lemma budget_turnPage {lease : Lease} {request : SearchRequest} {cookie : Cookie}
    (h : turnPage lease request cookie svc = (event, s', svc')) (hevent : event.isStop = false) :
    s'.budget snapshots size <
      (reading lease request [] (some cookie)).budget snapshots size := by
  obtain ⟨result, session, d, hpage, hcase⟩ := turnPage_cases h
  obtain ⟨page, rfl, -, rfl, -⟩ | ⟨e, -, rfl, -, -⟩ := hcase
  · obtain ⟨search, position, results, hdecode, hresults, hdeliver⟩ := Session.page_some_ok hpage
    have hbound : budget snapshots size
        (.reading { lease with session } request page.entries page.cookie) ≤ _ :=
      budget_deliver hresults hdeliver
    have hbehind : entriesBehind lease.session cookie = results.length - position := by
      rw [entriesBehind, hdecode]
      simp only [hresults, Option.getD_some]
    rw [budget, hbehind, List.length_nil]
    omega
  · cases hevent

/-- A step that does not end a stream takes something from its budget. -/
theorem budget_step (h : s.step snapshots svc = (event, s', svc'))
    (hsize : size = svc.directory.entries.length) (hevent : event.isStop = false) :
    s'.budget snapshots size < s.budget snapshots size := by
  induction s using Stream.induction generalizing event s' svc' with
  | ended =>
    cases h
    cases hevent
  | replay entries =>
    cases entries with
    | nil =>
      cases h
      cases hevent
    | cons e rest =>
      cases h
      exact Nat.lt_succ_self _
  | starting source => exact budget_start h hsize
  | reading lease request buffer cookie =>
    match buffer, cookie with
    | e :: rest, none =>
      cases h
      exact Nat.lt_succ_self _
    | e :: rest, some cookie =>
      cases h
      rw [budget, budget, List.length_cons]
      omega
    | [], none =>
      cases h
      cases hevent
    | [], some cookie => exact budget_turnPage h hevent
  | unsorted keys below =>
    cases h
    rw [budget, budget, budget_stream, List.length_nil]
    omega
  | sorting keys collected inner ih =>
    rcases hbelow : inner.step snapshots svc with ⟨below, inner', svc₁⟩
    rw [step, hbelow] at h
    cases below with
    | item e =>
      cases h
      have hstep := ih hbelow rfl
      rw [budget, budget, List.length_cons]
      omega
    | pause =>
      cases h
      have hstep := ih hbelow rfl
      rw [budget, budget]
      omega
    | fault e =>
      cases h
      cases hevent
    | finish =>
      cases h
      have hpos : 0 < inner.budget snapshots size := budget_pos inner
      rw [budget, budget, SortKey.sort, List.length_mergeSort, List.length_reverse]
      omega
  | stage inner s hs ih =>
    obtain ⟨below, inner', hbelow, hpass, hs'⟩ | ⟨rfl, -, -⟩ | ⟨inner', svc₁, -, rfl, -, -⟩ :=
      step_stage hs h
    · rw [budget_stage hs, budget_stage hs']
      exact ih hbelow (hpass.isStop_eq.trans hevent)
    · cases hevent
    · cases hevent

end Stream

namespace Results

variable {r r' : Results} {w w' : Workspace}

/-- What results answer when a step brings about an event. -/
def Answers (event : StreamEvent) (outcome : Option (Except QueryError Entry)) : Prop :=
  match event with
  | .item e => outcome = some (.ok e)
  | .fault e => outcome = some (.error e)
  | .pause => False
  | .finish => outcome = none

/-- A step of results is a step of their stream. -/
lemma stream_step {event : StreamEvent} (h : r.step w = (event, r', w')) :
    r.stream.step w.snapshots w.service = (event, r'.stream, w'.service) := by
  rcases hstep : r.stream.step w.snapshots w.service with ⟨event', s, svc⟩
  rw [step, hstep] at h
  cases h
  rfl

/-- Nothing is kept before the end. -/
lemma snapshots_of_step {event : StreamEvent} (h : r.step w = (event, r', w'))
    (hevent : event ≠ .finish) : w'.snapshots = w.snapshots := by
  rcases hstep : r.stream.step w.snapshots w.service with ⟨event', s, svc⟩
  rw [step, hstep] at h
  cases h
  cases r.recorder with
  | none => rfl
  | some recorder =>
    cases event with
    | item e => rfl
    | fault e => rfl
    | pause => rfl
    | finish => exact absurd rfl hevent

lemma budget_step_pause (h : r.step w = (.pause, r', w')) : r'.budget w' < r.budget w := by
  have hstream := stream_step h
  rw [budget, budget, snapshots_of_step h (by simp), Stream.entries_step hstream]
  exact Stream.budget_step hstream rfl rfl

/-- Steps that bring about nothing yet. -/
inductive Pauses : Results → Workspace → Results → Workspace → Prop where
  | refl (r : Results) (w : Workspace) : Pauses r w r w
  | step {r r₁ r' : Results} {w w₁ w' : Workspace} (h : r.step w = (.pause, r₁, w₁))
    (k : Pauses r₁ w₁ r' w') : Pauses r w r' w'

lemma nextWithin_pauses {steps : Nat} {outcome : Option (Except QueryError Entry)}
    (hsteps : r.budget w ≤ steps) (h : nextWithin steps r w = (outcome, r', w')) :
    ∃ (r₁ : Results) (w₁ : Workspace) (event : StreamEvent), r.Pauses w r₁ w₁ ∧
      r₁.step w₁ = (event, r', w') ∧ Answers event outcome := by
  induction steps generalizing r w with
  | zero => exact absurd hsteps (Nat.not_le_of_lt (Stream.budget_pos r.stream))
  | succ steps ih =>
    unfold nextWithin at h
    rcases hstep : r.step w with ⟨event, r₁, w₁⟩
    rw [hstep] at h
    cases event with
    | item e =>
      cases h
      exact ⟨r, w, .item e, .refl r w, hstep, rfl⟩
    | fault e =>
      cases h
      exact ⟨r, w, .fault e, .refl r w, hstep, rfl⟩
    | finish =>
      cases h
      exact ⟨r, w, .finish, .refl r w, hstep, rfl⟩
    | pause =>
      have hless := budget_step_pause hstep
      obtain ⟨r₂, w₂, event, hpauses, hlast, hanswers⟩ := ih (by omega) h
      exact ⟨r₂, w₂, event, .step hstep hpauses, hlast, hanswers⟩

/-- Asking for the next entry goes on until there is an entry, an error or the end. -/
theorem next_pauses {outcome : Option (Except QueryError Entry)}
    (h : r.next w = (outcome, r', w')) :
    ∃ (r₁ : Results) (w₁ : Workspace) (event : StreamEvent), r.Pauses w r₁ w₁ ∧
      r₁.step w₁ = (event, r', w') ∧ Answers event outcome :=
  nextWithin_pauses (Nat.le_refl _) h

end Results

end DirectoryQuery
