import DirectoryQuery.Proofs.Pool.Custody
import DirectoryQuery.Proofs.Query.Budget
import DirectoryQuery.Proofs.Query.Runs

/-!
# What a stream has at stake

A stream holds at most one session and starts at most one search, whatever stages it has
(`Stream.length_sessions_add_pending_le`).  When it has come to its end or failed it is through for
good, and nothing is left at stake (`Stream.isSpent_of_isStop`).

`Stake.Covers` gathers what there is to show of a relation so that it holds of whatever a stream
does with a service: of each step (`Stream.covers_step`), of closing (`Stream.covers_close`), and so
of the evaluations of a query, which are runs of steps with a close behind them
(`Query.Evaluates.covers`).  Keeping the books in order is such a relation (`Stake.covers_keeps`),
so an evaluation leaves nothing behind at all.
-/

namespace DirectoryQuery

/-- The relation, between what is at stake before and after, holds of all dealings that a stream can
have with a service. -/
structure Stake.Covers (R : Stake → Service → Stake → Service → Prop) : Prop where
  refl : ∀ a svc, R a svc a svc
  trans : ∀ {a b c svc svc' svc''}, R a svc b svc' → R b svc' c svc'' → R a svc c svc''
  fewer : ∀ {svc : Service} {m n : Nat}, n ≤ m → R ⟨[], m, m⟩ svc ⟨[], n, n⟩ svc
  checkOut : ∀ {svc svc' l}, svc.checkOut = (.ok l, svc') →
    R ⟨[], 1, 1⟩ svc ⟨[l.session], 0, 1⟩ svc'
  checkOut_error : ∀ {svc svc' e}, svc.checkOut = (.error e, svc') →
    R ⟨[], 1, 1⟩ svc ⟨[], 1, 1⟩ svc'
  giveBack : ∀ (svc : Service) (l : Lease), R ⟨[l.session], 0, 0⟩ svc .settled (svc.giveBack l)
  firstPage : ∀ {svc : Service} {s s' : Session} {request result d},
    s.page request none svc.directory = (result, s', d) →
      R ⟨[s], 0, 1⟩ svc ⟨[s'], 0, 0⟩ { svc with directory := d }
  nextPage : ∀ {svc : Service} {s s' : Session} {request cookie result d},
    s.page request (some cookie) svc.directory = (result, s', d) →
      R ⟨[s], 0, 0⟩ svc ⟨[s'], 0, 0⟩ { svc with directory := d }
  abandon : ∀ {svc : Service} {s s' : Session} {cookie result d},
    s.abandon cookie svc.directory = (result, s', d) →
      R ⟨[s], 0, 0⟩ svc ⟨[s'], 0, 0⟩ { svc with directory := d }

namespace Stream

/-- The sessions that a stream holds. -/
def sessions : Stream → List Session
  | .ended | .replay _ | .starting _ | .unsorted _ _ => []
  | .reading lease _ _ _ => [lease.session]
  | .filtered _ inner => inner.sessions
  | .annotated _ inner => inner.sessions
  | .sorting _ _ inner => inner.sessions
  | .sliced _ _ inner => inner.sessions
  | .selected _ inner => inner.sessions
  | .distinct _ inner => inner.sessions

/-- The number of searches that a stream may still start. -/
def pending : Stream → Nat
  | .ended | .replay _ | .reading .. => 0
  | .starting _ | .unsorted _ _ => 1
  | .filtered _ inner => inner.pending
  | .annotated _ inner => inner.pending
  | .sorting _ _ inner => inner.pending
  | .sliced _ _ inner => inner.pending
  | .selected _ inner => inner.pending
  | .distinct _ inner => inner.pending

/-- What the stream holds and may still do. -/
def stake (s : Stream) : Stake :=
  ⟨s.sessions, s.pending, s.pending⟩

variable {snapshots : Snapshots} {svc svc' : Service} {s s' inner : Stream} {event : StreamEvent}

lemma stake_stage (hs : IsStage inner s) : s.stake = inner.stake := by
  cases hs <;> rfl

lemma length_sessions_add_pending_le (s : Stream) : s.sessions.length + s.pending ≤ 1 := by
  induction s using Stream.induction with
  | ended => exact Nat.zero_le 1
  | replay entries => exact Nat.zero_le 1
  | starting source => exact Nat.le_refl 1
  | reading lease request buffer cookie => exact Nat.le_refl 1
  | unsorted keys below => exact Nat.le_refl 1
  | sorting keys collected inner ih => exact ih
  | stage inner s hs ih =>
    have hsessions : s.sessions = inner.sessions := congrArg Stake.held (stake_stage hs)
    have hpending : s.pending = inner.pending := congrArg Stake.takes (stake_stage hs)
    rw [hsessions, hpending]
    exact ih

/-- A query that nobody has asked for anything yet holds nothing. -/
lemma stake_stream (q : Query) :
    (q.stream snapshots).stake =
      ⟨[], (q.stream snapshots).pending, (q.stream snapshots).pending⟩ := by
  have hsessions : (q.stream snapshots).sessions = [] := by
    induction q with
    | empty => rfl
    | search tag source =>
      unfold Query.stream
      cases snapshots.get? tag.id <;> rfl
    | staged tag stage below ih =>
      cases hkept : snapshots.get? tag.id with
      | some entries =>
        simp only [Query.stream, hkept]
        rfl
      | none =>
        simp only [Query.stream, hkept]
        cases stage with
        | ordered keys => rfl
        | _ => exact ih
  rw [stake, hsessions]

lemma pending_stream_le (q : Query) : (q.stream snapshots).pending ≤ 1 := by
  have h := length_sessions_add_pending_le (q.stream snapshots)
  omega

/-! ## Whatever is true of all dealings -/

section Covers

variable {R : Stake → Service → Stake → Service → Prop} (hR : Stake.Covers R)
include hR

lemma covers_stream (q : Query) : R ⟨[], 1, 1⟩ svc (q.stream snapshots).stake svc := by
  rw [stake_stream]
  exact hR.fewer (pending_stream_le q)

lemma covers_abandon (lease : Lease) (cookie : Option Cookie) :
    R ⟨[lease.session], 0, 0⟩ svc .settled (abandon lease cookie svc) := by
  cases cookie with
  | none => exact hR.giveBack svc lease
  | some cookie =>
    rw [abandon]
    rcases h : lease.session.abandon cookie svc.directory with ⟨e | u, session, d⟩
    · exact hR.trans (hR.abandon h)
        (hR.giveBack _ (Lease.markForEviction { lease with session }))
    · exact hR.trans (hR.abandon h) (hR.giveBack _ { lease with session })

/-- What covers all dealings holds of a close. -/
lemma covers_close (s : Stream) : R s.stake svc .settled (s.close svc) := by
  induction s using Stream.induction with
  | ended => exact hR.refl _ _
  | replay entries => exact hR.refl _ _
  | starting source => exact hR.fewer (Nat.zero_le 1)
  | reading lease request buffer cookie => exact covers_abandon hR lease cookie
  | unsorted keys below => exact hR.fewer (Nat.zero_le 1)
  | sorting keys collected inner ih => exact ih
  | stage inner s hs ih =>
    rw [stake_stage hs, close_stage hs]
    exact ih

lemma covers_giveBack_settle (lease : Lease) (session : Session) (e : DirectoryError) :
    R ⟨[session], 0, 0⟩ svc .settled
      (svc.giveBack (({ lease with session } : Lease).settle (some e))) := by
  have hback := hR.giveBack svc (({ lease with session } : Lease).settle (some e))
  rw [Lease.session_settle] at hback
  exact hback

lemma covers_start {source : Source} (h : start source svc = (event, s', svc')) :
    R ⟨[], 1, 1⟩ svc s'.stake svc' := by
  obtain ⟨e, -, rfl, hsvc⟩ | ⟨request, lease, svc₁, result, session, d, -, hout, hpage, hcase⟩ :=
    start_cases h
  · obtain rfl | ⟨err, hout⟩ := hsvc
    · exact hR.fewer (Nat.zero_le 1)
    · exact hR.trans (hR.checkOut_error hout) (hR.fewer (Nat.zero_le 1))
  have htake := hR.trans (hR.checkOut hout) (hR.firstPage hpage)
  obtain ⟨page, -, -, rfl, rfl⟩ | ⟨e, -, -, rfl, rfl⟩ := hcase
  · exact htake
  · exact hR.trans htake (covers_giveBack_settle hR lease session e)

/-- What covers all dealings holds of a step. -/
theorem covers_step (h : s.step snapshots svc = (event, s', svc')) :
    R s.stake svc s'.stake svc' := by
  induction s using Stream.induction generalizing event s' svc' with
  | ended =>
    cases h
    exact hR.refl _ _
  | replay entries => cases entries <;> cases h <;> exact hR.refl _ _
  | starting source => exact covers_start hR h
  | reading lease request buffer cookie =>
    match buffer, cookie with
    | e :: rest, cookie =>
      cases h
      exact hR.refl _ _
    | [], none =>
      cases h
      exact hR.giveBack svc lease
    | [], some cookie =>
      obtain ⟨result, session, d, hpage, hcase⟩ := turnPage_cases h
      have hrequest := hR.nextPage hpage
      obtain ⟨page, -, -, rfl, rfl⟩ | ⟨e, -, -, rfl, rfl⟩ := hcase
      · exact hrequest
      · exact hR.trans hrequest (covers_giveBack_settle hR lease session e)
  | unsorted keys below =>
    cases h
    exact covers_stream hR below
  | sorting keys collected inner ih =>
    obtain ⟨below, inner', svc₁, hbelow, hcase⟩ := step_sorting h
    have hstep := ih hbelow
    obtain ⟨-, -, ⟨collected', rfl⟩, rfl⟩ | ⟨e, -, -, rfl, rfl⟩ | ⟨-, -, rfl, rfl⟩ := hcase
    · exact hstep
    · exact hR.trans hstep (covers_close hR inner')
    · exact hR.trans hstep (covers_close hR inner')
  | stage inner s hs ih =>
    rw [stake_stage hs]
    obtain ⟨below, inner', hbelow, -, hs'⟩ | ⟨-, rfl, rfl⟩ | ⟨inner', svc₁, hbelow, -, rfl, rfl⟩ :=
      step_stage hs h
    · rw [stake_stage hs']
      exact ih hbelow
    · exact covers_close hR inner
    · exact hR.trans (ih hbelow) (covers_close hR inner')

end Covers

/-! ## The end -/

/-- The stream is through: nothing is left below its stages. -/
inductive IsSpent : Stream → Prop
  | ended : IsSpent .ended
  | stage {inner s : Stream} (hs : IsStage inner s) (h : IsSpent inner) : IsSpent s

lemma IsSpent.stake_eq (h : s.IsSpent) : s.stake = .settled := by
  induction h with
  | ended => rfl
  | stage hs _ ih => rw [stake_stage hs, ih]

lemma IsSpent.close_eq (h : s.IsSpent) (svc : Service) : s.close svc = svc := by
  induction h with
  | ended => rfl
  | stage hs _ ih => rw [close_stage hs, ih]

/-- A stream that is through stays so and asks nobody for anything. -/
lemma IsSpent.step (hs : s.IsSpent) (h : s.step snapshots svc = (event, s', svc')) :
    event = .finish ∧ s'.IsSpent ∧ svc' = svc := by
  induction hs generalizing event s' svc' with
  | ended =>
    cases h
    exact ⟨rfl, .ended, rfl⟩
  | stage hs hinner ih =>
    obtain ⟨below, inner', hbelow, hpass, hs'⟩ | ⟨rfl, rfl, rfl⟩ |
      ⟨inner', svc₁, hbelow, rfl, rfl, rfl⟩ := step_stage hs h
    · obtain ⟨rfl, hspent, rfl⟩ := ih hbelow
      cases hpass
      exact ⟨rfl, .stage hs' hspent, rfl⟩
    · exact ⟨rfl, .ended, hinner.close_eq svc⟩
    · obtain ⟨-, hspent, rfl⟩ := ih hbelow
      exact ⟨rfl, .ended, hspent.close_eq _⟩

/-- At its end and after an error a stream is through. -/
lemma isSpent_of_isStop (h : s.step snapshots svc = (event, s', svc'))
    (hevent : event.isStop = true) : s'.IsSpent := by
  induction s using Stream.induction generalizing event s' svc' with
  | ended =>
    cases h
    exact .ended
  | replay entries =>
    cases entries with
    | nil =>
      cases h
      exact .ended
    | cons e rest =>
      cases h
      cases hevent
  | starting source =>
    obtain ⟨e, -, rfl, -⟩ | ⟨request, lease, svc₁, result, session, d, -, -, -, hcase⟩ :=
      start_cases h
    · exact .ended
    obtain ⟨page, -, rfl, -, -⟩ | ⟨e, -, -, rfl, -⟩ := hcase
    · cases hevent
    · exact .ended
  | reading lease request buffer cookie =>
    match buffer, cookie with
    | e :: rest, cookie =>
      cases h
      cases hevent
    | [], none =>
      cases h
      exact .ended
    | [], some cookie =>
      obtain ⟨result, session, d, -, hcase⟩ := turnPage_cases h
      obtain ⟨page, -, rfl, -, -⟩ | ⟨e, -, -, rfl, -⟩ := hcase
      · cases hevent
      · exact .ended
  | unsorted keys below =>
    cases h
    cases hevent
  | sorting keys collected inner ih =>
    obtain ⟨below, inner', svc₁, -, ⟨-, rfl, -, -⟩ | ⟨e, -, -, rfl, -⟩ | ⟨-, rfl, -, -⟩⟩ :=
      step_sorting h
    · cases hevent
    · exact .ended
    · cases hevent
  | stage inner s hs ih =>
    obtain ⟨below, inner', hbelow, hpass, hs'⟩ | ⟨-, rfl, -⟩ | ⟨inner', svc₁, -, -, rfl, -⟩ :=
      step_stage hs h
    · exact .stage hs' (ih hbelow (hpass.isStop_eq.trans hevent))
    · exact .ended
    · exact .ended

end Stream

/-! ## Evaluations -/

section Covers

variable {R : Stake → Service → Stake → Service → Prop} (hR : Stake.Covers R)
include hR

namespace Results

variable {r r' : Results} {w w' : Workspace}

lemma covers_runs {error : Option QueryError} (h : r.Runs w error r' w') :
    R r.stream.stake w.service r'.stream.stake w'.service := by
  induction h with
  | refl => exact hR.refl _ _
  | fault h => exact Stream.covers_step hR (stream_step h)
  | step h _ _ ih => exact hR.trans (Stream.covers_step hR (stream_step h)) ih

/-- What covers all dealings holds of a request for the next entry. -/
lemma covers_next {outcome : Option (Except QueryError Entry)} (h : r.next w = (outcome, r', w')) :
    R r.stream.stake w.service r'.stream.stake w'.service :=
  covers_runs hR (runs_next h)

end Results

/-- What covers all dealings holds of an evaluation, which leaves nothing behind. -/
lemma Query.Evaluates.covers {q : Query} {w w' : Workspace} {error : Option QueryError}
    (h : q.Evaluates w error w') : R ⟨[], 1, 1⟩ w.service .settled w'.service := by
  cases h with
  | kept => exact hR.fewer (Nat.zero_le 1)
  | @runs r _ _ hstream h =>
    obtain ⟨r', w₁, hruns, rfl⟩ := h
    have hstake : r.stream.stake = (q.stream w.snapshots).stake :=
      hstream.elim (congrArg Stream.stake) Stream.stake_stage
    have hstart : R ⟨[], 1, 1⟩ w.service r.stream.stake w.service := by
      rw [hstake]
      exact Stream.covers_stream hR q
    have hend : R r'.stream.stake w₁.service .settled (r'.close w₁).service :=
      Stream.covers_close hR r'.stream
    exact hR.trans hstart (hR.trans (Results.covers_runs hR hruns) hend)

end Covers

/-! ## Custody -/

/-- All that a stream does keeps the books in order. -/
lemma Stake.covers_keeps : Covers Keeps where
  refl := .refl
  trans := .trans
  fewer := Service.keeps_fewer
  checkOut h := Service.keeps_checkOut h 0 1
  checkOut_error h := Service.keeps_checkOut_error h _
  giveBack svc l := Service.keeps_giveBack svc l 0 0
  firstPage h := Service.keeps_firstPage h 0 0
  nextPage h :=
    Service.keeps_request (Session.page_changes h).1 (Session.page_changes h).2
      (Session.searches_page_some h) 0 0
  abandon h := by
    obtain ⟨hsession, hstock, hsearches⟩ := Session.abandon_changes h
    exact Service.keeps_request hsession hstock hsearches 0 0

namespace Results

variable {r r' : Results} {w w' : Workspace}

/-- When there is no next entry, the results are through. -/
lemma isSpent_next {outcome : Option (Except QueryError Entry)}
    (h : r.next w = (outcome, r', w')) (hover : ∀ e, outcome ≠ some (.ok e)) :
    r'.stream.IsSpent := by
  obtain ⟨r₁, w₁, event, -, hstep, hanswer⟩ := next_pauses h
  refine Stream.isSpent_of_isStop (stream_step hstep) ?_
  cases event with
  | item e => exact absurd hanswer (hover e)
  | fault e => rfl
  | pause => exact hanswer.elim
  | finish => rfl

end Results

end DirectoryQuery
