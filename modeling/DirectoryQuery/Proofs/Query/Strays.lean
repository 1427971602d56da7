import DirectoryQuery.Proofs.Pool.Strays
import DirectoryQuery.Proofs.Query.Custody
import DirectoryQuery.Proofs.Query.Health

/-!
# Which searches are left open

Whoever stops reading a search abandons it, so that an idle session remembers no search.  There is
one exception.  A request for a further page may fail with an error that says nothing about the
health of the session; the session is released then, and the search is still under way in it.  The
same error at the first page is no error to the reader, but the end of an empty search.

`Residue.Passes` keeps count of this.  It relates what somebody holds before and after some dealings
with a service, and the number of searches that idle sessions remember grows by no more than the
number of such errors that the dealings were answered with.  Steps of streams and evaluations are
such dealings (`Stream.passes_step`, `Query.Evaluates.passes`).
-/

namespace DirectoryQuery

/-! ## Directories grow -/

namespace Directory

/-- Neither entries nor searches were taken away. -/
structure Grows (d d' : Directory) : Prop where
  entries : d.entries.length ≤ d'.entries.length
  searchesRun : d.searchesRun ≤ d'.searchesRun

variable {d d' d'' : Directory}

lemma Grows.refl (d : Directory) : d.Grows d := ⟨Nat.le_refl _, Nat.le_refl _⟩

lemma Grows.trans (h : d.Grows d') (k : d'.Grows d'') : d.Grows d'' :=
  ⟨Nat.le_trans h.entries k.entries, Nat.le_trans h.searchesRun k.searchesRun⟩

lemma Grows.fitsCookies (h : d.Grows d') (hd : d'.FitsCookies) : d.FitsCookies :=
  ⟨Nat.le_trans h.entries hd.entries_le, Nat.le_trans h.searchesRun hd.searchesRun_le⟩

lemma length_le_length_place (e : Entry) (es : List Entry) : es.length ≤ (place e es).length := by
  induction es with
  | nil => exact Nat.zero_le _
  | cons other es ih =>
    rw [place]
    split
    · exact Nat.le_refl _
    · exact Nat.succ_le_succ ih

end Directory

/-! ## What somebody holds -/

/-- Sessions that somebody holds, and the number of searches in them that he does not go on with. -/
structure Residue where
  sessions : List Session
  strays : Nat

namespace Residue

/-- Nothing held. -/
def nothing : Residue := ⟨[], 0⟩

/-- The idle sessions and the held ones are in order. -/
def Orderly (a : Residue) (svc : Service) : Prop :=
  ∀ t ∈ svc.pool.idle ++ a.sessions, t.Orderly

/-- The dealings turn one residue into another and leave so many searches open at most. -/
structure Passes (a : Residue) (svc : Service) (b : Residue) (svc' : Service) (count : Nat) :
    Prop where
  grows : svc.directory.Grows svc'.directory
  orderly : svc'.directory.FitsCookies → a.Orderly svc → b.Orderly svc'
  strays : svc'.directory.FitsCookies → a.Orderly svc →
    svc'.strays + b.strays ≤ svc.strays + a.strays + count

variable {a b c : Residue} {svc svc' svc'' : Service} {m n : Nat}

lemma Passes.refl (a : Residue) (svc : Service) : a.Passes svc a svc 0 where
  grows := .refl _
  orderly _ h := h
  strays _ _ := Nat.le_refl _

lemma Passes.trans (h : a.Passes svc b svc' m) (k : b.Passes svc' c svc'' n) :
    a.Passes svc c svc'' (m + n) where
  grows := h.grows.trans k.grows
  orderly hfits ha := k.orderly hfits (h.orderly (k.grows.fitsCookies hfits) ha)
  strays hfits ha := by
    have hfits' := k.grows.fitsCookies hfits
    have hfirst := h.strays hfits' ha
    have hsecond := k.strays hfits (h.orderly hfits' ha)
    omega

/-- Dealings that leave nothing open come before others. -/
lemma Passes.quietly (h : a.Passes svc b svc' 0) (k : b.Passes svc' c svc'' n) :
    a.Passes svc c svc'' n := by
  have hboth := h.trans k
  rwa [Nat.zero_add] at hboth

lemma Passes.mono (h : a.Passes svc b svc' m) (hle : m ≤ n) : a.Passes svc b svc' n where
  grows := h.grows
  orderly := h.orderly
  strays hfits ha := Nat.le_trans (h.strays hfits ha) (Nat.add_le_add_left hle _)

/-- What is not counted as held is counted as left open. -/
lemma Passes.charge {sessions : List Session}
    (h : Passes ⟨sessions, m + n⟩ svc b svc' 0) : Passes ⟨sessions, m⟩ svc b svc' n where
  grows := h.grows
  orderly := h.orderly
  strays hfits ha := by
    have hstrays := h.strays hfits ha
    simp only at hstrays ⊢
    omega

end Residue

lemma Lease.isAcceptable_of_release {l : Lease} {e : DirectoryError}
    (h : (l.settle (some e)).disposition = .release) : e.isAcceptable = true := by
  rw [settle, Disposition.after] at h
  by_contra hbad
  rw [if_neg hbad] at h
  cases h

namespace Service

open Residue

variable {svc svc' : Service} {s s' : Session} {l : Lease} {d : Directory}

lemma grows_giveBack (svc : Service) (l : Lease) :
    svc.directory.Grows (svc.giveBack l).directory :=
  ⟨Nat.le_of_eq (congrArg List.length (entries_giveBack l).symm),
    Nat.le_of_eq (unasked_giveBack svc l).searchesRun.symm⟩

lemma grows_checkOut {result : Except DirectoryError Lease} (h : svc.checkOut = (result, svc')) :
    svc.directory.Grows svc'.directory :=
  ⟨Nat.le_of_eq (congrArg List.length (entries_checkOut h).symm),
    Nat.le_of_eq (unasked_checkOut h).searchesRun.symm⟩

/-- A session goes back with what it remembers, or it is closed. -/
lemma passes_giveBack (svc : Service) (l : Lease) (count : Nat)
    (hcount : l.session.Orderly → l.disposition = .release → l.session.paged.length ≤ count) :
    Passes ⟨[l.session], count⟩ svc .nothing (svc.giveBack l) 0 := by
  refine ⟨grows_giveBack svc l, fun _ ha t ht => ?_, fun _ ha => ?_⟩
  · rw [nothing, List.append_nil] at ht
    obtain hidle | ⟨-, hidle⟩ := svc.idle_giveBack l
    · rw [hidle] at ht
      exact ha t (List.mem_append_left _ ht)
    · rw [hidle] at ht
      rcases List.mem_cons.1 ht with rfl | ht
      · exact ha _ (List.mem_append_right _ (List.mem_singleton_self _))
      · exact ha t (List.mem_append_left _ ht)
  · obtain hidle | ⟨hrelease, hidle⟩ := svc.idle_giveBack l
    · simp only [strays, hidle, nothing]
      omega
    · have hle := hcount (ha _ (List.mem_append_right _ (List.mem_singleton_self _))) hrelease
      simp only [strays, hidle, nothing, List.map_cons, List.sum_cons]
      omega

/-- What a session remembers when it is checked out, it remembered in the pool. -/
lemma passes_checkOut (h : svc.checkOut = (.ok l, svc')) :
    Passes .nothing svc ⟨[l.session], l.session.aside none⟩ svc' 0 := by
  refine ⟨grows_checkOut h, fun _ ha t ht => ?_, fun _ _ => ?_⟩
  · obtain hidle | ⟨hidle, hpaged⟩ := idle_checkOut h
    · refine ha t ?_
      rw [hidle, nothing, List.append_nil]
      rcases List.mem_append.1 ht with ht | ht
      · exact List.mem_cons_of_mem _ ht
      · rw [List.mem_singleton.1 ht]
        exact List.mem_cons_self
    · rcases List.mem_append.1 ht with ht | ht
      · exact ha t (List.mem_append_left _ (hidle ▸ ht))
      · rw [List.mem_singleton.1 ht]
        exact Session.orderly_of_paged_nil hpaged
  · obtain hidle | ⟨hidle, hpaged⟩ := idle_checkOut h
    · simp only [strays, hidle, nothing, Session.aside_none, List.map_cons, List.sum_cons]
      omega
    · simp only [strays, hidle, nothing, Session.aside_none, hpaged, List.length_nil]
      omega

lemma passes_checkOut_error {e : DirectoryError} (h : svc.checkOut = (.error e, svc')) :
    Passes .nothing svc .nothing svc' 0 := by
  have hidle := idle_checkOut_error h
  refine ⟨grows_checkOut h, fun _ ha t ht => ha t (hidle ▸ ht), fun _ _ => ?_⟩
  simp only [strays, hidle]
  omega

section Request

variable {request : SearchRequest}

lemma grows_page {cookie : Option Cookie} {result : Except DirectoryError Page}
    (h : s.page request cookie svc.directory = (result, s', d)) : svc.directory.Grows d :=
  ⟨Nat.le_of_eq (congrArg List.length (Session.page_changes h).2.entries.symm),
    Session.searchesRun_page_le h⟩

lemma grows_abandon {cookie : Cookie} {result : Except DirectoryError Unit}
    (h : s.abandon cookie svc.directory = (result, s', d)) : svc.directory.Grows d :=
  ⟨Nat.le_of_eq (congrArg List.length (Session.abandon_changes h).2.1.entries.symm),
    Nat.le_of_eq (Session.searchesRun_abandon h).symm⟩

/-- Work on a held session is a matter of that session alone. -/
lemma passes_request (count count' : Nat) (hgrows : svc.directory.Grows d)
    (hsession : d.FitsCookies → s.Orderly → s'.Orderly ∧ count' ≤ count) :
    Passes ⟨[s], count⟩ svc ⟨[s'], count'⟩ { svc with directory := d } 0 := by
  have hs : Residue.Orderly ⟨[s], count⟩ svc → s.Orderly := fun ha =>
    ha s (List.mem_append_right _ (List.mem_singleton_self s))
  refine ⟨hgrows, fun hfits ha t ht => ?_, fun hfits ha => ?_⟩
  · rcases List.mem_append.1 ht with ht | ht
    · exact ha t (List.mem_append_left _ ht)
    · rw [List.mem_singleton.1 ht]
      exact (hsession hfits (hs ha)).1
  · exact Nat.add_le_add_left (hsession hfits (hs ha)).2 _

/-- A page that is handed out leaves no search aside. -/
lemma passes_page {cookie : Option Cookie} {page : Page}
    (h : s.page request cookie svc.directory = (.ok page, s', d)) :
    Passes ⟨[s], s.aside cookie⟩ svc ⟨[s'], s'.aside page.cookie⟩ { svc with directory := d } 0 :=
  passes_request _ _ (grows_page h) fun hfits hs => Session.aside_of_page_ok h hs hfits

/-- After a request that failed the session goes back.  It takes the search along only if the error
says nothing about the session. -/
lemma passes_page_error {cookie : Option Cookie} {e : DirectoryError} {lease : Lease}
    (h : lease.session.page request cookie svc.directory = (.error e, s, d)) (count : Nat)
    (hcount : lease.session.Orderly → e.isAcceptable = true →
      lease.session.paged.length ≤ lease.session.aside cookie + count) :
    Passes ⟨[lease.session], lease.session.aside cookie⟩ svc .nothing
      ({ svc with directory := d }.giveBack (({ lease with session := s } : Lease).settle (some e)))
      count := by
  obtain rfl := Session.eq_of_page_error h
  have hback := passes_giveBack { svc with directory := d } (lease.settle (some e))
    (lease.session.aside cookie + count) fun hs hrelease => by
      rw [Lease.session_settle] at hs ⊢
      exact hcount hs (Lease.isAcceptable_of_release hrelease)
  rw [Lease.session_settle] at hback
  have hrequest : Passes ⟨[lease.session], lease.session.aside cookie + count⟩ svc
      ⟨[lease.session], lease.session.aside cookie + count⟩ { svc with directory := d } 0 :=
    passes_request _ _ (grows_page h) fun _ hs => ⟨hs, Nat.le_refl _⟩
  exact (hrequest.trans hback).charge

/-- A search that is left early is abandoned, and without success its session is closed. -/
lemma passes_abandon (svc : Service) (lease : Lease) (cookie : Option Cookie) :
    Passes ⟨[lease.session], lease.session.aside cookie⟩ svc .nothing
      (Stream.abandon lease cookie svc) 0 := by
  cases cookie with
  | none => exact passes_giveBack svc lease _ fun _ _ => Nat.le_refl _
  | some cookie =>
    rw [Stream.abandon]
    rcases h : lease.session.abandon cookie svc.directory with ⟨e | u, session, d⟩
    · have hback := passes_giveBack { svc with directory := d }
        (Lease.markForEviction { lease with session }) (lease.session.aside (some cookie))
        fun _ hrelease => by cases hrelease
      exact (passes_request _ _ (grows_abandon h) fun _ hs => ⟨hs.abandon h, Nat.le_refl _⟩).trans
        hback
    · have hpaged := Session.length_paged_of_abandon_ok h
      have hback := passes_giveBack { svc with directory := d } { lease with session }
        (lease.session.aside (some cookie)) fun _ _ => Nat.le_of_eq hpaged
      exact (passes_request _ _ (grows_abandon h) fun _ hs => ⟨hs.abandon h, Nat.le_refl _⟩).trans
        hback

end Request

end Service

/-! ## Errors that leave a search open -/

/-- Whether the error says nothing about the health of the session that it came from. -/
def QueryError.isAcceptable (e : QueryError) : Bool :=
  e.directoryError?.any DirectoryError.isAcceptable

/-- The number of searches that an error can leave open. -/
def QueryError.oversights (error : Option QueryError) : Nat :=
  if error.any QueryError.isAcceptable then 1 else 0

/-! ## Streams -/

namespace Stream

open Residue

/-- The searches that the stream's session remembers besides the one that the stream reads. -/
def strays : Stream → Nat
  | .ended | .replay _ | .starting _ | .unsorted _ _ => 0
  | .reading lease _ _ cookie => lease.session.aside cookie
  | .filtered _ inner => inner.strays
  | .annotated _ inner => inner.strays
  | .sorting _ _ inner => inner.strays
  | .sliced _ _ inner => inner.strays
  | .selected _ inner => inner.strays
  | .distinct _ inner => inner.strays

/-- What the stream holds. -/
def residue (s : Stream) : Residue :=
  ⟨s.sessions, s.strays⟩

variable {snapshots : Snapshots} {svc svc' : Service} {s s' inner : Stream} {event : StreamEvent}

lemma residue_stage (hs : IsStage inner s) : s.residue = inner.residue := by
  cases hs <;> rfl

lemma strays_eq_zero (h : s.sessions = []) : s.strays = 0 := by
  induction s using Stream.induction with
  | ended => rfl
  | replay entries => rfl
  | starting source => rfl
  | reading lease request buffer cookie => cases h
  | unsorted keys below => rfl
  | sorting keys collected inner ih => exact ih h
  | stage inner s hs ih =>
    have hstrays : s.strays = inner.strays := congrArg Residue.strays (residue_stage hs)
    have hsessions : s.sessions = inner.sessions := congrArg Residue.sessions (residue_stage hs)
    rw [hstrays]
    exact ih (hsessions ▸ h)

/-- A query that nobody has asked for anything yet holds nothing. -/
lemma residue_stream (q : Query) : (q.stream snapshots).residue = .nothing := by
  have hsessions : (q.stream snapshots).sessions = [] := congrArg Stake.held (stake_stream q)
  rw [residue, hsessions, strays_eq_zero hsessions]
  rfl

/-- Closing a stream leaves nothing open. -/
lemma passes_close (s : Stream) (svc : Service) :
    s.residue.Passes svc .nothing (s.close svc) 0 := by
  induction s using Stream.induction with
  | ended => exact .refl _ _
  | replay entries => exact .refl _ _
  | starting source => exact .refl _ _
  | reading lease request buffer cookie => exact Service.passes_abandon svc lease cookie
  | unsorted keys below => exact .refl _ _
  | sorting keys collected inner ih => exact ih
  | stage inner s hs ih =>
    rw [residue_stage hs, close_stage hs]
    exact ih

/-- A search that cannot be started leaves nothing open, whatever the error. -/
lemma passes_start {source : Source} (h : start source svc = (event, s', svc')) :
    Passes .nothing svc s'.residue svc' 0 := by
  obtain ⟨e, -, rfl, hsvc⟩ | ⟨request, lease, svc₁, result, session, d, -, hout, hpage, hcase⟩ :=
    start_cases h
  · obtain rfl | ⟨err, hout⟩ := hsvc
    · exact .refl _ _
    · exact Service.passes_checkOut_error hout
  have htake := Service.passes_checkOut hout
  obtain ⟨page, rfl, -, rfl, rfl⟩ | ⟨e, rfl, -, rfl, rfl⟩ := hcase
  · exact htake.trans (Service.passes_page hpage)
  · exact htake.trans (Service.passes_page_error hpage 0 fun _ _ => Nat.le_refl _)

/-- A page that cannot be had leaves the search open if the session is released. -/
lemma passes_turnPage {lease : Lease} {request : SearchRequest} {cookie : Cookie}
    (h : turnPage lease request cookie svc = (event, s', svc')) :
    Passes ⟨[lease.session], lease.session.aside (some cookie)⟩ svc s'.residue svc'
      (QueryError.oversights event.error?) := by
  obtain ⟨result, session, d, hpage, hcase⟩ := turnPage_cases h
  obtain ⟨page, rfl, rfl, rfl, rfl⟩ | ⟨e, rfl, rfl, rfl, rfl⟩ := hcase
  · exact Service.passes_page hpage
  · refine Service.passes_page_error hpage _ fun hs hacceptable => ?_
    have hone : QueryError.oversights (StreamEvent.fault (.directory e)).error? = 1 :=
      if_pos hacceptable
    rw [hone]
    exact hs.length_le_aside (some cookie)

/-- A step leaves a search open only if it is answered with an error that can. -/
theorem passes_step (h : s.step snapshots svc = (event, s', svc')) :
    s.residue.Passes svc s'.residue svc' (QueryError.oversights event.error?) := by
  induction s using Stream.induction generalizing event s' svc' with
  | ended =>
    cases h
    exact .refl _ _
  | replay entries => cases entries <;> cases h <;> exact .refl _ _
  | starting source => exact (passes_start h).mono (Nat.zero_le _)
  | reading lease request buffer cookie =>
    match buffer, cookie with
    | e :: rest, cookie =>
      cases h
      exact .refl _ _
    | [], none =>
      cases h
      exact Service.passes_giveBack svc lease _ fun _ _ => Nat.le_refl _
    | [], some cookie => exact passes_turnPage h
  | unsorted keys below =>
    cases h
    have hbelow : (sorting keys [] (below.stream snapshots)).residue = .nothing :=
      residue_stream below
    rw [hbelow]
    exact .refl _ _
  | sorting keys collected inner ih =>
    obtain ⟨below, inner', svc₁, hbelow, hcase⟩ := step_sorting h
    have hstep := ih hbelow
    obtain ⟨hpass, rfl, ⟨collected', rfl⟩, rfl⟩ | ⟨e, rfl, rfl, rfl, rfl⟩ | ⟨rfl, rfl, rfl, rfl⟩ :=
      hcase
    · rw [hpass.error?_eq] at hstep
      exact hstep
    · exact hstep.trans (passes_close inner' svc₁)
    · exact hstep.trans (passes_close inner' svc₁)
  | stage inner s hs ih =>
    rw [residue_stage hs]
    obtain ⟨below, inner', hbelow, hpass, hs'⟩ | ⟨rfl, rfl, rfl⟩ |
      ⟨inner', svc₁, hbelow, rfl, rfl, rfl⟩ := step_stage hs h
    · rw [residue_stage hs', ← hpass.error?_eq]
      exact ih hbelow
    · exact passes_close inner svc
    · exact (ih hbelow).trans (passes_close inner' svc₁)

end Stream

/-! ## Evaluations -/

namespace Results

open Residue QueryError

variable {r r' : Results} {w w' : Workspace}

lemma passes_step {event : StreamEvent} (h : r.step w = (event, r', w')) :
    r.stream.residue.Passes w.service r'.stream.residue w'.service (oversights event.error?) :=
  Stream.passes_step (stream_step h)

/-- A run leaves a search open only if it ends with an error that can. -/
lemma passes_runs {error : Option QueryError} (h : r.Runs w error r' w') :
    r.stream.residue.Passes w.service r'.stream.residue w'.service (oversights error) := by
  induction h with
  | refl => exact .refl _ _
  | fault h => exact passes_step h
  | step h hevent _ ih =>
    have hfirst := passes_step h
    rw [hevent] at hfirst
    exact hfirst.quietly ih

/-- Asking for the next entry leaves a search open only if the answer is an error that can. -/
lemma passes_next {outcome : Option (Except QueryError Entry)} (h : r.next w = (outcome, r', w')) :
    r.stream.residue.Passes w.service r'.stream.residue w'.service
      (oversights (outcome.bind of?)) :=
  passes_runs (runs_next h)

lemma passes_close (r : Results) (w : Workspace) :
    r.stream.residue.Passes w.service .nothing (r.close w).service 0 :=
  Stream.passes_close r.stream w.service

end Results

/-- An evaluation holds nothing before and after, and leaves a search open only if it ends with an
error that can. -/
lemma Query.Evaluates.passes {q : Query} {w w' : Workspace} {error : Option QueryError}
    (h : q.Evaluates w error w') :
    Residue.Passes .nothing w.service .nothing w'.service (QueryError.oversights error) := by
  cases h with
  | kept => exact .refl _ _
  | @runs r _ _ hstream h =>
    obtain ⟨r', w₁, hruns, rfl⟩ := h
    have hresidue : r.stream.residue = .nothing := by
      rw [hstream.elim (congrArg Stream.residue) Stream.residue_stage, Stream.residue_stream]
    have hpasses := (Results.passes_runs hruns).trans (Results.passes_close r' w₁)
    rwa [hresidue] at hpasses

end DirectoryQuery
