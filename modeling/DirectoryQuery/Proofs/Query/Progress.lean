import DirectoryQuery.Proofs.Query.Keeping
import DirectoryQuery.Proofs.Query.Outcome

/-!
# Progress towards an outcome

Every step of a stream brings about what its outcome opens with, and leaves a stream that comes to
the rest (`Stream.opens_step`).  While the service is ready this is true of errors too.  When
something is set up to fail, a step may bring about an error in place of what was to come, but never
an entry that was not to come, and it skips none.

`Stream.Sound` says that a stream and a service can go on with each other, and every step keeps it.
So the answers to requests for the next entry follow the outcome (`Results.sound_next`,
`Results.next_answer`), and an evaluation takes it all in (`Results.foldWithin_outcome`).
-/

namespace DirectoryQuery

/-- The service has the entries of the directory, and cookies can number them and more searches than
may still be started.  If a search may be started, no failure is set up that would be taken for a
base that is not there. -/
structure Service.Serves (d : Directory) (searches : Nat) (svc : Service) : Prop where
  entries : svc.directory.entries = d.entries
  entries_le : d.entries.length ≤ Text.maxSize
  searchesRun_lt : svc.directory.searchesRun + searches < Text.maxSize
  failure : searches ≠ 0 →
    ∀ e, svc.directory.searchFailure = some e → e.isAcceptable = false

/-! ## Steps of a search -/

/-- A page and what is behind it are all that was left. -/
lemma Session.append_behind_of_deliver {s s' : Session} {size search position : Nat}
    {results : List Entry} {page : Page} (h : (page, s') = s.deliver size search results position)
    (hresults : s.results? search = some results) (hsearch : search ≤ Text.maxSize)
    (hlength : results.length ≤ Text.maxSize) :
    page.entries ++ s'.behind page.cookie = results.drop position ∧
      ∀ c, page.cookie = some c → s'.Resumes c := by
  obtain hlast | ⟨next, hposition, hnext, hmore⟩ := s.deliver_cases size search results position
  · obtain ⟨rfl, -⟩ := Prod.mk.inj (h.trans hlast)
    exact ⟨List.append_nil _, nofun⟩
  · obtain ⟨rfl, rfl⟩ := Prod.mk.inj (h.trans hmore)
    have hdecode : (Cookie.encode search next).decode? = some (search, next) := by
      rw [Cookie.decode?_encode, if_pos ⟨hsearch, by omega⟩]
    constructor
    · have hbegins : position ≤ (results.take next).length := by
        rw [List.length_take]
        omega
      simp only [behind, hdecode, hresults, Option.getD_some]
      rw [← List.drop_append_of_le_length hbegins, List.take_append_drop]
    · rintro c ⟨⟩
      exact ⟨search, next, results, hdecode, hresults, hlength⟩

lemma Session.isOpen_of_page_ok {s s' : Session} {request : SearchRequest} {cookie : Option Cookie}
    {d d' : Directory} {page : Page} (h : s.page request cookie d = (.ok page, s', d')) :
    s'.isOpen = true := by
  rw [(Session.page_changes h).1.isOpen]
  rw [Session.page.eq_def] at h
  split at h
  · rename_i hopen
    exact hopen
  · cases h

lemma Source.request_ok {source : Source} {pageSize : Nat} {request : SearchRequest}
    (h : source.request pageSize = .ok request) :
    ∃ text, source.filterText = .ok text ∧
      request = ⟨source.base, text, source.scope, pageSize⟩ := by
  cases htext : source.filterText with
  | error e =>
    rw [Source.request, htext] at h
    cases h
  | ok text =>
    rw [Source.request_of_filterText htext] at h
    cases h
    exact ⟨text, rfl, rfl⟩

lemma Source.request_error {source : Source} {pageSize : Nat} {e : FilterError}
    (h : source.request pageSize = .error e) : source.filterText = .error e := by
  cases htext : source.filterText with
  | error e' =>
    rw [Source.request, htext] at h
    cases h
    rfl
  | ok text =>
    rw [Source.request_of_filterText htext] at h
    cases h

namespace Service.Serves

variable {d : Directory} {svc svc' : Service} {a b : Stake}

/-- A service serves on for what may still be started after some dealings. -/
lemma spares (h : svc.Serves d a.asks) (k : a.Spares svc b svc') : svc'.Serves d b.asks where
  entries := k.entries.trans h.entries
  entries_le := h.entries_le
  searchesRun_lt := Nat.lt_of_le_of_lt k.searchesRun h.searchesRun_lt
  failure hasks e he :=
    h.failure (Nat.ne_of_gt (Nat.lt_of_lt_of_le (Nat.pos_of_ne_zero hasks) k.asks_le)) e
      (k.spared.failure e he)

end Service.Serves

namespace Stream

variable {snapshots : Snapshots} {d : Directory} {svc svc' : Service} {s s' inner : Stream}
  {event : StreamEvent}

/-- Why a search has no first page: nothing is there, or it fails as it has to, or something keeps
the service from answering. -/
lemma outcome_of_page_error {source : Source} {request : SearchRequest} {lease : Lease}
    {svc₁ : Service} {e : DirectoryError} {session : Session} {d₁ : Directory}
    (hsvc : svc.Serves d 1) (hrequest : source.request svc.pool.config.pageSize = .ok request)
    (hout : svc.checkOut = (.ok lease, svc₁))
    (hpage : lease.session.page request none svc₁.directory = (.error e, session, d₁)) :
    (e.isAcceptable = true → source.outcome d = .nothing) ∧
      (svc.Ready → e.isAcceptable = false → source.outcome d = .failure (.directory e)) := by
  have hfailure := (Service.unasked_checkOut hout).searchFailure
  have hentries := (Service.entries_checkOut hout).trans hsvc.entries
  obtain ⟨text, htext, rfl⟩ := Source.request_ok hrequest
  obtain ⟨hclosed, rfl⟩ | hset | ⟨why, hparse, rfl⟩ | ⟨filter, hparse, hbase, rfl⟩ :=
    Session.page_none_error hpage
  · refine ⟨nofun, fun hready _ => ?_⟩
    rw [Service.isOpen_checkOut hout hready.idleOpen] at hclosed
    cases hclosed
  · rw [hfailure] at hset
    constructor
    · intro hacceptable
      rw [hsvc.failure Nat.one_ne_zero e hset] at hacceptable
      cases hacceptable
    · intro hready _
      rw [hready.healthy] at hset
      cases hset
  · exact ⟨nofun, fun _ _ => by simp only [Source.outcome, htext, hparse]⟩
  · refine ⟨fun _ => ?_, nofun⟩
    rw [Directory.hasBase_congr hentries] at hbase
    simp only [Source.outcome, htext, hparse, Directory.answer, hbase]
    rfl

/-- A first page and what is behind it are what the search comes to. -/
lemma outcome_of_page_ok {source : Source} {request : SearchRequest} {lease : Lease}
    {svc₁ : Service} {page : Page} {session : Session} {d₁ : Directory} (hsvc : svc.Serves d 1)
    (hrequest : source.request svc.pool.config.pageSize = .ok request)
    (hout : svc.checkOut = (.ok lease, svc₁))
    (hpage : lease.session.page request none svc₁.directory = (.ok page, session, d₁)) :
    source.outcome d = ⟨page.entries ++ session.behind page.cookie, none⟩ ∧
      ∀ c, page.cookie = some c → session.Resumes c := by
  have hentries := (Service.entries_checkOut hout).trans hsvc.entries
  have hsearches : d₁.searchesRun ≤ Text.maxSize := by
    have hrun := (Session.spared_page_none hpage).2
    rw [(Service.unasked_checkOut hout).searchesRun] at hrun
    exact Nat.le_trans hrun (Nat.le_of_lt hsvc.searchesRun_lt)
  obtain ⟨text, htext, rfl⟩ := Source.request_ok hrequest
  obtain ⟨filter, search, hparse, hbase, rfl, hdeliver⟩ := Session.page_none_ok hpage
  have hanswer : svc₁.directory.find ⟨source.base, text, source.scope, svc.pool.config.pageSize⟩
      filter = d.answer source filter := by
    rw [Directory.answer_congr hentries, Directory.answer, if_pos hbase]
    rfl
  rw [hanswer] at hdeliver
  have hlength := Nat.le_trans (d.length_answer_le source filter) hsvc.entries_le
  obtain ⟨hrest, hresumes⟩ := Session.append_behind_of_deliver hdeliver
    (Session.results?_remember ..) hsearches hlength
  refine ⟨?_, hresumes⟩
  simp only [Source.outcome, htext, hparse, hrest, List.drop_zero]

lemma opens_start {source : Source} (hsvc : svc.Serves d 1)
    (h : start source svc = (event, s', svc')) :
    s'.Fits ∧ event.Opens svc.Ready (source.outcome d) (s'.outcome snapshots d) := by
  unfold start at h
  cases hrequest : source.request svc.pool.config.pageSize with
  | error e =>
    rw [hrequest] at h
    cases h
    refine ⟨trivial, fun _ => ?_⟩
    rw [Source.outcome, Source.request_error hrequest]
  | ok request =>
    rw [hrequest] at h
    rcases hout : svc.checkOut with ⟨e | lease, svc₁⟩
    · simp only [hout] at h
      cases h
      refine ⟨trivial, fun hready => ?_⟩
      obtain ⟨lease, svc₁, hok, -⟩ := Service.checkOut_of_ready hready
      rw [hok] at hout
      cases hout
    rcases hpage : lease.session.page request none svc₁.directory with ⟨e | page, session, d₁⟩
    · obtain ⟨hnothing, hfailure⟩ := outcome_of_page_error hsvc hrequest hout hpage
      simp only [hout, hpage] at h
      split at h
      · rename_i hacceptable
        cases h
        exact ⟨trivial, hnothing hacceptable⟩
      · rename_i hacceptable
        cases h
        exact ⟨trivial, fun hready => hfailure hready (eq_false_of_ne_true hacceptable)⟩
    · obtain ⟨houtcome, hresumes⟩ := outcome_of_page_ok hsvc hrequest hout hpage
      simp only [hout, hpage] at h
      cases h
      exact ⟨⟨Session.isOpen_of_page_ok hpage, hresumes⟩, houtcome⟩

lemma opens_turnPage {lease : Lease} {request : SearchRequest} {cookie : Cookie}
    (hs : (reading lease request [] (some cookie)).Fits)
    (h : turnPage lease request cookie svc = (event, s', svc')) :
    s'.Fits ∧ event.Opens svc.Ready ((reading lease request [] (some cookie)).outcome snapshots d)
      (s'.outcome snapshots d) := by
  obtain ⟨hopen, hresumes⟩ := hs
  obtain ⟨search, position, results, hdecode, hresults, hlength⟩ := hresumes cookie rfl
  have houtcome : (reading lease request [] (some cookie)).outcome snapshots d =
      ⟨results.drop position, none⟩ := by
    simp only [outcome, Session.behind, hdecode, hresults, Option.getD_some, List.nil_append]
  rw [houtcome]
  rcases hdeliver : lease.session.deliver request.pageSize search results position with
    ⟨page, session⟩
  obtain ⟨hrest, hresumes'⟩ := Session.append_behind_of_deliver hdeliver.symm hresults
    (Cookie.le_of_decode? hdecode).1 hlength
  have hsame : session.isOpen = true := by
    have hconnection :=
      lease.session.sameConnection_deliver request.pageSize search results position
    rw [hdeliver] at hconnection
    rw [hconnection.isOpen, hopen]
  cases hfailure : svc.directory.searchFailure with
  | some e =>
    rw [turnPage, Session.page.eq_def, if_pos hopen] at h
    simp only [Session.nextPage, hfailure] at h
    cases h
    refine ⟨trivial, fun hready => ?_⟩
    rw [hready.healthy] at hfailure
    cases hfailure
  | none =>
    have hstep : turnPage lease request cookie svc = (.pause,
        .reading { lease with session } request page.entries page.cookie, svc) :=
      step_turnPage hopen hfailure hdecode hresults hdeliver
    obtain ⟨rfl, hrest'⟩ := Prod.mk.inj (h.symm.trans hstep)
    obtain ⟨rfl, -⟩ := Prod.mk.inj hrest'
    exact ⟨⟨hsame, hresumes'⟩, congrArg (Outcome.mk · none) hrest.symm⟩

/-- Every step brings about what the outcome opens with, and what is left comes to the rest. -/
theorem opens_step (hs : s.Fits) (hsvc : svc.Serves d s.pending)
    (h : s.step snapshots svc = (event, s', svc')) :
    s'.Fits ∧ event.Opens svc.Ready (s.outcome snapshots d) (s'.outcome snapshots d) := by
  induction s using Stream.induction generalizing event s' svc' with
  | ended =>
    cases h
    exact ⟨trivial, rfl⟩
  | replay entries => cases entries <;> cases h <;> exact ⟨trivial, rfl⟩
  | starting source => exact opens_start hsvc h
  | reading lease request buffer cookie =>
    match buffer, cookie with
    | e :: rest, cookie =>
      cases h
      exact ⟨hs, rfl⟩
    | [], none =>
      cases h
      exact ⟨trivial, rfl⟩
    | [], some cookie => exact opens_turnPage hs h
  | unsorted keys below =>
    cases h
    refine ⟨fits_stream below, ?_⟩
    show (below.outcome snapshots d).sorted keys [] = _
    rw [← outcome_stream]
    rfl
  | sorting keys collected inner ih =>
    refine ⟨?_, opens_sorting (fun hbelow => (ih hs hsvc hbelow).2) h⟩
    obtain ⟨below, inner', svc₁, hbelow, hcase⟩ := step_sorting h
    obtain ⟨-, -, ⟨collected', rfl⟩, -⟩ | ⟨e, -, -, rfl, -⟩ | ⟨-, -, rfl, -⟩ := hcase
    · exact (ih hs hsvc hbelow).1
    · trivial
    · trivial
  | stage inner s hs' ih =>
    rw [fits_stage hs'] at hs
    rw [show s.pending = inner.pending from congrArg Stake.takes (stake_stage hs')] at hsvc
    have ih := @ih
    constructor
    · obtain ⟨below, inner', hbelow, -, hs''⟩ | ⟨-, rfl, -⟩ | ⟨inner', svc₁, -, -, rfl, -⟩ :=
        step_stage hs' h
      · exact (fits_stage hs'').2 (ih hs hsvc hbelow).1
      · trivial
      · trivial
    · have hbelow : ∀ {event s' svc'}, inner.step snapshots svc = (event, s', svc') →
          event.Opens svc.Ready (inner.outcome snapshots d) (s'.outcome snapshots d) :=
        fun hbelow => (ih hs hsvc hbelow).2
      cases hs' with
      | filtered matcher => exact opens_filtered hbelow h
      | annotated annotations => exact opens_annotated hbelow h
      | sliced window position => exact opens_sliced hbelow h
      | selected names => exact opens_selected hbelow h
      | distinct seen => exact opens_distinct hbelow h

/-! ## Streams in order -/

/-- The stream and the service can go on with each other until the stream has come to its
outcome. -/
structure Sound (d : Directory) (s : Stream) (svc : Service) : Prop where
  fits : s.Fits
  serves : svc.Serves d s.pending

/-- A ready service and a stream can go on with each other, if there is room for one more search. -/
lemma Fits.sound (hs : s.Fits) (hready : svc.Ready) (hentries : svc.directory.entries = d.entries)
    (hroom : svc.directory.searchesRun + 1 < Text.maxSize) : s.Sound d svc where
  fits := hs
  serves :=
    { entries := hentries
      entries_le := hentries ▸ hready.entries_le
      searchesRun_lt := by
        have hpending := s.length_sessions_add_pending_le
        omega
      failure := fun _ e he => by
        rw [hready.healthy] at he
        cases he }

/-- On a ready service every query can be started. -/
lemma sound_stream (hready : svc.Ready) (hentries : svc.directory.entries = d.entries)
    (hroom : svc.directory.searchesRun + 1 < Text.maxSize) (q : Query) :
    (q.stream snapshots).Sound d svc :=
  (fits_stream q).sound hready hentries hroom

lemma Sound.spares (hs : s.Sound d svc) (hfits : s'.Fits)
    (h : s.stake.Spares svc s'.stake svc') : s'.Sound d svc' :=
  ⟨hfits, Service.Serves.spares (a := s.stake) hs.serves h⟩

/-- A service that is ready stays so while a stream in order deals with it. -/
lemma Sound.ready (hs : s.Sound d svc) {b : Stake} (h : s.stake.Spares svc b svc')
    (hready : svc.Ready) : svc'.Ready :=
  h.ready h.spared hready hs.fits.isOpen hs.serves.searchesRun_lt

lemma Sound.step (hs : s.Sound d svc) (h : s.step snapshots svc = (event, s', svc')) :
    s'.Sound d svc' ∧ (svc.Ready → svc'.Ready) ∧
      event.Opens svc.Ready (s.outcome snapshots d) (s'.outcome snapshots d) := by
  have hspares := covers_step Stake.covers_spares h
  obtain ⟨hfits, hopens⟩ := opens_step hs.fits hs.serves h
  exact ⟨hs.spares hfits hspares, hs.ready hspares, hopens⟩

end Stream

lemma StreamEvent.Opens.mono {steady steady' : Prop} {o o' : Outcome} {event : StreamEvent}
    (h : event.Opens steady' o o') (hsteady : steady → steady') : event.Opens steady o o' := by
  cases event with
  | fault e => exact fun hs => h (hsteady hs)
  | _ => exact h

namespace Results

variable {d : Directory} {r r' : Results} {w w' : Workspace}

lemma sound_pauses (hr : r.stream.Sound d w.service) (h : r.Pauses w r' w') :
    r'.stream.Sound d w'.service ∧ (w.service.Ready → w'.service.Ready) ∧
      w'.snapshots = w.snapshots ∧
      r.stream.outcome w.snapshots d = r'.stream.outcome w.snapshots d := by
  induction h with
  | refl => exact ⟨hr, id, rfl, rfl⟩
  | step h _ ih =>
    obtain ⟨hr₁, hready, hopens⟩ := hr.step (stream_step h)
    obtain ⟨hr', hready', hsnapshots, houtcome⟩ := ih hr₁
    rw [snapshots_of_step h nofun] at hsnapshots houtcome
    exact ⟨hr', hready' ∘ hready, hsnapshots, Eq.trans hopens houtcome⟩

/-- The answer to a request for the next entry is what the outcome opens with, and what is left
comes to the rest. -/
theorem sound_next {answer : Option (Except QueryError Entry)} (hr : r.stream.Sound d w.service)
    (h : r.next w = (answer, r', w')) :
    r'.stream.Sound d w'.service ∧ (w.service.Ready → w'.service.Ready) ∧
      ∃ event, Answers event answer ∧
        event.Opens w.service.Ready (r.stream.outcome w.snapshots d)
          (r'.stream.outcome w.snapshots d) ∧
        (event.isStop = true → r'.stream.IsSpent) := by
  obtain ⟨r₁, w₁, event, hpauses, hstep, hanswers⟩ := next_pauses h
  obtain ⟨hr₁, hready, hsnapshots, houtcome⟩ := sound_pauses hr hpauses
  obtain ⟨hr', hready', hopens⟩ := hr₁.step (stream_step hstep)
  rw [hsnapshots] at hopens
  rw [houtcome]
  exact ⟨hr', hready' ∘ hready, event, hanswers, hopens.mono hready,
    Stream.isSpent_of_isStop (stream_step hstep)⟩

/-- On a ready service the answers to requests are those of the outcome. -/
theorem next_answer {answer : Option (Except QueryError Entry)} (hr : r.stream.Sound d w.service)
    (hready : w.service.Ready) (h : r.next w = (answer, r', w')) :
    answer = (r.stream.outcome w.snapshots d).answer 0 ∧
      ∀ k, (r'.stream.outcome w.snapshots d).answer k =
        (r.stream.outcome w.snapshots d).answer (k + 1) := by
  obtain ⟨-, -, event, hanswers, hopens, hspent⟩ := sound_next hr h
  exact hopens.answer_eq hready hanswers fun hstop => (hspent hstop).outcome_eq

lemma isSpent_pauses (hr : r.stream.IsSpent) (h : r.Pauses w r' w') : r'.stream.IsSpent := by
  induction h with
  | refl => exact hr
  | step h _ _ =>
    obtain ⟨hevent, -⟩ := hr.step (stream_step h)
    cases hevent

/-- Results that are through answer that nothing is left, whatever has happened meanwhile. -/
lemma next_of_isSpent {answer : Option (Except QueryError Entry)} (hr : r.stream.IsSpent)
    (h : r.next w = (answer, r', w')) : answer = none ∧ r'.stream.IsSpent := by
  obtain ⟨r₁, w₁, event, hpauses, hstep, hanswers⟩ := next_pauses h
  obtain ⟨rfl, hspent, -⟩ := (isSpent_pauses hr hpauses).step (stream_step hstep)
  exact ⟨hanswers, hspent⟩

/-- Keeping a result when nothing is left makes no difference to what is left. -/
lemma outcome_next {answer : Option (Except QueryError Entry)} (h : r.next w = (answer, r', w')) :
    r'.stream.outcome w'.snapshots d = r'.stream.outcome w.snapshots d := by
  cases answer with
  | some answer => rw [snapshots_next_of_some h]
  | none =>
    have hspent := isSpent_next h (by simp)
    rw [hspent.outcome_eq, hspent.outcome_eq]

/-- On a ready service an evaluation takes in the entries of the outcome and ends as it says. -/
lemma foldWithin_outcome {β : Type} (f : β → Entry → β) {steps : Nat} (acc : β)
    (hr : r.stream.Sound d w.service) (hready : w.service.Ready) (hsteps : r.budget w ≤ steps) :
    ∃ w', foldWithin f steps acc r w =
      ((r.stream.outcome w.snapshots d).entries.foldl f acc,
        (r.stream.outcome w.snapshots d).error, w') := by
  induction steps generalizing r w acc with
  | zero => exact absurd hsteps (Nat.not_le_of_lt (Stream.budget_pos r.stream))
  | succ steps ih =>
    rcases hstep : r.step w with ⟨event, r₁, w₁⟩
    obtain ⟨hr₁, hready₁, hopens⟩ := hr.step (stream_step hstep)
    have hkept := snapshots_of_step hstep
    rw [foldWithin, hstep]
    cases event with
    | item e =>
      have hless := budget_lt_of_step hstep rfl (hkept (by simp))
      have hcons : r.stream.outcome w.snapshots d = (r₁.stream.outcome w.snapshots d).cons e :=
        hopens
      have hrest := ih (f acc e) hr₁ (hready₁ hready) (by omega)
      rw [hkept (by simp)] at hrest
      rw [hcons]
      exact hrest
    | fault e =>
      rw [hopens hready]
      exact ⟨_, rfl⟩
    | pause =>
      have hless := budget_step_pause hstep
      have hsame : r.stream.outcome w.snapshots d = r₁.stream.outcome w.snapshots d := hopens
      have hrest := ih acc hr₁ (hready₁ hready) (by omega)
      rw [hkept (by simp)] at hrest
      rw [hsame]
      exact hrest
    | finish =>
      have hnothing : r.stream.outcome w.snapshots d = .nothing := hopens
      rw [hnothing]
      exact ⟨_, rfl⟩

end Results

end DirectoryQuery
