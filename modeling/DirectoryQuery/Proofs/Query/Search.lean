import DirectoryQuery.Proofs.Query.Delivery
import DirectoryQuery.Proofs.Query.Health

/-!
# What a search finds

A service is ready when nothing keeps it from answering: some server can be reached and accepts the
credentials, the idle sessions are open, as they are while the books of the service are in order
(`Service.Balanced`), and no request was set up to fail.  A session then comes out of the pool
(`Service.checkOut_of_ready`), the pages that it reads make up the results of the search whatever
their size (`Stream.delivers_page`), and the stream of a search delivers what the directory answers
(`Stream.delivers_starting`).

Cookies hold numbers of 64 bits, so a service counts as ready only while the searches that were run
and the entries can be numbered.
-/

namespace DirectoryQuery

/-! ## Sessions for a search -/

namespace Directory

/-- The directory answers searches as before. -/
structure SameAnswers (d d' : Directory) : Prop where
  entries : d'.entries = d.entries
  searchFailure : d'.searchFailure = d.searchFailure
  searchesRun : d'.searchesRun = d.searchesRun

variable {d : Directory} {server identity secret : String}

lemma bind_of_down (h : d.down.contains server = true) :
    d.bind server identity secret = (.error (.connection (server ++ " unreachable")),
      { d with bindAttempts := d.bindAttempts ++ [server] }) := by
  rw [bind]
  simp only [h, if_true]

lemma bind_of_up (h : d.down.contains server = false)
    (haccepts : d.accepts identity secret = true) :
    d.bind server identity secret = (.ok ⟨d.sessionsBound, [], true⟩,
      { d with
        bindAttempts := d.bindAttempts ++ [server]
        openSessions := d.openSessions + 1
        sessionsBound := d.sessionsBound + 1 }) := by
  have hsame : ({ d with bindAttempts := d.bindAttempts ++ [server] } : Directory).accepts identity
      secret = true := haccepts
  rw [bind]
  simp only [h, hsame, if_true]
  rfl

/-- One server that can be reached is enough. -/
lemma bindFirst_of_up (tried : Nat) {servers : List String}
    (h : ∃ server ∈ servers, d.down.contains server = false)
    (haccepts : d.accepts identity secret = true) :
    ∃ s d', d.bindFirst identity secret tried servers = (.ok s, d') ∧ s.isOpen = true := by
  induction servers generalizing d with
  | nil =>
    obtain ⟨server, hserver, -⟩ := h
    exact absurd hserver List.not_mem_nil
  | cons server servers ih =>
    unfold bindFirst
    cases hdown : d.down.contains server with
    | false =>
      rw [bind_of_up hdown haccepts]
      exact ⟨_, _, rfl, rfl⟩
    | true =>
      rw [bind_of_down hdown]
      obtain ⟨other, hother, hup⟩ := h
      obtain rfl | hother := List.mem_cons.1 hother
      · rw [hdown] at hup
        cases hup
      · exact ih (d := { d with bindAttempts := d.bindAttempts ++ [server] }) ⟨other, hother, hup⟩
          haccepts

end Directory

namespace Service

/-- Nothing keeps the service from answering a search. -/
structure Ready (svc : Service) : Prop where
  healthy : svc.directory.searchFailure = none
  idleOpen : ∀ s ∈ svc.pool.idle, s.isOpen = true
  reachable : ∃ server ∈ svc.pool.config.candidates, svc.directory.down.contains server = false
  accepted : svc.directory.accepts svc.pool.config.bindName svc.pool.config.password = true
  entries_le : svc.directory.entries.length ≤ Text.maxSize
  searchesRun_lt : svc.directory.searchesRun < Text.maxSize

/-- A ready service hands out an open session. -/
lemma checkOut_of_ready {svc : Service} (h : svc.Ready) :
    ∃ lease svc', svc.checkOut = (.ok lease, svc') ∧ lease.session.isOpen = true := by
  cases hidle : svc.pool.idle with
  | cons s rest =>
    have hopen := h.idleOpen s (by rw [hidle]; exact List.mem_cons_self)
    refine ⟨⟨s, .release⟩,
      { svc with pool := { svc.pool with idle := rest, reused := svc.pool.reused + 1 } }, ?_, hopen⟩
    rw [checkOut, acquire, acquireFrom]
    simp only [hidle]
  | nil =>
    obtain ⟨s, d, hbind, hopen⟩ := Directory.bindFirst_of_up svc.pool.config.candidates.length
      h.reachable h.accepted
    refine ⟨⟨s, .release⟩, ⟨d, { svc.pool with created := svc.pool.created + 1 }⟩, ?_, hopen⟩
    rw [checkOut, acquire, acquireFrom]
    simp only [hidle, hbind]

/-- Taking a session out of the pool does not change what searches are answered. -/
lemma sameAnswers_checkOut {svc svc' : Service} {result : Except DirectoryError Lease}
    (h : svc.checkOut = (result, svc')) : svc.directory.SameAnswers svc'.directory :=
  ⟨entries_checkOut h, (unasked_checkOut h).searchFailure, (unasked_checkOut h).searchesRun⟩

end Service

/-! ## Pages -/

namespace Stream

variable {snapshots : Snapshots} {svc : Service}

lemma delivers_buffer {lease : Lease} {request : SearchRequest} {cookie : Option Cookie}
    {rest : List Entry} (h : (reading lease request [] cookie).Delivers snapshots svc rest)
    (buffer : List Entry) :
    (reading lease request buffer cookie).Delivers snapshots svc (buffer ++ rest) := by
  induction buffer with
  | nil => exact h
  | cons e buffer ih => exact .item rfl ih

lemma step_turnPage {lease : Lease} {request : SearchRequest} {session : Session} {page : Page}
    {cookie : Cookie} {search position : Nat} {results : List Entry}
    (hopen : lease.session.isOpen = true) (hhealthy : svc.directory.searchFailure = none)
    (hdecode : cookie.decode? = some (search, position))
    (hresults : lease.session.results? search = some results)
    (h : lease.session.deliver request.pageSize search results position = (page, session)) :
    turnPage lease request cookie svc =
      (.pause, .reading { lease with session } request page.entries page.cookie, svc) := by
  rw [turnPage, Session.page.eq_def, if_pos hopen]
  simp only [Session.nextPage, hhealthy, hdecode, hresults, h]

/-- From a page on, a search delivers the rest of its results. -/
lemma delivers_page {lease : Lease} {request : SearchRequest} {session session' : Session}
    {page : Page} {search position : Nat} {results : List Entry} (hopen : session.isOpen = true)
    (hhealthy : svc.directory.searchFailure = none) (hsearch : search ≤ Text.maxSize)
    (hlength : results.length ≤ Text.maxSize) (hresults : session.results? search = some results)
    (h : session.deliver request.pageSize search results position = (page, session')) :
    (reading { lease with session := session' } request page.entries page.cookie).Delivers snapshots
      svc (results.drop position) := by
  -- Each page starts behind the one before it, so what is left gets shorter.
  induction hleft : results.length - position using Nat.strongRecOn
    generalizing lease position page session' with
  | ind left ih =>
    obtain hlast | ⟨next, hposition, hnext, hmore⟩ :=
      session.deliver_cases request.pageSize search results position
    · obtain ⟨rfl, rfl⟩ := Prod.mk.inj (h.symm.trans hlast)
      have hend : (reading { lease with session := session.forget search } request []
          none).Delivers snapshots svc [] := .finish rfl
      have hlast := delivers_buffer hend (results.drop position)
      rw [List.append_nil] at hlast
      exact hlast
    · obtain ⟨rfl, hsame⟩ := Prod.mk.inj (h.symm.trans hmore)
      rw [hsame]
      rcases hturn : session.deliver request.pageSize search results next with ⟨page, session'⟩
      have hdecode : (Cookie.encode search next).decode? = some (search, next) := by
        rw [Cookie.decode?_encode, if_pos ⟨hsearch, by omega⟩]
      have hrest : (reading { lease with session := session' } request page.entries
          page.cookie).Delivers snapshots svc (results.drop next) :=
        ih (results.length - next) (by omega) hturn rfl
      have hbegins : position ≤ (results.take next).length := by
        rw [List.length_take]
        omega
      rw [← List.take_append_drop next results, List.drop_append_of_le_length hbegins,
        List.take_append_drop]
      have hstep : (reading { lease with session } request [] (some (.encode search next))).step
          snapshots svc =
            (.pause, .reading { lease with session := session' } request page.entries page.cookie,
              svc) :=
        step_turnPage hopen hhealthy hdecode hresults hturn
      exact delivers_buffer (.pause hstep hrest) _

end Stream

/-! ## Searches -/

/-- What the directory answers to a search whose filter was read.  Nothing is found at a base that
is not there. -/
def Directory.answer (d : Directory) (source : Source) (filter : SearchFilter) : List Entry :=
  if d.hasBase source.base then
    d.entries.filter fun e => source.scope.covers source.base e.dn && filter.holds e
  else []

lemma Directory.length_answer_le (d : Directory) (source : Source) (filter : SearchFilter) :
    (d.answer source filter).length ≤ d.entries.length := by
  rw [answer]
  split
  · exact List.length_filter_le _ _
  · exact Nat.zero_le _

lemma Directory.search_of_healthy {d : Directory} {request : SearchRequest} {filter : SearchFilter}
    (hhealthy : d.searchFailure = none) (hfilter : SearchFilter.parse request.filter = .ok filter) :
    d.search request =
      (if d.hasBase request.base then .ok (d.find request filter)
        else .error (.noSuchObject request.base),
        { d with searches := d.searches ++ [request] }) := by
  have hread : readFilter request.filter = .ok filter := by
    rw [readFilter, hfilter]
    rfl
  unfold search
  simp only [hhealthy, hread]
  split
  · rename_i hbase
    have hbase' : d.hasBase request.base = true := hbase
    rw [if_pos hbase']
    rfl
  · rename_i hbase
    have hbase' : ¬ d.hasBase request.base = true := hbase
    rw [if_neg hbase']

lemma Directory.search_of_unreadable {d : Directory} {request : SearchRequest}
    {e : SearchFilter.ParseError} (hhealthy : d.searchFailure = none)
    (hfilter : SearchFilter.parse request.filter = .error e) :
    d.search request =
      (.error (.protocol e.message), { d with searches := d.searches ++ [request] }) := by
  have hread : readFilter request.filter = .error (.protocol e.message) := by
    rw [readFilter, hfilter]
    rfl
  unfold search
  simp only [hhealthy, hread]

lemma Directory.hasBase_congr {d d' : Directory} (h : d'.entries = d.entries) (base : String) :
    d'.hasBase base = d.hasBase base := by
  rw [hasBase, hasBase, h]

lemma Directory.answer_congr {d d' : Directory} (h : d'.entries = d.entries) (source : Source)
    (filter : SearchFilter) : d.answer source filter = d'.answer source filter := by
  rw [answer, answer, hasBase_congr h, h]

lemma Source.request_of_filterText {s : Source} {text : String} (h : s.filterText = .ok text)
    (pageSize : Nat) : s.request pageSize = .ok ⟨s.base, text, s.scope, pageSize⟩ := by
  rw [request, h]
  rfl

namespace Stream

variable (snapshots : Snapshots) {svc svc₁ : Service} {source : Source} {text : String}
  {filter : SearchFilter} {lease : Lease} (htext : source.filterText = .ok text)
  (hfilter : SearchFilter.parse text = .ok filter) (hout : svc.checkOut = (.ok lease, svc₁))
  (hopen : lease.session.isOpen = true) (hhealthy : svc₁.directory.searchFailure = none)
include htext hfilter hout hopen hhealthy

lemma step_starting_of_base (hbase : svc₁.directory.hasBase source.base = true) :
    ∃ request session page, source.request svc.pool.config.pageSize = .ok request ∧
      (starting source).step snapshots svc = (.pause,
        .reading { lease with session } request page.entries page.cookie,
        { svc₁ with
          directory.searches := svc₁.directory.searches ++ [request]
          directory.searchesRun := svc₁.directory.searchesRun + 1 }) ∧
      (lease.session.remember (svc₁.directory.searchesRun + 1)
          (svc₁.directory.answer source filter)).deliver request.pageSize
        (svc₁.directory.searchesRun + 1) (svc₁.directory.answer source filter) 0 =
          (page, session) := by
  let request : SearchRequest := ⟨source.base, text, source.scope, svc.pool.config.pageSize⟩
  have hrequest : source.request svc.pool.config.pageSize = .ok request :=
    Source.request_of_filterText htext _
  have hread : SearchFilter.parse request.filter = .ok filter := hfilter
  have hsearch := Directory.search_of_healthy hhealthy hread
  have hanswer : svc₁.directory.find request filter = svc₁.directory.answer source filter := by
    rw [Directory.answer, hbase, if_pos rfl]
    rfl
  rw [if_pos hbase, hanswer] at hsearch
  rcases hdeliver : (lease.session.remember (svc₁.directory.searchesRun + 1)
    (svc₁.directory.answer source filter)).deliver request.pageSize
      (svc₁.directory.searchesRun + 1) (svc₁.directory.answer source filter) 0 with ⟨page, session⟩
  refine ⟨request, session, page, hrequest, ?_, hdeliver⟩
  rw [step, start]
  simp only [hrequest, hout, Session.page.eq_def, if_pos hopen, Session.firstPage, hsearch,
    hdeliver]

lemma step_starting_of_no_base (hbase : svc₁.directory.hasBase source.base = false) :
    ∃ request lease', source.request svc.pool.config.pageSize = .ok request ∧
      (starting source).step snapshots svc = (.finish, .ended,
        { svc₁ with
          directory.searches := svc₁.directory.searches ++ [request] }.giveBack lease') := by
  let request : SearchRequest := ⟨source.base, text, source.scope, svc.pool.config.pageSize⟩
  have hrequest : source.request svc.pool.config.pageSize = .ok request :=
    Source.request_of_filterText htext _
  have hread : SearchFilter.parse request.filter = .ok filter := hfilter
  have hsearch := Directory.search_of_healthy hhealthy hread
  rw [hbase, if_neg Bool.false_ne_true] at hsearch
  have hacceptable : (DirectoryError.noSuchObject request.base).isAcceptable = true := rfl
  rw [step, start]
  simp only [hrequest, hout, Session.page.eq_def, if_pos hopen, Session.firstPage, hsearch,
    hacceptable, if_true]
  exact ⟨request, _, rfl, rfl⟩

end Stream

/-- On a ready service, the stream of a search delivers what the directory answers. -/
theorem Stream.delivers_starting {snapshots : Snapshots} {svc : Service} (h : svc.Ready)
    {source : Source} {text : String} {filter : SearchFilter}
    (htext : source.filterText = .ok text) (hfilter : SearchFilter.parse text = .ok filter) :
    (starting source).Delivers snapshots svc (svc.directory.answer source filter) := by
  obtain ⟨lease, svc₁, hout, hopen⟩ := Service.checkOut_of_ready h
  have hanswers := Service.sameAnswers_checkOut hout
  have hhealthy : svc₁.directory.searchFailure = none := hanswers.searchFailure.trans h.healthy
  rw [Directory.answer_congr hanswers.entries]
  cases hbase : svc₁.directory.hasBase source.base with
  | false =>
    obtain ⟨request, lease', -, hstep⟩ :=
      step_starting_of_no_base snapshots htext hfilter hout hopen hhealthy hbase
    rw [Directory.answer, hbase]
    exact .finish hstep
  | true =>
    obtain ⟨request, session, page, -, hstep, hdeliver⟩ :=
      step_starting_of_base snapshots htext hfilter hout hopen hhealthy hbase
    have hsearch : svc₁.directory.searchesRun + 1 ≤ Text.maxSize := by
      rw [hanswers.searchesRun]
      exact h.searchesRun_lt
    have hlength : (svc₁.directory.answer source filter).length ≤ Text.maxSize := by
      rw [← Directory.answer_congr hanswers.entries]
      exact Nat.le_trans (Directory.length_answer_le ..) h.entries_le
    have hhealthy' : ({ svc₁ with
        directory.searches := svc₁.directory.searches ++ [request]
        directory.searchesRun :=
          svc₁.directory.searchesRun + 1 } : Service).directory.searchFailure = none := hhealthy
    have hopen' : (lease.session.remember (svc₁.directory.searchesRun + 1)
        (svc₁.directory.answer source filter)).isOpen = true := hopen
    exact .pause hstep
      (delivers_page hopen' hhealthy' hsearch hlength (Session.results?_remember ..) hdeliver)

end DirectoryQuery
