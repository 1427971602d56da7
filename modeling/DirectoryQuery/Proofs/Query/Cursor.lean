import DirectoryQuery.Proofs.Query.Readiness
import DirectoryQuery.Proofs.Query.Turns

/-!
# Reading a search page by page

A `Cursor` is a search that somebody reads entry by entry, with an account of what was answered, of
the pages that were asked for and of what the directory recorded meanwhile.  Between two requests
others may do to the workspace what they like, as long as they do not set up a failure.

The results of a search are fixed with its first page.  `Cursor.Stands` says how far a cursor has
got with them: what it was answered, what is left on its page, and which pages are still to come.
Every request keeps this (`Cursor.Stands.poll`), and `Cursor.reads_search` says what a cursor makes
of a search in the end.
-/

namespace DirectoryQuery

/-- A search that is read entry by entry, and the account of it. -/
structure Cursor where
  results : Results
  workspace : Workspace
  /-- The answers so far, in order. -/
  answers : List (Option (Except QueryError Entry))
  /-- The pages that were asked for, in order. -/
  pages : List (List Entry)
  /-- The searches that the directory recorded while the cursor was asked. -/
  searches : List SearchRequest
  /-- The number of searches that were abandoned while the cursor was asked. -/
  abandoned : Nat

namespace Cursor

/-- What can happen to a cursor: it is asked for the next entry, or others change the workspace. -/
inductive Event where
  | poll
  | others (change : Workspace → Workspace)

/-- Nothing that happens sets up a failure. -/
def Event.IsHarmless : Event → Prop
  | .poll => True
  | .others change =>
    ∀ w, w.service.directory.Healthy → (change w).service.directory.Healthy

/-- Somebody adds an entry to the directory. -/
def Event.add (e : Entry) : Event :=
  .others fun w => { w with service.directory := w.service.directory.add e }

/-- Other results of the workspace are asked for their next entry. -/
def Event.next (r : Results) : Event :=
  .others fun w => (r.next w).2.2

/-- Other results of the workspace end early, which abandons a search with pages left. -/
def Event.close (r : Results) : Event :=
  .others r.close

@[simp]
lemma Event.isHarmless_poll : Event.poll.IsHarmless := trivial

@[simp]
lemma Event.isHarmless_add (e : Entry) : (Event.add e).IsHarmless :=
  fun _ hw => hw

@[simp]
lemma Event.isHarmless_next (r : Results) : (Event.next r).IsHarmless :=
  fun _ hw => (Results.covers_next Stake.covers_spares rfl).spared.healthy hw

@[simp]
lemma Event.isHarmless_close (r : Results) : (Event.close r).IsHarmless :=
  fun _ hw => (Stream.covers_close Stake.covers_spares r.stream).spared.healthy hw

/-- A cursor that was not asked for anything yet. -/
def ofSource (source : Source) (recorder : Option Recorder) (w : Workspace) : Cursor where
  results := ⟨.starting source, recorder⟩
  workspace := w
  answers := []
  pages := []
  searches := []
  abandoned := 0

/-- The cursor after it was asked for the next entry, the account brought up to date by what the
directory recorded. -/
def poll (c : Cursor) : Cursor :=
  let (answer, results, workspace) := c.results.next c.workspace
  let before := c.workspace.service.directory
  let after := workspace.service.directory
  { results
    workspace
    answers := c.answers ++ [answer]
    pages := c.pages ++ c.results.pages c.workspace
    searches := c.searches ++ after.searches.drop before.searches.length
    abandoned := c.abandoned + (after.abandoned - before.abandoned) }

def step (c : Cursor) : Event → Cursor
  | .poll => c.poll
  | .others change => { c with workspace := change c.workspace }

def run (c : Cursor) (events : List Event) : Cursor :=
  events.foldl step c

variable {found : List Entry} {request : SearchRequest} {c : Cursor}

/-- How far a cursor has got with the results of a search. -/
inductive Place (found : List Entry) (request : SearchRequest) (c : Cursor) : Prop
  /-- It was told that nothing is left. -/
  | over (hstream : c.results.stream = .ended) (hread : found.length < c.answers.length)
    (hpages : c.pages = Session.pagesOf request.pageSize found)
  /-- It has the last page. -/
  | last (lease : Lease)
    (hstream : c.results.stream = .reading lease request (found.drop c.answers.length) none)
    (hread : c.answers.length ≤ found.length)
    (hpages : c.pages = Session.pagesOf request.pageSize found)
  /-- It has a page that ends at a position, and a cookie for what is behind. -/
  | page (lease : Lease) (search position : Nat)
    (hstream : c.results.stream = .reading lease request
      ((found.take position).drop c.answers.length) (some (.encode search position)))
    (hread : c.answers.length ≤ position) (hposition : position < found.length)
    (hopen : lease.session.isOpen = true) (hresults : lease.session.results? search = some found)
    (hsearch : search ≤ Text.maxSize)
    (hpages : c.pages ++ Session.pagesOf request.pageSize (found.drop position) =
      Session.pagesOf request.pageSize found)

/-- A cursor reads the results of a search: it was answered these in order and from their end on
that nothing is left, one search was recorded, and none was abandoned. -/
structure Stands (found : List Entry) (request : SearchRequest) (c : Cursor) : Prop where
  healthy : c.workspace.service.directory.Healthy
  answers : c.answers = (List.range c.answers.length).map fun k => found[k]?.map .ok
  searches : c.searches = [request]
  abandoned : c.abandoned = 0
  place : c.Place found request

/-- What a request for the next entry adds to the account of a cursor. -/
lemma poll_of_turns {event : StreamEvent} {answer : Option (Except QueryError Entry)}
    {pages : List (List Entry)} {s' : Stream} {svc' : Service}
    (hturns : c.results.Turns c.workspace event pages s' svc')
    (hanswer : Results.Answers event answer) :
    c.poll.results.stream = s' ∧ c.poll.workspace.service = svc' ∧
      c.poll.answers = c.answers ++ [answer] ∧ c.poll.pages = c.pages ++ pages ∧
      c.poll.searches = c.searches ++
        svc'.directory.searches.drop c.workspace.service.directory.searches.length ∧
      c.poll.abandoned = c.abandoned +
        (svc'.directory.abandoned - c.workspace.service.directory.abandoned) := by
  obtain ⟨answer', r', w', hanswer', hnext, rfl, rfl, rfl⟩ := hturns
  obtain rfl := Results.eq_of_answers hanswer hanswer'
  rw [poll, hnext]
  exact ⟨rfl, rfl, rfl, rfl, rfl, rfl⟩

/-- An answer that follows the results, given without a search, leaves a cursor where it should
be. -/
lemma Stands.of_turns (hc : c.Stands found request) {event : StreamEvent}
    {pages : List (List Entry)} {s' : Stream} {svc' : Service}
    (hturns : c.results.Turns c.workspace event pages s' svc')
    (hunasked : c.workspace.service.directory.Unasked svc'.directory)
    (hanswer : Results.Answers event (found[c.answers.length]?.map .ok))
    (hplace : ∀ c' : Cursor, c'.results.stream = s' → c'.answers.length = c.answers.length + 1 →
      c'.pages = c.pages ++ pages → c'.Place found request) : c.poll.Stands found request := by
  obtain ⟨hstream, hservice, hanswers, hpages, hsearches, habandoned⟩ :=
    poll_of_turns hturns hanswer
  have hlength : c.poll.answers.length = c.answers.length + 1 := by
    rw [hanswers, List.length_append, List.length_singleton]
  refine ⟨?_, ?_, ?_, ?_, hplace c.poll hstream hlength hpages⟩
  · rw [hservice]
    exact hunasked.healthy hc.healthy
  · rw [hlength, List.range_succ, List.map_append, ← hc.answers, hanswers]
    rfl
  · rw [hsearches, hunasked.searches, List.drop_length, List.append_nil, hc.searches]
  · rw [habandoned, hunasked.abandoned, Nat.sub_self, hc.abandoned]

/-- An entry of the page is answered without asking the directory. -/
lemma Stands.of_buffer (hc : c.Stands found request) {lease : Lease} {e : Entry}
    {rest : List Entry} {cookie : Option Cookie}
    (hstream : c.results.stream = .reading lease request (e :: rest) cookie)
    (he : found[c.answers.length]? = some e)
    (hplace : ∀ c' : Cursor, c'.results.stream = .reading lease request rest cookie →
      c'.answers.length = c.answers.length + 1 → c'.pages = c.pages → c'.Place found request) :
    c.poll.Stands found request := by
  have hstep : c.results.stream.step c.workspace.snapshots c.workspace.service =
      (.item e, .reading lease request rest cookie, c.workspace.service) := by
    rw [hstream]
    rfl
  have hturns := Results.turns_of_step hstep (by simp)
  rw [hstream] at hturns
  refine hc.of_turns hturns (.refl _) ?_ fun c' hstream' hlength' hpages' => ?_
  · rw [he]
    rfl
  · exact hplace c' hstream' hlength' (hpages'.trans (List.append_nil _))

/-- Behind the last entry a cursor is told that nothing is left. -/
lemma Stands.of_finish (hc : c.Stands found request) {svc' : Service}
    (hstep : c.results.stream.step c.workspace.snapshots c.workspace.service =
      (.finish, .ended, svc'))
    (hasks : c.results.stream.asks = false)
    (hunasked : c.workspace.service.directory.Unasked svc'.directory)
    (hread : found.length ≤ c.answers.length)
    (hpages : c.pages = Session.pagesOf request.pageSize found) :
    c.poll.Stands found request := by
  have hturns := Results.turns_of_step hstep (by simp)
  rw [Stream.asked, hasks] at hturns
  refine hc.of_turns hturns hunasked ?_ fun c' hstream' hlength' hpages' => ?_
  · rw [List.getElem?_eq_none hread]
    rfl
  · refine .over hstream' (by omega) ?_
    rw [hpages', hpages]
    exact List.append_nil _

/-- A step that gets a page with an entry on it is followed by one that hands out the entry, and
the cursor is then on that page. -/
lemma exists_turns_of_page {r : Results} {w : Workspace} {lease : Lease} {session : Session}
    {search position : Nat} {page : Page} {svc' : Service}
    (hturn : r.stream.step w.snapshots w.service =
      (.pause, .reading lease request page.entries page.cookie, svc'))
    (hasks : r.stream.asks = true) (hopen : session.isOpen = true)
    (hresults : session.results? search = some found) (hsearch : search ≤ Text.maxSize)
    (hdeliver : session.deliver request.pageSize search found position = (page, lease.session))
    (hposition : position < found.length) :
    ∃ s', r.Turns w (.item found[position]) [page.entries] s' svc' ∧
      ∀ c : Cursor, c.results.stream = s' → c.answers.length = position + 1 →
        (∃ before, c.pages = before ++ [page.entries] ∧
          before ++ Session.pagesOf request.pageSize (found.drop position) =
            Session.pagesOf request.pageSize found) → c.Place found request := by
  have hitem : ∀ rest, page.entries = found[position] :: rest →
      r.Turns w (.item found[position]) [page.entries] (.reading lease request rest page.cookie)
        svc' := by
    intro rest hentries
    have hstep : (Stream.reading lease request page.entries page.cookie).step w.snapshots svc' =
        (.item found[position], .reading lease request rest page.cookie, svc') := by
      rw [hentries]
      rfl
    have hturns := Results.turns_of_pause hturn hstep (by simp)
    rw [hentries, Stream.asked, if_pos hasks] at hturns
    rw [hentries]
    exact hturns
  obtain ⟨hentries, hcookie, hlast⟩ | ⟨next, hnext, hmore, hsession, hentries, hcookie, hrest⟩ :=
    Session.deliver_pages hdeliver
  · refine ⟨_, hitem (found.drop (position + 1)) ?_, fun c hstream hread hpages => ?_⟩
    · rw [hentries]
      exact List.drop_eq_getElem_cons hposition
    · obtain ⟨before, hpages, hbefore⟩ := hpages
      refine .last lease ?_ (by omega) ?_
      · rw [hstream, hread, hcookie]
      · rw [hpages, ← hlast, hbefore]
  · have hlt : position < (found.take next).length := by
      rw [List.length_take]
      omega
    refine ⟨_, hitem ((found.take next).drop (position + 1)) ?_, fun c hstream hread hpages => ?_⟩
    · rw [hentries, List.drop_eq_getElem_cons hlt, List.getElem_take]
    · obtain ⟨before, hpages, hbefore⟩ := hpages
      refine .page lease search next ?_ (by omega) hmore ?_ ?_ hsearch ?_
      · rw [hstream, hread, hcookie]
      · rw [hsession, hopen]
      · rw [hsession, hresults]
      · rw [hpages, List.append_assoc, List.singleton_append, ← hrest, hbefore]

/-- Behind the end of a page the next one is asked for. -/
lemma Stands.of_turnPage (hc : c.Stands found request) (hlength : found.length ≤ Text.maxSize)
    {lease : Lease} {search : Nat}
    (hstream : c.results.stream =
      .reading lease request [] (some (.encode search c.answers.length)))
    (hread : c.answers.length < found.length) (hopen : lease.session.isOpen = true)
    (hresults : lease.session.results? search = some found) (hsearch : search ≤ Text.maxSize)
    (hpages : c.pages ++ Session.pagesOf request.pageSize (found.drop c.answers.length) =
      Session.pagesOf request.pageSize found) : c.poll.Stands found request := by
  rcases hdeliver : lease.session.deliver request.pageSize search found c.answers.length with
    ⟨page, session⟩
  have hdecode : (Cookie.encode search c.answers.length).decode? =
      some (search, c.answers.length) := by
    rw [Cookie.decode?_encode, if_pos ⟨hsearch, by omega⟩]
  have hturn : c.results.stream.step c.workspace.snapshots c.workspace.service = (.pause,
      .reading { lease with session } request page.entries page.cookie, c.workspace.service) := by
    rw [hstream]
    exact Stream.step_turnPage hopen hc.healthy hdecode hresults hdeliver
  have hasks : c.results.stream.asks = true := by
    rw [hstream]
    rfl
  obtain ⟨s', hturns, hplace⟩ :=
    exists_turns_of_page hturn hasks hopen hresults hsearch hdeliver hread
  refine hc.of_turns hturns (.refl _) ?_ fun c' hstream' hlength' hpages' =>
    hplace c' hstream' hlength' ⟨c.pages, hpages', hpages⟩
  rw [List.getElem?_eq_getElem hread]
  rfl

/-- Being asked for the next entry keeps a cursor where it should be. -/
theorem Stands.poll (hc : c.Stands found request) (hlength : found.length ≤ Text.maxSize) :
    c.poll.Stands found request := by
  rcases hc.place with ⟨hstream, hread, hpages⟩ | ⟨lease, hstream, hread, hpages⟩ |
    ⟨lease, search, position, hstream, hread, hposition, hopen, hresults, hsearch, hpages⟩
  · have hstep : c.results.stream.step c.workspace.snapshots c.workspace.service =
        (.finish, .ended, c.workspace.service) := by
      rw [hstream]
      rfl
    exact hc.of_finish hstep (by rw [hstream]; rfl) (.refl _) (Nat.le_of_lt hread) hpages
  · by_cases hmore : c.answers.length < found.length
    · rw [List.drop_eq_getElem_cons hmore] at hstream
      refine hc.of_buffer hstream (List.getElem?_eq_getElem hmore)
        fun c' hstream' hlength' hpages' => ?_
      refine .last lease ?_ (by omega) (hpages'.trans hpages)
      rw [hstream', hlength']
    · rw [Nat.not_lt] at hmore
      rw [List.drop_eq_nil_of_le hmore] at hstream
      have hstep : c.results.stream.step c.workspace.snapshots c.workspace.service =
          (.finish, .ended, c.workspace.service.giveBack lease) := by
        rw [hstream]
        rfl
      exact hc.of_finish hstep (by rw [hstream]; rfl) (Service.unasked_giveBack _ lease) hmore
        hpages
  · by_cases hmore : c.answers.length < position
    · have hlt : c.answers.length < (found.take position).length := by
        rw [List.length_take]
        omega
      rw [List.drop_eq_getElem_cons hlt] at hstream
      have he : found[c.answers.length]? = some (found.take position)[c.answers.length] := by
        rw [List.getElem_take]
        exact List.getElem?_eq_getElem (by omega)
      refine hc.of_buffer hstream he fun c' hstream' hlength' hpages' => ?_
      refine .page lease search position ?_ (by omega) hposition hopen hresults hsearch ?_
      · rw [hstream', hlength']
      · rw [hpages', hpages]
    · obtain rfl : c.answers.length = position := by omega
      have hnil : (found.take c.answers.length).drop c.answers.length = [] :=
        List.drop_eq_nil_of_le (List.length_take_le _ _)
      rw [hnil] at hstream
      exact hc.of_turnPage hlength hstream hposition hopen hresults hsearch hpages

/-- A cursor stands where it should after its first request, if that recorded its search. -/
lemma stands_of_start {source : Source} {recorder : Option Recorder} {w : Workspace}
    {event : StreamEvent} {pages : List (List Entry)} {s' : Stream} {svc' : Service}
    (hturns : Results.Turns ⟨.starting source, recorder⟩ w event pages s' svc')
    (hhealthy : svc'.directory.Healthy)
    (hsearches : svc'.directory.searches = w.service.directory.searches ++ [request])
    (habandoned : svc'.directory.abandoned = w.service.directory.abandoned)
    (hanswer : Results.Answers event (found[0]?.map .ok))
    (hplace : ∀ c : Cursor, c.results.stream = s' → c.answers.length = 1 → c.pages = pages →
      c.Place found request) : (ofSource source recorder w).poll.Stands found request := by
  obtain ⟨hstream, hservice, hanswers, hpages, hrecorded, hleft⟩ :=
    poll_of_turns (c := ofSource source recorder w) hturns hanswer
  have hlength : (ofSource source recorder w).poll.answers.length = 1 := by
    rw [hanswers]
    rfl
  refine ⟨?_, ?_, ?_, ?_, hplace _ hstream hlength hpages⟩
  · rw [hservice]
    exact hhealthy
  · rw [hlength, hanswers]
    rfl
  · rw [hrecorded, hsearches]
    exact List.drop_left
  · rw [hleft, habandoned]
    exact (Nat.zero_add _).trans (Nat.sub_self _)

section Start

variable {source : Source} {text : String} {filter : SearchFilter} {recorder : Option Recorder}
  {w : Workspace} {lease : Lease} {svc : Service} (htext : source.filterText = .ok text)
  (hfilter : SearchFilter.parse text = .ok filter)
  (hrequest : source.request w.service.pool.config.pageSize = .ok request)
  (hout : w.service.checkOut = (.ok lease, svc)) (hopen : lease.session.isOpen = true)
  (hhealthy : svc.directory.Healthy)
include htext hfilter hrequest hout hopen hhealthy

lemma stands_of_base (hsearches : w.service.directory.searchesRun < Text.maxSize)
    (hbase : svc.directory.hasBase source.base = true) :
    (ofSource source recorder w).poll.Stands (svc.directory.answer source filter) request := by
  obtain ⟨request', session, page, hrequest', hstep, hdeliver⟩ :=
    Stream.step_starting_of_base w.snapshots htext hfilter hout hopen hhealthy hbase
  obtain rfl := Except.ok.inj (hrequest.symm.trans hrequest')
  have hunasked := Service.unasked_checkOut hout
  have hrecorded : svc.directory.searches ++ [request] =
      w.service.directory.searches ++ [request] := by
    rw [hunasked.searches]
  generalize svc.directory.answer source filter = found at hdeliver ⊢
  by_cases hfound : 0 < found.length
  · have hopen' : (lease.session.remember (svc.directory.searchesRun + 1) found).isOpen = true :=
      hopen
    have hsearch : svc.directory.searchesRun + 1 ≤ Text.maxSize := by
      rw [hunasked.searchesRun]
      exact hsearches
    obtain ⟨s', hturns, hplace⟩ := exists_turns_of_page (r := ⟨.starting source, recorder⟩) hstep
      rfl hopen' (Session.results?_remember ..) hsearch hdeliver hfound
    refine stands_of_start hturns hhealthy hrecorded hunasked.abandoned ?_
      fun c hstream hlength hpages => hplace c hstream hlength ⟨[], hpages, rfl⟩
    rw [List.getElem?_eq_getElem hfound]
    rfl
  · obtain rfl : found = [] := by
      rwa [Nat.not_lt, Nat.le_zero, List.length_eq_zero_iff] at hfound
    -- The only page is empty, and the session goes back at once.
    obtain ⟨hentries, hcookie, -⟩ | ⟨next, -, hmore, -⟩ := Session.deliver_pages hdeliver
    · rw [hentries, hcookie] at hstep
      have hback := Service.unasked_giveBack { svc with
        directory.searches := svc.directory.searches ++ [request]
        directory.searchesRun := svc.directory.searchesRun + 1 } { lease with session }
      have hturns := Results.turns_of_pause (r := ⟨.starting source, recorder⟩) hstep
        (show Stream.step _ (.reading _ _ [] none) _ = (.finish, .ended, _) from rfl) (by simp)
      refine stands_of_start hturns (hback.healthy hhealthy) (hback.searches.trans hrecorded)
        (hback.abandoned.trans hunasked.abandoned) rfl fun c hstream hlength hpages => ?_
      refine .over hstream (by simp [hlength]) ?_
      rw [hpages, Session.pagesOf_nil]
      rfl
    · cases hmore

lemma stands_of_no_base (hbase : svc.directory.hasBase source.base = false) :
    (ofSource source recorder w).poll.Stands (svc.directory.answer source filter) request := by
  obtain ⟨request', lease', hrequest', hstep⟩ :=
    Stream.step_starting_of_no_base w.snapshots htext hfilter hout hopen hhealthy
      hbase
  obtain rfl := Except.ok.inj (hrequest.symm.trans hrequest')
  have hunasked := Service.unasked_checkOut hout
  have hback := Service.unasked_giveBack { svc with
    directory.searches := svc.directory.searches ++ [request] } lease'
  have hrecorded : svc.directory.searches ++ [request] =
      w.service.directory.searches ++ [request] := by
    rw [hunasked.searches]
  have hnone : svc.directory.answer source filter = [] := by
    rw [Directory.answer, hbase]
    rfl
  rw [hnone]
  have hturns := Results.turns_of_step (r := ⟨.starting source, recorder⟩) hstep (by simp)
  refine stands_of_start hturns (hback.healthy hhealthy) (hback.searches.trans hrecorded)
    (hback.abandoned.trans hunasked.abandoned) rfl fun c hstream hlength hpages => ?_
  refine .over hstream (by simp [hlength]) ?_
  rw [hpages, Session.pagesOf_nil]
  rfl

end Start

/-- The first request starts the search, which finds what the directory answers at that time. -/
lemma exists_stands_of_start {source : Source} {recorder : Option Recorder} {w : Workspace}
    (hhealthy : w.service.directory.Healthy)
    (hsearches : w.service.directory.searchesRun < Text.maxSize)
    (hfirst : ∀ e, (ofSource source recorder w).poll.answers ≠ [some (.error e)]) :
    ∃ text filter, source.filterText = .ok text ∧ SearchFilter.parse text = .ok filter ∧
      (ofSource source recorder w).poll.Stands (w.service.directory.answer source filter)
        ⟨source.base, text, source.scope, w.service.pool.config.pageSize⟩ := by
  rcases hstart : Stream.start source w.service with ⟨event, s, svc'⟩
  have hevent : ∀ e, event ≠ .fault e := by
    rintro e rfl
    have hturns := Results.turns_of_step (r := ⟨.starting source, recorder⟩) hstart (by simp)
    exact hfirst e (poll_of_turns (c := ofSource source recorder w) hturns rfl).2.2.1
  obtain ⟨text, filter, lease, svc, htext, hfilter, hout, hopen, hhealthy'⟩ :=
    Stream.exists_of_start hstart hevent hhealthy
  refine ⟨text, filter, htext, hfilter, ?_⟩
  rw [Directory.answer_congr (Service.entries_checkOut hout)]
  have hrequest := Source.request_of_filterText htext w.service.pool.config.pageSize
  by_cases hbase : svc.directory.hasBase source.base = true
  · exact stands_of_base htext hfilter hrequest hout hopen hhealthy' hsearches hbase
  · rw [Bool.not_eq_true] at hbase
    exact stands_of_no_base htext hfilter hrequest hout hopen hhealthy' hbase

/-- What others do does not move a cursor. -/
lemma Stands.others (hc : c.Stands found request) {change : Workspace → Workspace}
    (hchange : (Event.others change).IsHarmless) : (c.step (.others change)).Stands found request :=
  { healthy := hchange _ hc.healthy
    answers := hc.answers
    searches := hc.searches
    abandoned := hc.abandoned
    place := by
      rcases hc.place with ⟨hstream, hread, hpages⟩ | ⟨lease, hstream, hread, hpages⟩ |
        ⟨lease, search, position, hstream, hread, hposition, hopen, hresults, hsearch, hpages⟩
      · exact .over hstream hread hpages
      · exact .last lease hstream hread hpages
      · exact .page lease search position hstream hread hposition hopen hresults hsearch hpages }

lemma Stands.step (hc : c.Stands found request) (hlength : found.length ≤ Text.maxSize)
    {event : Event} (hevent : event.IsHarmless) : (c.step event).Stands found request := by
  cases event with
  | poll => exact hc.poll hlength
  | others change => exact hc.others hevent

lemma Stands.run (hc : c.Stands found request) (hlength : found.length ≤ Text.maxSize)
    {events : List Event} (hevents : ∀ event ∈ events, event.IsHarmless) :
    (c.run events).Stands found request := by
  induction events generalizing c with
  | nil => exact hc
  | cons event events ih =>
    exact ih (hc.step hlength (hevents event List.mem_cons_self))
      fun event hevent => hevents event (List.mem_cons_of_mem _ hevent)

/-- The pages that were asked for are pages of the results. -/
lemma Stands.exists_pages (hc : c.Stands found request) :
    ∃ rest, c.pages ++ rest = Session.pagesOf request.pageSize found := by
  rcases hc.place with ⟨-, -, hpages⟩ | ⟨lease, -, -, hpages⟩ |
    ⟨lease, search, position, -, -, -, -, -, -, hpages⟩
  · exact ⟨[], by rw [hpages, List.append_nil]⟩
  · exact ⟨[], by rw [hpages, List.append_nil]⟩
  · exact ⟨_, hpages⟩

lemma Stands.ne_nil_of_mem_tail (hc : c.Stands found request) {page : List Entry}
    (h : page ∈ c.pages.tail) : page ≠ [] := by
  obtain ⟨rest, hpages⟩ := hc.exists_pages
  cases hfirst : c.pages with
  | nil =>
    rw [hfirst] at h
    cases h
  | cons first pages =>
    rw [hfirst, List.tail_cons] at h
    rw [hfirst, List.cons_append] at hpages
    have hmem : page ∈ (Session.pagesOf request.pageSize found).tail := by
      rw [← hpages, List.tail_cons]
      exact List.mem_append_left _ h
    exact Session.ne_nil_of_mem_tail_pagesOf hmem

/-- A cursor is told that nothing is left when it asks for more than there is. -/
lemma Stands.none_mem_answers_iff (hc : c.Stands found request) :
    none ∈ c.answers ↔ found.length < c.answers.length := by
  have hnone : none ∈ c.answers ↔ ∃ k < c.answers.length, found.length ≤ k := by
    rw [hc.answers]
    simp only [List.mem_map, List.mem_range, Option.map_eq_none_iff, List.getElem?_eq_none_iff,
      List.length_map, List.length_range]
  rw [hnone]
  constructor
  · rintro ⟨k, hk, hlength⟩
    omega
  · intro h
    exact ⟨found.length, h, Nat.le_refl _⟩

/-- A cursor that was told that nothing is left has asked for all pages. -/
lemma Stands.pages_of_none (hc : c.Stands found request) (h : none ∈ c.answers) :
    c.pages = Session.pagesOf request.pageSize found := by
  have hover := hc.none_mem_answers_iff.1 h
  rcases hc.place with ⟨-, -, hpages⟩ | ⟨lease, -, -, hpages⟩ |
    ⟨lease, search, position, -, hread, hposition, -⟩
  · exact hpages
  · exact hpages
  · omega

/-- However the entries of a search are asked for and whatever others do meanwhile, they are the
ones that the directory had for it when it was asked for the first page, in their order.  It is one
search, which is not abandoned.  No page but the first is empty.  One request more than there are
entries is told that nothing is left; the pages hold the results then, and there are as many as it
takes.  Cookies hold numbers of 64 bits, so the entries and the searches have to be that few. -/
theorem reads_search {source : Source} {recorder : Option Recorder} {w : Workspace}
    (hhealthy : w.service.directory.Healthy)
    (hentries : w.service.directory.entries.length ≤ Text.maxSize)
    (hsearches : w.service.directory.searchesRun < Text.maxSize)
    (hfirst : ∀ e, (ofSource source recorder w).poll.answers ≠ [some (.error e)])
    {events : List Event} (hevents : ∀ event ∈ events, event.IsHarmless) :
    ∃ text filter, source.filterText = .ok text ∧ SearchFilter.parse text = .ok filter ∧
      let size := w.service.pool.config.pageSize
      let found := w.service.directory.answer source filter
      let c := (ofSource source recorder w).poll.run events
      c.answers = ((List.range c.answers.length).map fun k => found[k]?.map .ok) ∧
      c.searches = [⟨source.base, text, source.scope, size⟩] ∧ c.abandoned = 0 ∧
      (∀ page ∈ c.pages.tail, page ≠ []) ∧
      (none ∈ c.answers ↔ found.length < c.answers.length) ∧
      (none ∈ c.answers → c.pages.flatten = found ∧
        c.pages.length = max 1 ((found.length + size - 1) / size)) := by
  obtain ⟨text, filter, htext, hfilter, hstart⟩ :=
    exists_stands_of_start hhealthy hsearches hfirst
  have hlength : (w.service.directory.answer source filter).length ≤ Text.maxSize :=
    Nat.le_trans (Directory.length_answer_le _ source filter) hentries
  have hc := hstart.run hlength hevents
  refine ⟨text, filter, htext, hfilter, hc.answers, hc.searches, hc.abandoned,
    fun page => hc.ne_nil_of_mem_tail, hc.none_mem_answers_iff, fun hnone => ?_⟩
  rw [hc.pages_of_none hnone]
  exact ⟨Session.flatten_pagesOf .., Session.length_pagesOf ..⟩

/-- Behind the first of three entries another one is added, and somebody else reads a page of the
same search and abandons the rest.  The cursor reads the three entries on two pages. -/
theorem reads_search_interleaved :
    let w : Workspace := ⟨⟨Directory.empty.addAll
        [.named "cn=Ann,dc=org", .named "cn=Bob,dc=org", .named "cn=Cyd,dc=org"],
      .ofConfig { PoolConfig.ofPrimary "localhost" with pageSize := 2 }⟩, .empty⟩
    let source : Source := ⟨"dc=org", .subtree, none⟩
    let begun := (ofSource source none w).poll
    let other : Results := ⟨.starting source, none⟩
    let added := begun.run [.add (.named "cn=Dan,dc=org")]
    let stopped := (other.next added.workspace).2.1
    let c := begun.run [.add (.named "cn=Dan,dc=org"), .next other, .close stopped, .poll, .poll,
      .poll]
    ∃ found : List Entry,
      found.map Entry.dn = ["cn=Ann,dc=org", "cn=Bob,dc=org", "cn=Cyd,dc=org"] ∧
      c.answers = ((List.range 4).map fun k => found[k]?.map .ok) ∧ c.pages.flatten = found ∧
      c.pages.length = 2 ∧ c.abandoned = 0 ∧ c.workspace.service.directory.abandoned = 1 := by
  intro w source begun other added stopped c
  have hhealthy : w.service.directory.Healthy := rfl
  have hentries : w.service.directory.entries.length ≤ Text.maxSize := by decide
  have hsearches : w.service.directory.searchesRun < Text.maxSize := by decide
  have hfirst : ∀ e, (ofSource source none w).poll.answers ≠ [some (.error e)] := by
    have hok : (begun.answers.map fun answer => answer.map Except.toOption) ≠ [some none] := by
      decide +kernel
    intro e h
    rw [h] at hok
    exact hok rfl
  have hevents : ∀ event ∈ [Event.add (.named "cn=Dan,dc=org"), .next other, .close stopped,
      .poll, .poll, .poll], event.IsHarmless := by
    simp
  have hlength : c.answers.length = 4 := by decide +kernel
  have hnone : none ∈ c.answers := by
    have hover : (c.answers.any Option.isNone) = true := by decide +kernel
    obtain ⟨answer, hanswer, hnone⟩ := List.any_eq_true.1 hover
    rwa [Option.isNone_iff_eq_none.1 hnone] at hanswer
  obtain ⟨text, filter, htext, hfilter, hanswers, -, habandoned, -, -, hpages⟩ :=
    reads_search hhealthy hentries hsearches hfirst hevents
  obtain ⟨hflatten, hcount⟩ := hpages hnone
  obtain rfl : Source.catchAll = text := Except.ok.inj htext
  obtain rfl : SearchFilter.present "objectClass" = filter := Except.ok.inj hfilter
  have htwo : max 1 (((w.service.directory.answer source (.present "objectClass")).length + 2 - 1) /
      2) = 2 := by
    decide +kernel
  exact ⟨_, by decide +kernel, hlength ▸ hanswers, hflatten, hcount.trans htwo, habandoned,
    by decide +kernel⟩

end Cursor

end DirectoryQuery
