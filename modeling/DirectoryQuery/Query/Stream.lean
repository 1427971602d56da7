import DirectoryQuery.Entry.Distinct
import DirectoryQuery.Pool.Lease
import DirectoryQuery.Query.Basic
import DirectoryQuery.Query.Snapshots

/-!
# Streams

A stream is a query under evaluation: what is left to deliver, and what has to be remembered until
then.  `Stream.step` takes it one step further.  A step delivers an entry or an error, finds that
nothing is left, or does some work that delivers nothing yet, such as asking for a page or dropping
an entry that does not match.  Since every step is small, stepping is a recursion on the stream
alone.

Only a stream that reads a search holds a session.  The session goes back as soon as the search is
over, fails, or is closed early; closing a search with pages left abandons it.

`Stream.budget` bounds the number of steps to the end, if nobody else changes the directory.
-/

namespace DirectoryQuery

/-- What a step brings about. -/
inductive StreamEvent where
  | item (e : Entry)
  | fault (e : QueryError)
  /-- Nothing yet. -/
  | pause
  /-- Nothing any more. -/
  | finish

/-- Takes a window one step further over anything that can be stepped and closed.  At its upper
bound the window closes what is below it instead of stepping it.  It also closes it when nothing is
left there, and in both cases no position is left of the window. -/
def Window.advance {σ : Type} (w : Window) (position : Nat) (below : σ)
    (next : Unit → StreamEvent × σ) (close : σ → σ) : StreamEvent × Option Nat × σ :=
  if w.isOver position then (.finish, none, close below)
  else
    match next () with
    | (.item e, below) =>
      (if w.selects position then .item e else .pause, some (position + 1), below)
    | (.fault e, below) => (.fault e, some (position + 1), below)
    | (.pause, below) => (.pause, some position, below)
    | (.finish, below) => (.finish, none, close below)

/-- A query under evaluation. -/
inductive Stream where
  /-- Nothing is left. -/
  | ended
  /-- Delivers given entries. -/
  | replay (entries : List Entry)
  /-- Is about to start a search. -/
  | starting (source : Source)
  /-- Delivers the rest of a page, and the pages behind it if there is a cookie. -/
  | reading (lease : Lease) (request : SearchRequest) (buffer : List Entry)
      (cookie : Option Cookie)
  | filtered (matcher : Matcher) (inner : Stream)
  | annotated (annotations : List (String × Annotation)) (inner : Stream)
  /-- Is about to evaluate a query and to sort its result. -/
  | unsorted (keys : List SortKey) (below : Query)
  /-- Collects what is to be sorted, the last entry in front. -/
  | sorting (keys : List SortKey) (collected : List Entry) (inner : Stream)
  | sliced (window : Window) (position : Nat) (inner : Stream)
  | selected (names : List String) (inner : Stream)
  /-- Drops entries whose key was seen before. -/
  | distinct (seen : List Entry.DistinctKey) (inner : Stream)

namespace Query

/-- The stream of a stage over the stream of what is below it. -/
def stageStream (stage : Stage) (below : Query) (inner : Stream) : Stream :=
  match stage with
  | .filtered matcher => .filtered matcher inner
  | .annotated annotations => .annotated annotations inner
  | .ordered keys => .unsorted keys below
  | .sliced window => .sliced window 0 inner
  | .selected names => .selected names inner
  | .distinct => .distinct [] inner

/-- The stream of a query.  An instance that has kept its result delivers that. -/
def stream (snapshots : Snapshots) : Query → Stream
  | .empty => .ended
  | .search tag source =>
    match snapshots.get? tag.id with
    | some entries => .replay entries
    | none => .starting source
  | .staged tag stage below =>
    match snapshots.get? tag.id with
    | some entries => .replay entries
    | none => stageStream stage below (below.stream snapshots)

/-- A bound on the number of steps of a query's stream, in a directory of `size` entries. -/
def budget (snapshots : Snapshots) (size : Nat) : Query → Nat
  | .empty => 1
  | .search tag _ =>
    match snapshots.get? tag.id with
    | some entries => entries.length + 1
    | none => 2 * size + 3
  | .staged tag stage below =>
    match snapshots.get? tag.id with
    | some entries => entries.length + 1
    | none =>
      match stage with
      | .ordered _ => 2 * below.budget snapshots size + 2
      | _ => below.budget snapshots size

end Query

namespace Stream

/-- The number of entries behind a cookie. -/
def entriesBehind (s : Session) (cookie : Cookie) : Nat :=
  match cookie.decode? with
  | some (search, position) => ((s.results? search).getD []).length - position
  | none => 0

/-- A bound on the number of steps to the end, in a directory of `size` entries. -/
def budget (snapshots : Snapshots) (size : Nat) : Stream → Nat
  | .ended => 1
  | .replay entries => entries.length + 1
  | .starting _ => 2 * size + 3
  | .reading _ _ buffer none => buffer.length + 1
  | .reading lease _ buffer (some cookie) =>
    buffer.length + 2 * entriesBehind lease.session cookie + 2
  | .filtered _ inner => inner.budget snapshots size
  | .annotated _ inner => inner.budget snapshots size
  | .unsorted _ below => 2 * below.budget snapshots size + 2
  | .sorting _ collected inner => 2 * inner.budget snapshots size + collected.length + 1
  | .sliced _ _ inner => inner.budget snapshots size
  | .selected _ inner => inner.budget snapshots size
  | .distinct _ inner => inner.budget snapshots size

/-- Gives back the session of a search that is left early. -/
def abandon (lease : Lease) (cookie : Option Cookie) (svc : Service) : Service :=
  match cookie with
  | none => svc.giveBack lease
  | some cookie =>
    match lease.session.abandon cookie svc.directory with
    | (.ok (), s, d) => { svc with directory := d }.giveBack { lease with session := s }
    | (.error _, s, d) =>
      { svc with directory := d }.giveBack { lease with session := s }.markForEviction

/-- Ends a stream before it is through. -/
def close : Stream → Service → Service
  | .ended, svc => svc
  | .replay _, svc => svc
  | .starting _, svc => svc
  | .reading lease _ _ cookie, svc => abandon lease cookie svc
  | .filtered _ inner, svc => inner.close svc
  | .annotated _ inner, svc => inner.close svc
  | .unsorted _ _, svc => svc
  | .sorting _ _ inner, svc => inner.close svc
  | .sliced _ _ inner, svc => inner.close svc
  | .selected _ inner, svc => inner.close svc
  | .distinct _ inner, svc => inner.close svc

/-- Starts a search.  A base that is not there means that there is nothing to find. -/
def start (source : Source) (svc : Service) : StreamEvent × Stream × Service :=
  match source.request svc.pool.config.pageSize with
  | .error e => (.fault (.filter e), .ended, svc)
  | .ok request =>
    match svc.checkOut with
    | (.error e, svc) => (.fault (.directory e), .ended, svc)
    | (.ok lease, svc) =>
      match lease.session.page request none svc.directory with
      | (.ok page, s, d) =>
        (.pause, .reading { lease with session := s } request page.entries page.cookie,
          { svc with directory := d })
      | (.error e, s, d) =>
        let svc := { svc with directory := d }.giveBack
          ({ lease with session := s }.settle (some e))
        if e.isAcceptable then (.finish, .ended, svc) else (.fault (.directory e), .ended, svc)

/-- Asks for the page behind a cookie. -/
def turnPage (lease : Lease) (request : SearchRequest) (cookie : Cookie) (svc : Service) :
    StreamEvent × Stream × Service :=
  match lease.session.page request (some cookie) svc.directory with
  | (.ok page, s, d) =>
    (.pause, .reading { lease with session := s } request page.entries page.cookie,
      { svc with directory := d })
  | (.error e, s, d) =>
    (.fault (.directory e), .ended,
      { svc with directory := d }.giveBack ({ lease with session := s }.settle (some e)))

/-- Takes a stream one step further. -/
def step (snapshots : Snapshots) : Stream → Service → StreamEvent × Stream × Service
  | .ended, svc => (.finish, .ended, svc)
  | .replay [], svc => (.finish, .ended, svc)
  | .replay (e :: rest), svc => (.item e, .replay rest, svc)
  | .starting source, svc => start source svc
  | .reading lease request (e :: rest) cookie, svc =>
    (.item e, .reading lease request rest cookie, svc)
  | .reading lease request [] (some cookie), svc => turnPage lease request cookie svc
  | .reading lease _ [] none, svc => (.finish, .ended, svc.giveBack lease)
  | .filtered matcher inner, svc =>
    match inner.step snapshots svc with
    | (.item e, inner, svc) =>
      (if matcher.accepts e then .item e else .pause, .filtered matcher inner, svc)
    | (event, inner, svc) => (event, .filtered matcher inner, svc)
  | .annotated annotations inner, svc =>
    match inner.step snapshots svc with
    | (.item e, inner, svc) =>
      (.item (e.annotate annotations), .annotated annotations inner, svc)
    | (event, inner, svc) => (event, .annotated annotations inner, svc)
  | .unsorted keys below, svc => (.pause, .sorting keys [] (below.stream snapshots), svc)
  | .sorting keys collected inner, svc =>
    match inner.step snapshots svc with
    | (.item e, inner, svc) => (.pause, .sorting keys (e :: collected) inner, svc)
    | (.pause, inner, svc) => (.pause, .sorting keys collected inner, svc)
    | (.fault e, inner, svc) => (.fault e, .ended, inner.close svc)
    | (.finish, inner, svc) =>
      (.pause, .replay (SortKey.sort keys collected.reverse), inner.close svc)
  | .sliced window position inner, svc =>
    match window.advance position (inner, svc) (fun _ => inner.step snapshots svc)
        (fun (inner, svc) => (.ended, inner.close svc)) with
    | (event, some position, inner, svc) => (event, .sliced window position inner, svc)
    | (event, none, left) => (event, left)
  | .selected names inner, svc =>
    match inner.step snapshots svc with
    | (.item e, inner, svc) => (.item (e.retain names), .selected names inner, svc)
    | (event, inner, svc) => (event, .selected names inner, svc)
  | .distinct seen inner, svc =>
    match inner.step snapshots svc with
    | (.item e, inner, svc) =>
      let key := e.distinctKey
      if seen.contains key then (.pause, .distinct seen inner, svc)
      else (.item e, .distinct (key :: seen) inner, svc)
    | (event, inner, svc) => (event, .distinct seen inner, svc)

/-- What a window does with one step of the stream below it. -/
theorem step_sliced (snapshots : Snapshots) (window : Window) (position : Nat) (inner : Stream)
    (svc : Service) :
    step snapshots (.sliced window position inner) svc =
      if window.isOver position then (.finish, .ended, inner.close svc)
      else
        match inner.step snapshots svc with
        | (.item e, inner, svc) =>
          (if window.selects position then .item e else .pause,
            .sliced window (position + 1) inner, svc)
        | (.fault e, inner, svc) => (.fault e, .sliced window (position + 1) inner, svc)
        | (.pause, inner, svc) => (.pause, .sliced window position inner, svc)
        | (.finish, inner, svc) => (.finish, .ended, inner.close svc) := by
  rw [step, Window.advance]
  by_cases hover : window.isOver position = true
  · simp only [hover, if_true]
  · rcases inner.step snapshots svc with ⟨event, inner', svc'⟩
    cases event <;> simp only [hover, Bool.false_eq_true, if_false]

end Stream

end DirectoryQuery
