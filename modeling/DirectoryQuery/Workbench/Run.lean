import DirectoryQuery.Query.Explain
import DirectoryQuery.Workbench.Basic

/-!
# Running commands

What each command does and answers.  Whatever a command refers to by name is looked up before it
does anything else.  `Workbench.run` runs one command and reports, besides the answer, the counters
of the pool and of the directory and the searches that the command started.
-/

namespace DirectoryQuery

/-- The servers of all attempts to bind.  With several replicas their order is open, and the
servers are sorted. -/
def Service.attempts (svc : Service) : List String :=
  if svc.pool.config.replicas.length ≤ 1 then svc.directory.bindAttempts
  else svc.directory.bindAttempts.mergeSort fun a b => decide (a ≤ b)

/-- Runs a command to the directory. -/
def DirectoryCommand.run : DirectoryCommand → Action Answer
  | .add (.error fault) => throw (.entry fault)
  | .add (.ok e) => do
    modify fun b => b.onDirectory (·.add e)
    pure .done
  | .requireCredentials identity secret => do
    modify fun b => b.onDirectory (·.requireCredentials identity secret)
    pure .done
  | .setDown server isDown => do
    modify fun b => b.onDirectory (·.setDown server isDown)
    pure .done
  | .failNextSearch e => do
    modify fun b => b.onDirectory (·.failNextSearch e)
    pure .done
  | .failNextAbandon e => do
    modify fun b => b.onDirectory (·.failNextAbandon e)
    pure .done
  | .attempts => do
    pure (.names (← get).workspace.service.attempts)
  | .describe => do
    pure (.text (← get).workspace.service.directory.describe)

/-- Searches, if there is a request, and then fails, if there is a failure. -/
def searchAndFail (request : Option SearchRequest) (failure : Option QueryError) (s : Session)
    (svc : Service) : Except QueryError (Option Page) × Session × Service :=
  let (outcome, s, svc) : Except DirectoryError (Option Page) × Session × Service :=
    match request with
    | none => (.ok none, s, svc)
    | some request =>
      let (outcome, s, directory) := s.page request none svc.directory
      (outcome.map some, s, { svc with directory })
  match outcome, failure with
  | .error e, _ => (.error (.directory e), s, svc)
  | .ok _, some e => (.error e, s, svc)
  | .ok page, none => (.ok page, s, svc)

/-- Takes the session under a name away from the workbench. -/
def takeSession (name : String) : Action Session := do
  let s ← Action.find (·.sessions) name
  modify fun b => { b with sessions := b.sessions.erase name }
  pure s

/-- Runs a command to the pool or on a session. -/
def SessionCommand.run : SessionCommand → Action Answer
  | .bind name server identity secret => do
    let s ← Action.onDirectory fun d => d.bind server identity secret
    modify fun b => { b with sessions := b.sessions.insert name s }
    pure .done
  | .acquire name => do
    let s ← Action.onPool Service.acquire
    modify fun b => { b with sessions := b.sessions.insert name s }
    pure .done
  | .release name => do
    let s ← takeSession name
    modify fun b => b.onService (·.release s)
    pure .done
  | .evict name => do
    let s ← takeSession name
    modify fun b => b.onService (·.evict s)
    pure .done
  | .closeAll => do
    modify fun b => b.onService Service.closeAll
    pure .done
  | .close name => do
    Action.onSession name fun s d => (.ok (), s.close d)
    pure .done
  | .page name request cookie => do
    let page ← Action.onSession name fun s d => s.page request cookie d
    pure (.page page)
  | .abandon name cookie => do
    Action.onSession name fun s d => s.abandon cookie d
    pure .done
  | .withSession request failure => do
    let page ← Action.onService
      (Service.withSession .directory QueryError.directoryError? (searchAndFail request failure))
    pure (page.elim .done .page)
  | .describe => do
    pure (.text (← get).workspace.service.pool.describe)

/-- Whether a lease is to be discarded. -/
def Lease.isForEviction (l : Lease) : Bool :=
  l.disposition == .evict

/-- Changes the lease under a name and tells whether it is now to be discarded. -/
def changeLease (name : String) (change : Lease → Lease) : Action Answer := do
  let l := change (← Action.find (·.leases) name)
  modify fun b => { b with leases := b.leases.insert name l }
  pure (.truth l.isForEviction)

/-- Takes the lease under a name away from the workbench and gives it back, after a change. -/
def returnLease (name : String) (change : Lease → Lease) : Action Unit := do
  let l ← Action.find (·.leases) name
  modify fun b => { b with leases := b.leases.erase name }.onService (·.giveBack (change l))

/-- Runs a command on a lease. -/
def LeaseCommand.run : LeaseCommand → Action Answer
  | .checkOut name => do
    let l ← Action.onPool Service.checkOut
    modify fun b => b.putLease name l
    pure (.text l.describe)
  | .settle name error => changeLease name (·.settle error)
  | .markForEviction name => changeLease name (·.markForEviction)
  | .giveBack name => do
    returnLease name id
    pure .done
  | .discard name => do
    returnLease name (·.markForEviction)
    pure .done
  | .drop name => do
    returnLease name id
    pure (.truth true)

/-- What is told of a query. -/
def Query.overview (snapshots : Snapshots) (q : Query) : QueryOverview where
  plan := q.explain snapshots
  isCached := q.isCached snapshots
  isKnownEmpty := q.isKnownEmpty
  isRefetch := q.options.isRefetch

/-- Makes a query. -/
def ComposeCommand.make : ComposeCommand → Action (Except QueryError (Query × Nat))
  | .search base scope => do
    pure (.ok (Query.ofBase base (scope.getD .singleLevel) (← get).nextId))
  | .empty => do
    pure (.ok (.empty, (← get).nextId))
  | .derive source how => do
    let q ← Action.find (·.queries) source
    pure (how.apply q (← get).nextId)

/-- Makes a query and puts it under a name. -/
def ComposeCommand.run (name : String) (c : ComposeCommand) : Action Answer := do
  match ← c.make with
  | .error e => throw (.query e)
  | .ok (q, nextId) =>
    modify fun b => { b with nextId, queries := b.queries.insert name q }
    pure (.overview (q.overview (← Action.snapshots)))

/-- The names of entries. -/
def namesOf (es : List Entry) : Answer :=
  .names (es.map Entry.dn)

/-- Lets the aggregations under a name take in the result of a query. -/
def aggregateInto (q : Query) (name : String) : Action Answer := do
  let as ← Action.find (·.aggregations) name
  let as ← Action.onWorkspace fun w =>
    let (as, error, w) := q.aggregate as w
    (.ok (as, error), w)
  modify fun b => { b with aggregations := b.aggregations.insert name as.1 }
  match as.2 with
  | some e => throw (.query e)
  | none => pure (.results as.1.results.pairs)

/-- Evaluates the query under a name. -/
def EvaluateCommand.run (name : String) (c : EvaluateCommand) : Action Answer := do
  let q ← Action.find (·.queries) name
  match c with
  | .fetch => do
    pure (.entries (← Action.onWorkspace q.fetch))
  | .names => do
    pure (namesOf (← Action.onWorkspace q.fetch))
  | .collect => do
    let es ← Action.onWorkspace fun w => (q.results w.snapshots).toList w
    pure (namesOf es)
  | .one => do
    pure (.entry (← Action.onWorkspace q.one))
  | .entryAt index => do
    pure (.entry (← Action.onWorkspace (q.get index)))
  | .count => do
    pure (.number (← Action.onWorkspace q.count))
  | .isEmpty => do
    pure (.truth (← Action.onWorkspace q.isEmpty))
  | .explain => do
    pure (.overview (q.overview (← Action.snapshots)))
  | .describe => do
    pure (.text (q.describe (← Action.snapshots)))
  | .results name => do
    let r := q.results (← Action.snapshots)
    modify fun b => b.putResults name r
    pure (.text r.describe)
  | .aggregate name => aggregateInto q name

/-- Asks for so many entries. -/
def Results.take : Nat → Results → Workspace →
    List (Option (Except QueryError Entry)) × Results × Workspace
  | 0, r, w => ([], r, w)
  | count + 1, r, w =>
    let (delivery, r, w) := r.next w
    let (more, r, w) := take count r w
    (delivery :: more, r, w)

/-- Runs a command on results or aggregations. -/
def ResultCommand.run : ResultCommand → Action Answer
  | .next name count => do
    let r ← Action.find (·.results) name
    let (deliveries, r) ← Action.onWorkspace fun w =>
      let (deliveries, r, w) := r.take count w
      (.ok (deliveries, r), w)
    modify fun b => { b with results := b.results.insert name r }
    pure (.deliveries deliveries)
  | .drop name => do
    let r ← Action.find (·.results) name
    modify fun b =>
      { b with workspace := r.close b.workspace, results := b.results.erase name }
    pure .done
  | .aggregations name members => do
    let as := Aggregations.ofList members
    modify fun b => { b with aggregations := b.aggregations.insert name as }
    pure (.extent as.size (as.size == 0))
  | .aggregated name member => do
    let as ← Action.find (·.aggregations) name
    pure (.aggregated as.results.pairs (member.bind as.result?) as.describe)

/-- Runs a command. -/
def Command.run : Command → Action Answer
  | .directory c => c.run
  | .session c => c.run
  | .lease c => c.run
  | .compose name c => c.run name
  | .evaluate name c => c.run name
  | .result c => c.run

/-- The answer to a command, the counters after it, and the searches that it started. -/
structure Report where
  outcome : Except CommandError Answer
  stats : PoolStats
  openSessions : Nat
  abandoned : Nat
  searches : Nat
  attempts : Nat
  started : List SearchRequest

namespace Workbench

/-- Runs a command and reports. -/
def run (b : Workbench) (c : Command) : Report × Workbench :=
  let (outcome, after) := (c.run.run).run b
  let directory := after.workspace.service.directory
  ({ outcome
     stats := after.workspace.service.pool.stats
     openSessions := directory.openSessions
     abandoned := directory.abandoned
     searches := directory.searches.length
     attempts := directory.bindAttempts.length
     started := directory.searches.drop b.workspace.service.directory.searches.length },
   after)

/-- Runs commands in order. -/
def runAll (b : Workbench) : List Command → List Report
  | [] => []
  | c :: rest =>
    let (report, b) := b.run c
    report :: runAll b rest

end Workbench

end DirectoryQuery
