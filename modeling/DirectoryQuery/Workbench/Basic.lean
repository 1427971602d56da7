import DirectoryQuery.Query.Evaluate
import DirectoryQuery.Workbench.Command

/-!
# The workbench

A workspace together with the queries, results, aggregations, sessions and leases at hand, each kind
under names of its own.

`Action` is what a command does: it changes the workbench, and it may fail.  A failed action keeps
the changes it made before it failed, as a failed evaluation keeps what it did to the directory and
the pool.  Putting something under a name that is taken drops what was there: results end, and a
lease is given back.  A session that is dropped is lost and stays open.
-/

namespace DirectoryQuery

/-- A workspace and what is at hand. -/
structure Workbench where
  workspace : Workspace
  /-- The identity of the next query instance. -/
  nextId : Nat
  queries : SortedMap Query
  results : SortedMap Results
  aggregations : SortedMap Aggregations
  sessions : SortedMap Session
  leases : SortedMap Lease

namespace Workbench

/-- A workbench with nothing at hand, on a directory with the given entries and a pool in front of
it. -/
def ofEntries (config : PoolConfig) (entries : List Entry) : Except DirectoryError Workbench := do
  let service ← Service.ofConfig config (Directory.empty.addAll entries)
  pure
    { workspace := ⟨service, .empty⟩
      nextId := 0
      queries := .empty
      results := .empty
      aggregations := .empty
      sessions := .empty
      leases := .empty }

/-- Changes the directory. -/
def onDirectory (b : Workbench) (change : Directory → Directory) : Workbench :=
  { b with workspace.service.directory := change b.workspace.service.directory }

/-- Changes the directory and its pool. -/
def onService (b : Workbench) (change : Service → Service) : Workbench :=
  { b with workspace.service := change b.workspace.service }

/-- The session under a name: one at hand, or else the session of a lease. -/
def session? (b : Workbench) (name : String) : Option Session :=
  match b.sessions.get? name with
  | some s => some s
  | none => (b.leases.get? name).map Lease.session

/-- Puts the session that `session?` finds under a name into its new state. -/
def updateSession (b : Workbench) (name : String) (s : Session) : Workbench :=
  match b.sessions.get? name with
  | some _ => { b with sessions := b.sessions.insert name s }
  | none =>
    match b.leases.get? name with
    | some l => { b with leases := b.leases.insert name { l with session := s } }
    | none => b

/-- Puts results under a name and ends those that were there. -/
def putResults (b : Workbench) (name : String) (r : Results) : Workbench :=
  let workspace := match b.results.get? name with
    | some old => old.close b.workspace
    | none => b.workspace
  { b with workspace, results := b.results.insert name r }

/-- Puts a lease under a name and gives back the one that was there. -/
def putLease (b : Workbench) (name : String) (l : Lease) : Workbench :=
  let b := match b.leases.get? name with
    | some old => b.onService (·.giveBack old)
    | none => b
  { b with leases := b.leases.insert name l }

end Workbench

/-- What a command does to a workbench. -/
abbrev Action (α : Type) := ExceptT CommandError (StateM Workbench) α

namespace Action

/-- What is under a name. -/
def find {α : Type} (kind : Workbench → SortedMap α) (name : String) : Action α := do
  match (kind (← get)).get? name with
  | some a => pure a
  | none => throw .unknownName

/-- The results that are kept. -/
def snapshots : Action Snapshots := do
  pure (← get).workspace.snapshots

/-- Runs an operation on the workspace. -/
def onWorkspace {α : Type} (op : Workspace → Except QueryError α × Workspace) : Action α := do
  let b ← get
  let (outcome, workspace) := op b.workspace
  set { b with workspace }
  match outcome with
  | .ok a => pure a
  | .error e => throw (.query e)

/-- Runs an operation on the directory and its pool. -/
def onService {α : Type} (op : Service → Except QueryError α × Service) : Action α :=
  onWorkspace fun w =>
    let (outcome, service) := op w.service
    (outcome, { w with service })

/-- Runs an operation that can fail with a directory's error on the directory and its pool. -/
def onPool {α : Type} (op : Service → Except DirectoryError α × Service) : Action α :=
  onService fun svc =>
    let (outcome, svc) := op svc
    (outcome.mapError .directory, svc)

/-- Runs an operation on the directory alone. -/
def onDirectory {α : Type} (op : Directory → Except DirectoryError α × Directory) : Action α :=
  onPool fun svc =>
    let (outcome, directory) := op svc.directory
    (outcome, { svc with directory })

/-- Runs an operation on the session under a name. -/
def onSession {α : Type} (name : String)
    (op : Session → Directory → Except DirectoryError α × Session × Directory) : Action α := do
  match (← get).session? name with
  | none => throw .unknownName
  | some s => do
    let (outcome, s) ← onDirectory fun d =>
      let (outcome, s, d) := op s d
      (.ok (outcome, s), d)
    modify fun b => b.updateSession name s
    match outcome with
    | .ok a => pure a
    | .error e => throw (.query (.directory e))

end Action

end DirectoryQuery
