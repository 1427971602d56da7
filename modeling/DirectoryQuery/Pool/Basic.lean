import DirectoryQuery.Directory.Session
import DirectoryQuery.Pool.Config
import DirectoryQuery.Pool.Stats

/-!
# Session pools

A pool hands out sessions and takes them back.  It keeps up to a bound of them idle and hands out
the one that came back last; without an idle one it binds a new one, trying its servers in order.
Closing the pool down closes the idle sessions and sets the bound to zero, so whatever comes back
later is closed too.

A `Service` is a directory with a pool in front of it.  `Service.withSession` and
`Service.checkOut` are two ways to use a session and to be sure that it goes back.
-/

namespace DirectoryQuery

/-- A pool of sessions. -/
structure Pool where
  config : PoolConfig
  /-- The idle sessions, the one that came back last in front. -/
  idle : List Session
  /-- The most sessions that are kept idle. -/
  capacity : Nat
  created : Nat
  reused : Nat
  released : Nat
  evicted : Nat
  closed : Nat

namespace Pool

/-- A pool that has done nothing yet. -/
def ofConfig (config : PoolConfig) : Pool where
  config := config
  idle := []
  capacity := config.maxIdle
  created := 0
  reused := 0
  released := 0
  evicted := 0
  closed := 0

/-- The statistics of the pool. -/
def stats (p : Pool) : PoolStats where
  created := p.created
  reused := p.reused
  released := p.released
  evicted := p.evicted
  closed := p.closed
  idle := p.idle.length

/-- The pool as it is listed. -/
def describe (p : Pool) : String :=
  "ConnectionPool \x7b config: " ++ p.config.describe ++ ", stats: " ++ p.stats.describe ++ " \x7d"

end Pool

/-- A directory with a pool in front of it. -/
structure Service where
  directory : Directory
  pool : Pool

/-- Binds to the first server that can be reached.  A server that rejects the credentials ends the
search for one; `tried` is the number of servers to report when none can be reached. -/
def Directory.bindFirst (identity secret : String) (tried : Nat) :
    List String → Directory → Except DirectoryError Session × Directory
  | [], d => (.error (.noServerAvailable tried), d)
  | server :: rest, d =>
    match d.bind server identity secret with
    | (.ok s, d) => (.ok s, d)
    | (.error (.authentication why), d) => (.error (.authentication why), d)
    | (.error _, d) => bindFirst identity secret tried rest d

namespace Service

/-- A pool in front of a directory, unless its settings cannot be used. -/
def ofConfig (config : PoolConfig) (d : Directory) : Except DirectoryError Service :=
  match config.fault? with
  | some e => .error e
  | none => .ok ⟨d, .ofConfig config⟩

/-- Hands out a session: an idle one, or else one bound to the first of the servers that can be
reached. -/
def acquireFrom (servers : List String) (svc : Service) :
    Except DirectoryError Session × Service :=
  let pool := svc.pool
  match pool.idle with
  | s :: rest =>
    (.ok s, { svc with pool := { pool with idle := rest, reused := pool.reused + 1 } })
  | [] =>
    match svc.directory.bindFirst pool.config.bindName pool.config.password servers.length
        servers with
    | (.ok s, d) => (.ok s, ⟨d, { pool with created := pool.created + 1 }⟩)
    | (.error e, d) => (.error e, { svc with directory := d })

/-- Hands out a session, trying the servers in the order of the settings. -/
def acquire (svc : Service) : Except DirectoryError Session × Service :=
  svc.acquireFrom svc.pool.config.candidates

/-- Closes a session for good. -/
def closeSession (svc : Service) (s : Session) : Service :=
  ⟨(s.close svc.directory).2, { svc.pool with closed := svc.pool.closed + 1 }⟩

/-- Takes back a healthy session.  It is closed if enough are idle already. -/
def release (svc : Service) (s : Session) : Service :=
  let pool := svc.pool
  if pool.idle.length < pool.capacity then
    { svc with pool := { pool with idle := s :: pool.idle, released := pool.released + 1 } }
  else svc.closeSession s

/-- Takes back a session that may be in a bad state, and closes it. -/
def evict (svc : Service) (s : Session) : Service :=
  { svc with pool := { svc.pool with evicted := svc.pool.evicted + 1 } }.closeSession s

/-- Closes all idle sessions and keeps none from now on. -/
def closeAll (svc : Service) : Service :=
  svc.pool.idle.foldr (fun s svc => svc.closeSession s)
    { svc with pool := { svc.pool with idle := [], capacity := 0 } }

/-- Takes back a session by what happens to it. -/
def takeBack (svc : Service) (s : Session) : Disposition → Service
  | .release => svc.release s
  | .evict => svc.evict s

end Service

end DirectoryQuery
