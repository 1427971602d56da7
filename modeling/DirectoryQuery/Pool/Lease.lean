import DirectoryQuery.Pool.Basic

/-!
# Leases

Two ways to use a pooled session and to be sure that it goes back: a lease, which remembers what is
to happen to its session and is given back at the end, and an operation run on a session, after
which the session goes back by the error of the operation.
-/

namespace DirectoryQuery

/-- A session on loan from a pool, and what is to happen to it when it goes back. -/
structure Lease where
  session : Session
  disposition : Disposition

namespace Lease

/-- Takes note of how an operation ended.  A bad end is not forgotten. -/
def settle (l : Lease) (error : Option DirectoryError) : Lease :=
  match Disposition.after error with
  | .evict => { l with disposition := .evict }
  | .release => l

/-- Lets the session be discarded when it goes back. -/
def markForEviction (l : Lease) : Lease :=
  { l with disposition := .evict }

/-- The lease as it is listed. -/
def describe (l : Lease) : String :=
  "PooledConnection \x7b disposition: " ++
    (match l.disposition with
      | .release => "Release"
      | .evict => "Evict") ++
    " \x7d"

@[simp] theorem session_settle (l : Lease) (error : Option DirectoryError) :
    (l.settle error).session = l.session := by
  rw [settle]
  split <;> rfl

end Lease

namespace Service

/-- Hands out a session on a lease. -/
def checkOut (svc : Service) : Except DirectoryError Lease × Service :=
  match svc.acquire with
  | (.ok s, svc) => (.ok ⟨s, .release⟩, svc)
  | (.error e, svc) => (.error e, svc)

/-- Takes back the session of a lease. -/
def giveBack (svc : Service) (l : Lease) : Service :=
  svc.takeBack l.session l.disposition

/-- Runs an operation on a session.  Afterwards the session goes back by the directory's error, if
the operation failed with one. -/
def withSession {ε α : Type} (ofError : DirectoryError → ε) (fault? : ε → Option DirectoryError)
    (op : Session → Service → Except ε α × Session × Service) (svc : Service) :
    Except ε α × Service :=
  match svc.acquire with
  | (.error e, svc) => (.error (ofError e), svc)
  | (.ok s, svc) =>
    let (result, s, svc) := op s svc
    let fault := match result with
      | .ok _ => none
      | .error e => fault? e
    (result, svc.takeBack s (.after fault))

end Service

end DirectoryQuery
