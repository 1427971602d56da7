import DirectoryQuery.Proofs.Pool.Custody

/-!
# Dealings with a pool

A `Desk` is a service with everything that was handed out over it and not yet handed back, and the
account of the sessions that its pool closed.  Somebody who holds a session took it plainly, on a
lease, or for an operation that is under way; operations may overlap, and others can be begun while
one of them runs.  `Dealing` lists what can happen at the desk, in any order and number.  A session
leaves the desk when it is handed back, so nobody can hand it back twice.

`Desk.Turn` says what a dealing can do to the books short of closing them down, in six cases
(`Desk.turn_deal`).  `Desk.withSession_eq` places an operation that is run on a session among the
dealings.
-/

namespace DirectoryQuery

/-! ## The desk -/

/-- A session that was handed out, by the way it was taken. -/
inductive Holding where
  /-- Taken to be released or evicted by its holder. -/
  | plain (s : Session)
  | leased (l : Lease)
  /-- Lent to an operation that is under way. -/
  | lent (s : Session)

namespace Holding

def session : Holding → Session
  | .plain s => s
  | .leased l => l.session
  | .lent s => s

/-- The holding with its session as it is after a request. -/
def withSession : Holding → Session → Holding
  | .plain _, s => .plain s
  | .leased l, s => .leased { l with session := s }
  | .lent _, s => .lent s

/-- The holding after a change to the lease, if it is one. -/
def onLease (change : Lease → Lease) : Holding → Holding
  | .leased l => .leased (change l)
  | h => h

end Holding

/-- Why a pool closed a session. -/
inductive Cause where
  /-- It was released when enough were idle. -/
  | overflow
  | eviction
  /-- It was idle when the pool was shut down. -/
  | shutdown
deriving DecidableEq

/-- A session that a pool closed. -/
structure Closing where
  cause : Cause
  id : Nat

/-- The number of sessions that were closed for a cause. -/
def Closing.number (closings : List Closing) (cause : Cause) : Nat :=
  closings.countP (·.cause = cause)

/-- A service, what was handed out over it, and what its pool closed, the last one in front. -/
structure Desk where
  service : Service
  held : List Holding
  closings : List Closing

/-- How a holder uses a session. -/
inductive Request where
  | page (request : SearchRequest) (cookie : Option Cookie)
  | abandon (cookie : Cookie)

/-- The session and the directory after a request. -/
def Request.run (r : Request) (s : Session) (d : Directory) : Session × Directory :=
  match r with
  | .page request cookie => (s.page request cookie d).2
  | .abandon cookie => (s.abandon cookie d).2

/-- What others do to a directory. -/
inductive Disturbance where
  | add (e : Entry)
  | requireCredentials (identity secret : String)
  | setDown (server : String) (isDown : Bool)
  | failNextSearch (e : DirectoryError)
  | failNextAbandon (e : DirectoryError)
  /-- Somebody binds a session without the pool. -/
  | bind (server identity secret : String)

def Disturbance.run (d : Directory) : Disturbance → Directory
  | .add e => d.add e
  | .requireCredentials identity secret => d.requireCredentials identity secret
  | .setDown server isDown => d.setDown server isDown
  | .failNextSearch e => d.failNextSearch e
  | .failNextAbandon e => d.failNextAbandon e
  | .bind server identity secret => (d.bind server identity secret).2

/-- What can happen at a desk.  Holdings are given by their position. -/
inductive Dealing where
  | acquire
  | release (i : Nat)
  | evict (i : Nat)
  | checkOut
  | settle (i : Nat) (error : Option DirectoryError)
  | markForEviction (i : Nat)
  /-- The holder of a lease gives it back or drops it. -/
  | giveBack (i : Nat)
  /-- An operation on a session begins. -/
  | begin
  /-- An operation ends, with the directory's error if it failed with one. -/
  | finish (i : Nat) (fault : Option DirectoryError)
  | closeAll
  | request (i : Nat) (r : Request)
  /-- The next binds try the replicas in this order. -/
  | reorder (replicas : List String)
  | disturb (how : Disturbance)

namespace Desk

/-- A service over which nothing was handed out yet. -/
def ofService (svc : Service) : Desk :=
  ⟨svc, [], []⟩

/-- Takes a session. -/
def take (d : Desk) (hold : Session → Holding) : Desk :=
  match d.service.acquire with
  | (.ok s, svc) => { d with service := svc, held := hold s :: d.held }
  | (.error _, svc) => { d with service := svc }

/-- Why the pool closes a session that comes back now, if it does. -/
def cause? (svc : Service) : Disposition → Option Cause
  | .evict => some .eviction
  | .release => if svc.pool.idle.length < svc.pool.capacity then none else some .overflow

/-- Hands back what is held at a position.  Nothing happens if it is not held in the right way. -/
def handBack (d : Desk) (i : Nat) (disposition? : Holding → Option Disposition) : Desk :=
  match d.held[i]? with
  | none => d
  | some h =>
    match disposition? h with
    | none => d
    | some disposition =>
      { service := d.service.takeBack h.session disposition
        held := d.held.eraseIdx i
        closings := ((cause? d.service disposition).map (⟨·, h.session.id⟩)).toList ++ d.closings }

/-- Changes what is held at a position. -/
def onHolding (d : Desk) (i : Nat) (change : Holding → Holding) : Desk :=
  match d.held[i]? with
  | none => d
  | some h => { d with held := d.held.set i (change h) }

/-- Uses the session that is held at a position. -/
def request (d : Desk) (i : Nat) (r : Request) : Desk :=
  match d.held[i]? with
  | none => d
  | some h =>
    let (s, directory) := r.run h.session d.service.directory
    { d with service.directory := directory, held := d.held.set i (h.withSession s) }

/-- The desk after a dealing. -/
def deal (d : Desk) : Dealing → Desk
  | .acquire => d.take .plain
  | .release i => d.handBack i fun
    | .plain _ => some .release
    | _ => none
  | .evict i => d.handBack i fun
    | .plain _ => some .evict
    | _ => none
  | .checkOut =>
    match d.service.checkOut with
    | (.ok l, svc) => { d with service := svc, held := .leased l :: d.held }
    | (.error _, svc) => { d with service := svc }
  | .settle i error => d.onHolding i (.onLease (·.settle error))
  | .markForEviction i => d.onHolding i (.onLease (·.markForEviction))
  | .giveBack i => d.handBack i fun
    | .leased l => some l.disposition
    | _ => none
  | .begin => d.take .lent
  | .finish i fault => d.handBack i fun
    | .lent _ => some (.after fault)
    | _ => none
  | .closeAll =>
    { d with
      service := d.service.closeAll
      closings := d.service.pool.idle.map (⟨.shutdown, ·.id⟩) ++ d.closings }
  | .request i r => d.request i r
  | .reorder replicas => { d with service.pool.config.replicas := replicas }
  | .disturb how => { d with service.directory := how.run d.service.directory }

/-- The numbers of all sessions of the pool: the idle ones, those that are held and those that were
closed. -/
def ids (d : Desk) : List Nat :=
  d.service.pool.idle.map Session.id ++ d.held.map (·.session.id) ++ d.closings.map Closing.id

/-- The sessions of the pool that are not closed. -/
def sessions (d : Desk) : List Session :=
  d.service.pool.idle ++ d.held.map Holding.session

/-- The number from which on no session is bound yet. -/
def bound (d : Desk) : Nat :=
  d.service.directory.sessionsBound

end Desk

/-! ## What a dealing can do -/

/-- What the books know of a session: its number, and whether it is open. -/
def Session.connection (s : Session) : Nat × Bool :=
  (s.id, s.isOpen)

lemma Session.SameConnection.connection_eq {s s' : Session} (h : s.SameConnection s') :
    s'.connection = s.connection :=
  Prod.ext h.id h.isOpen

@[simp] theorem Holding.session_withSession (h : Holding) (s : Session) :
    (h.withSession s).session = s := by
  cases h <;> rfl

lemma Holding.session_onLease {change : Lease → Lease}
    (hchange : ∀ l, (change l).session = l.session) (h : Holding) :
    (h.onLease change).session = h.session := by
  cases h with
  | leased l => exact hchange l
  | plain s => rfl
  | lent s => rfl

namespace Service

variable (svc : Service)

/-- Acquiring hands out an idle session or binds a new one, or fails. -/
lemma acquire_cases :
    (∃ s rest, svc.pool.idle = s :: rest ∧ svc.acquire = (.ok s,
      { svc with pool := { svc.pool with idle := rest, reused := svc.pool.reused + 1 } })) ∨
    (∃ s directory, svc.directory.Opens s directory ∧ svc.acquire = (.ok s,
      ⟨directory, { svc.pool with created := svc.pool.created + 1 }⟩)) ∨
    ∃ e directory, svc.directory.SameStock directory ∧
      svc.acquire = (.error e, { svc with directory }) := by
  unfold acquire acquireFrom
  simp only
  split
  · rename_i s rest hidle
    exact .inl ⟨s, rest, hidle, rfl⟩
  · split
    · rename_i s directory hbind
      exact .inr (.inl ⟨s, directory, Directory.bindFirst_ok hbind, rfl⟩)
    · rename_i e directory hbind
      obtain ⟨hstock, -⟩ := Directory.bindFirst_error hbind
      exact .inr (.inr ⟨e, directory, hstock, rfl⟩)

lemma sessionsBound_close (s : Session) (directory : Directory) :
    (s.close directory).2.sessionsBound = directory.sessionsBound := by
  unfold Session.close
  split <;> rfl

lemma eq_of_ofConfig {config : PoolConfig} {directory : Directory} {svc : Service}
    (h : ofConfig config directory = .ok svc) : svc = ⟨directory, .ofConfig config⟩ := by
  unfold ofConfig at h
  split at h <;> cases h
  rfl

/-- Closing down closes every idle session once and touches nothing else. -/
lemma closeAll_eq :
    svc.closeAll.pool = { svc.pool with
      idle := [], capacity := 0, closed := svc.pool.closed + svc.pool.idle.length } ∧
    svc.closeAll.directory.sessionsBound = svc.directory.sessionsBound := by
  unfold closeAll
  induction svc.pool.idle with
  | nil => exact ⟨rfl, rfl⟩
  | cons s rest ih =>
    obtain ⟨hpool, hbound⟩ := ih
    rw [List.foldr_cons]
    constructor
    · rw [closeSession, hpool]
      rfl
    · exact (sessionsBound_close s _).trans hbound

end Service

namespace Desk

/-- The books show no difference. -/
structure Quiet (d d' : Desk) : Prop where
  pool : ∃ config : PoolConfig, d'.service.pool = { d.service.pool with config }
  bound : d.bound ≤ d'.bound
  held : d'.held.map (·.session.connection) = d.held.map (·.session.connection)
  closings : d'.closings = d.closings

/-- What a dealing can do, short of closing everything down. -/
inductive Turn (d : Desk) : Desk → Prop where
  | quiet {d' : Desk} (h : d.Quiet d') : Turn d d'
  /-- A session is bound and handed out. -/
  | opens {h : Holding} {directory : Directory}
      (hopens : d.service.directory.Opens h.session directory) :
      Turn d ⟨⟨directory, { d.service.pool with created := d.service.pool.created + 1 }⟩,
        h :: d.held, d.closings⟩
  /-- The session that came back last is handed out again. -/
  | reuse {h : Holding} {rest : List Session} (hidle : d.service.pool.idle = h.session :: rest) :
      Turn d ⟨{ d.service with pool := { d.service.pool with
          idle := rest, reused := d.service.pool.reused + 1 } },
        h :: d.held, d.closings⟩
  /-- A session comes back and is kept. -/
  | keep {i : Nat} {h : Holding} (hheld : d.held[i]? = some h)
      (hroom : d.service.pool.idle.length < d.service.pool.capacity) :
      Turn d ⟨{ d.service with pool := { d.service.pool with
          idle := h.session :: d.service.pool.idle, released := d.service.pool.released + 1 } },
        d.held.eraseIdx i, d.closings⟩
  /-- A session comes back when enough are idle, and is closed. -/
  | overflow {i : Nat} {h : Holding} (hheld : d.held[i]? = some h) :
      Turn d ⟨d.service.closeSession h.session, d.held.eraseIdx i,
        ⟨.overflow, h.session.id⟩ :: d.closings⟩
  /-- A session comes back that may be in a bad state, and is closed. -/
  | evict {i : Nat} {h : Holding} (hheld : d.held[i]? = some h) :
      Turn d ⟨d.service.evict h.session, d.held.eraseIdx i,
        ⟨.eviction, h.session.id⟩ :: d.closings⟩

variable {d d' : Desk}

lemma Quiet.refl (d : Desk) : d.Quiet d :=
  ⟨⟨d.service.pool.config, rfl⟩, Nat.le_refl _, rfl, rfl⟩

lemma turn_take {hold : Session → Holding} (hhold : ∀ s, (hold s).session = s) :
    d.Turn (d.take hold) := by
  unfold take
  obtain ⟨s, rest, hidle, h⟩ | ⟨s, directory, hopens, h⟩ | ⟨e, directory, hstock, h⟩ :=
    d.service.acquire_cases
  · simp only [h]
    exact .reuse (by rw [hidle, hhold])
  · simp only [h]
    exact .opens (by rwa [hhold])
  · simp only [h]
    exact .quiet ⟨⟨_, rfl⟩, Nat.le_of_eq hstock.sessionsBound.symm, rfl, rfl⟩

/-- Checking out is taking on a lease. -/
lemma deal_checkOut (d : Desk) : d.deal .checkOut = d.take fun s => .leased ⟨s, .release⟩ := by
  rw [deal, take, Service.checkOut]
  rcases d.service.acquire with ⟨e | s, svc⟩ <;> rfl

lemma turn_handBack (i : Nat) (disposition? : Holding → Option Disposition) :
    d.Turn (d.handBack i disposition?) := by
  unfold handBack
  cases hheld : d.held[i]? with
  | none => exact .quiet (.refl d)
  | some h =>
    cases hdisposition : disposition? h with
    | none =>
      simp only [hdisposition]
      exact .quiet (.refl d)
    | some disposition =>
      simp only [hdisposition]
      cases disposition with
      | evict => exact .evict hheld
      | release =>
        by_cases hroom : d.service.pool.idle.length < d.service.pool.capacity
        · simp only [cause?, Service.takeBack, Service.release, if_pos hroom]
          exact .keep hheld hroom
        · simp only [cause?, Service.takeBack, Service.release, if_neg hroom]
          exact .overflow hheld

/-- A holding may be replaced by another one with the same connection. -/
lemma map_set_connection {i : Nat} {h h' : Holding} (hheld : d.held[i]? = some h)
    (hsame : h'.session.connection = h.session.connection) :
    (d.held.set i h').map (·.session.connection) = d.held.map (·.session.connection) := by
  obtain ⟨hi, rfl⟩ := List.getElem?_eq_some_iff.1 hheld
  have hget : (d.held.map (·.session.connection))[i]? = some d.held[i].session.connection := by
    simp [hi]
  rw [List.map_set, hsame, ← List.getElem?_eq_some_iff.1 hget |>.2]
  exact List.set_getElem_self _

lemma turn_onHolding (i : Nat) {change : Lease → Lease}
    (hchange : ∀ l, (change l).session = l.session) :
    d.Turn (d.onHolding i (.onLease change)) := by
  unfold onHolding
  cases hheld : d.held[i]? with
  | none => exact .quiet (.refl d)
  | some h =>
    refine .quiet ⟨⟨_, rfl⟩, Nat.le_refl _, ?_, rfl⟩
    exact map_set_connection hheld (by rw [Holding.session_onLease hchange])

lemma run_request {r : Request} {s s' : Session} {directory directory' : Directory}
    (h : r.run s directory = (s', directory')) :
    s.SameConnection s' ∧ directory.SameStock directory' := by
  cases r with
  | page request cookie =>
    rcases hpage : s.page request cookie directory with ⟨result, s₁, directory₁⟩
    obtain ⟨hsession, hstock⟩ := Session.page_changes hpage
    rw [Request.run, hpage] at h
    cases h
    exact ⟨hsession, hstock⟩
  | abandon cookie =>
    rcases habandon : s.abandon cookie directory with ⟨result, s₁, directory₁⟩
    obtain ⟨hsession, hstock, -⟩ := Session.abandon_changes habandon
    rw [Request.run, habandon] at h
    cases h
    exact ⟨hsession, hstock⟩

lemma turn_request (i : Nat) (r : Request) : d.Turn (d.request i r) := by
  unfold request
  cases hheld : d.held[i]? with
  | none => exact .quiet (.refl d)
  | some h =>
    rcases hrun : r.run h.session d.service.directory with ⟨s, directory⟩
    obtain ⟨hsession, hstock⟩ := run_request hrun
    refine .quiet ⟨⟨_, rfl⟩, ?_, ?_, rfl⟩
    · simp only [hrun]
      exact Nat.le_of_eq hstock.sessionsBound.symm
    · refine map_set_connection hheld ?_
      rw [hrun, Holding.session_withSession]
      exact hsession.connection_eq

lemma sessionsBound_disturb (directory : Directory) (how : Disturbance) :
    directory.sessionsBound ≤ (how.run directory).sessionsBound := by
  cases how with
  | bind server identity secret =>
    rcases hbind : directory.bind server identity secret with ⟨e | s, directory'⟩
    · obtain ⟨hstock, -⟩ := Directory.bind_error hbind
      rw [Disturbance.run, hbind]
      exact Nat.le_of_eq hstock.sessionsBound.symm
    · rw [Disturbance.run, hbind, (Directory.bind_ok hbind).sessionsBound]
      exact Nat.le_succ _
  | _ => exact Nat.le_refl _

theorem turn_deal (d : Desk) {x : Dealing} (hx : x ≠ .closeAll) : d.Turn (d.deal x) := by
  cases x with
  | acquire => exact turn_take fun _ => rfl
  | release i => exact turn_handBack i _
  | evict i => exact turn_handBack i _
  | checkOut =>
    rw [deal_checkOut]
    exact turn_take fun _ => rfl
  | settle i error => exact turn_onHolding i (Lease.session_settle · error)
  | markForEviction i => exact turn_onHolding i fun _ => rfl
  | giveBack i => exact turn_handBack i _
  | begin => exact turn_take fun _ => rfl
  | finish i fault => exact turn_handBack i _
  | closeAll => exact absurd rfl hx
  | request i r => exact turn_request i r
  | reorder replicas => exact .quiet ⟨⟨_, rfl⟩, Nat.le_refl _, rfl, rfl⟩
  | disturb how => exact .quiet ⟨⟨_, rfl⟩, sessionsBound_disturb _ how, rfl, rfl⟩

/-! ## Operations on a session -/

lemma withSession_of_acquire {ε α : Type} {ofError : DirectoryError → ε}
    {fault? : ε → Option DirectoryError} {op : Session → Service → Except ε α × Session × Service}
    {before svc svc' : Service} {s s' : Session} {result : Except ε α}
    {fault : Option DirectoryError} (hacquire : before.acquire = (.ok s, svc))
    (hfault : fault = match result with
      | .ok _ => none
      | .error e => fault? e)
    (hop : op s svc = (result, s', svc')) :
    before.withSession ofError fault? op = (result, svc'.takeBack s' (.after fault)) := by
  unfold Service.withSession
  cases result <;> simp only [hacquire, hop, hfault]

/-- An operation that is run on a session begins and finishes, with whatever happens at the desk in
between.  Only the failure to take a session is left out. -/
lemma withSession_eq {ε α : Type} {ofError : DirectoryError → ε}
    {fault? : ε → Option DirectoryError} {op : Session → Service → Except ε α × Session × Service}
    {s s' : Session} {svc : Service} {body : List Dealing} {i : Nat}
    (hacquire : d.service.acquire = (.ok s, svc))
    (hop : (op s svc).2 = (s', (body.foldl deal (d.deal .begin)).service))
    (hheld : (body.foldl deal (d.deal .begin)).held[i]? = some (.lent s')) :
    let fault := match (op s svc).1 with
      | .ok _ => none
      | .error e => fault? e
    d.service.withSession ofError fault? op =
      ((op s svc).1, ((body.foldl deal (d.deal .begin)).deal (.finish i fault)).service) := by
  intro fault
  have hpair : op s svc = ((op s svc).1, s', (body.foldl deal (d.deal .begin)).service) :=
    Prod.ext rfl hop
  have hfinish : ((body.foldl deal (d.deal .begin)).deal (.finish i fault)).service =
      (body.foldl deal (d.deal .begin)).service.takeBack s' (.after fault) := by
    simp only [deal.eq_def _ (.finish i fault), handBack, hheld, Holding.session]
  rw [hfinish]
  exact withSession_of_acquire hacquire rfl hpair

end Desk

end DirectoryQuery
