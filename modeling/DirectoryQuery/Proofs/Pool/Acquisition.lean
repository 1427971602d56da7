import DirectoryQuery.Pool.Basic
import Mathlib.Data.List.Perm.Basic
import Mathlib.Tactic.Lemma

/-!
# Acquiring sessions

A pool without an idle session binds a new one, and tries its servers until one of them answers.
Which servers are tried depends on their order, and the replicas come in any order.  What binding
comes to does not depend on it: all servers ask for the same credentials, so it only matters whether
any of them can be reached (`Directory.binding`).

`Directory.bindFirst_eq` says what the whole search for a server does to the directory: it leaves
the servers that were tried on the record, and changes nothing else unless a session was bound.
-/

namespace DirectoryQuery

namespace Directory

variable (d : Directory) (identity secret : String)

/-- Whether a server cannot be reached. -/
def isDown (server : String) : Bool :=
  d.down.contains server

/-- The servers that are tried in turn: those that cannot be reached, and the first one that can. -/
def tried (servers : List String) : List String :=
  servers.takeWhile d.isDown ++ (servers.find? fun server => !d.isDown server).toList

/-- The directory after attempts to bind. -/
def attempt (servers : List String) : Directory :=
  { d with bindAttempts := d.bindAttempts ++ servers }

/-- The session that the directory binds next. -/
def fresh : Session :=
  ⟨d.sessionsBound, [], true⟩

/-- The directory with one more session bound. -/
def opened : Directory :=
  { d with openSessions := d.openSessions + 1, sessionsBound := d.sessionsBound + 1 }

/-- The error of credentials that are rejected. -/
def rejection : DirectoryError :=
  .authentication ("invalid credentials for " ++ Text.quoted identity)

/-- What binding to the first of the servers that can be reached comes to, when `n` servers are to
be reported. -/
def binding (n : Nat) (servers : List String) : Except DirectoryError Session :=
  if servers.all d.isDown then .error (.noServerAvailable n)
  else if d.accepts identity secret then .ok d.fresh
  else .error (rejection identity)

/-- The directory after what binding came to. -/
def after : Except DirectoryError Session → Directory
  | .ok _ => d.opened
  | .error _ => d

variable {d identity secret}

/-! ## Single servers -/

lemma bind_of_isDown {server : String} (h : d.isDown server = true) :
    d.bind server identity secret =
      (.error (.connection (server ++ " unreachable")), d.attempt [server]) := by
  rw [bind]
  exact if_pos h

/-- All servers that can be reached answer alike. -/
lemma bind_of_isUp {server : String} (h : d.isDown server = false) :
    d.bind server identity secret =
      if d.accepts identity secret then (.ok d.fresh, (d.attempt [server]).opened)
      else (.error (rejection identity), d.attempt [server]) := by
  have hreached : ¬d.down.contains server = true := ne_true_of_eq_false h
  rw [bind]
  exact if_neg hreached

/-! ## Servers in turn -/

lemma tried_cons_of_isDown {server : String} (h : d.isDown server = true) (rest : List String) :
    d.tried (server :: rest) = server :: d.tried rest := by
  rw [tried, List.takeWhile_cons_of_pos h, List.find?_cons_of_neg (by simp [h])]
  rfl

lemma tried_cons_of_isUp {server : String} (h : d.isDown server = false) (rest : List String) :
    d.tried (server :: rest) = [server] := by
  rw [tried, List.takeWhile_cons_of_neg (by simp [h]), List.find?_cons_of_pos (by simp [h])]
  rfl

lemma attempt_attempt (first rest : List String) :
    (d.attempt first).attempt rest = d.attempt (first ++ rest) := by
  rw [attempt, attempt, attempt, List.append_assoc]

/-- Binding comes to the same in whatever order the servers are tried. -/
lemma binding_perm {servers servers' : List String} (h : servers.Perm servers') (n : Nat) :
    d.binding identity secret n servers = d.binding identity secret n servers' := by
  rw [binding, h.all_eq, binding]

/-- The search for a server tries those up to the first one that can be reached. -/
theorem bindFirst_eq (d : Directory) (identity secret : String) (n : Nat) (servers : List String) :
    d.bindFirst identity secret n servers =
      (d.binding identity secret n servers,
        (d.attempt (d.tried servers)).after (d.binding identity secret n servers)) := by
  induction servers generalizing d with
  | nil =>
    have hnone : d.attempt [] = d := by rw [attempt, List.append_nil]
    rw [bindFirst]
    exact Prod.ext rfl hnone.symm
  | cons server rest ih =>
    rw [bindFirst]
    cases hdown : d.isDown server with
    | true =>
      -- The attempt goes on the record and changes nothing that the others depend on.
      have hlater : (d.attempt [server]).binding identity secret n rest =
          d.binding identity secret n (server :: rest) := by
        rw [binding, binding, List.all_cons, hdown, Bool.true_and]
        rfl
      have hrecord : (d.attempt [server]).attempt ((d.attempt [server]).tried rest) =
          d.attempt (d.tried (server :: rest)) := by
        rw [attempt_attempt, tried_cons_of_isDown hdown]
        rfl
      rw [bind_of_isDown hdown]
      show (d.attempt [server]).bindFirst identity secret n rest = _
      rw [ih, hlater, hrecord]
    | false =>
      rw [bind_of_isUp hdown, tried_cons_of_isUp hdown, binding, List.all_cons, hdown,
        Bool.false_and, if_neg Bool.false_ne_true]
      by_cases haccepts : d.accepts identity secret = true
      · rw [if_pos haccepts, if_pos haccepts]
        rfl
      · rw [if_neg haccepts, if_neg haccepts]
        rfl

end Directory

/-! ## Pools -/

/-- The pool after what binding came to. -/
def Pool.after (p : Pool) : Except DirectoryError Session → Pool
  | .ok _ => { p with created := p.created + 1 }
  | .error _ => p

/-- What binding to the first of the servers that can be reached comes to. -/
def Service.binding (svc : Service) (servers : List String) : Except DirectoryError Session :=
  svc.directory.binding svc.pool.config.bindName svc.pool.config.password servers.length servers

lemma PoolConfig.candidatesIn_perm (c : PoolConfig) {replicas replicas' : List String}
    (h : replicas.Perm replicas') : (c.candidatesIn replicas).Perm (c.candidatesIn replicas') := by
  rw [candidatesIn, candidatesIn]
  cases c.mode with
  | readOnly => exact h.cons c.primary
  | readWrite => exact .refl _

namespace Service

variable {svc : Service} {servers servers' : List String}

/-- Without an idle session a pool tries its servers, and counts the session if there is one. -/
lemma acquireFrom_of_idle_nil (h : svc.pool.idle = []) (servers : List String) :
    svc.acquireFrom servers = (svc.binding servers,
      ⟨(svc.directory.attempt (svc.directory.tried servers)).after (svc.binding servers),
        svc.pool.after (svc.binding servers)⟩) := by
  have hbinding : svc.directory.binding svc.pool.config.bindName svc.pool.config.password
      servers.length servers = svc.binding servers := rfl
  unfold acquireFrom
  simp only
  split
  · rename_i hidle
    rw [h] at hidle
    cases hidle
  · rw [Directory.bindFirst_eq, hbinding]
    cases svc.binding servers <;> rfl

/-- An idle session is handed out without asking the directory. -/
lemma acquireFrom_of_idle_cons {s : Session} {rest : List Session} (h : svc.pool.idle = s :: rest)
    (servers : List String) :
    svc.acquireFrom servers = (.ok s, { svc with
      pool := { svc.pool with idle := rest, reused := svc.pool.reused + 1 } }) := by
  unfold acquireFrom
  simp only [h]

lemma binding_perm (svc : Service) (h : servers.Perm servers') :
    svc.binding servers = svc.binding servers' := by
  rw [binding, h.length_eq]
  exact Directory.binding_perm h _

/-- In whatever order the servers are tried, the outcome is the same. -/
lemma acquireFrom_perm (svc : Service) (h : servers.Perm servers') :
    (svc.acquireFrom servers).1 = (svc.acquireFrom servers').1 := by
  cases hidle : svc.pool.idle with
  | nil =>
    rw [acquireFrom_of_idle_nil hidle, acquireFrom_of_idle_nil hidle]
    exact svc.binding_perm h
  | cons s rest => rw [acquireFrom_of_idle_cons hidle, acquireFrom_of_idle_cons hidle]

/-- A failed attempt to get a session leaves no trace but the record of the servers tried. -/
lemma acquireFrom_error {e : DirectoryError} (h : (svc.acquireFrom servers).1 = .error e) :
    (svc.acquireFrom servers).2 =
      { svc with directory := svc.directory.attempt (svc.directory.tried servers) } := by
  cases hidle : svc.pool.idle with
  | cons s rest =>
    rw [acquireFrom_of_idle_cons hidle] at h
    cases h
  | nil =>
    rw [acquireFrom_of_idle_nil hidle] at h ⊢
    have hfailed : svc.binding servers = .error e := h
    rw [hfailed]
    rfl

/-- The first server that can be reached decides what binding comes to. -/
lemma binding_of_find? {server : String}
    (h : servers.find? (fun server => !svc.directory.isDown server) = some server) :
    svc.binding servers =
      if svc.directory.accepts svc.pool.config.bindName svc.pool.config.password then
        .ok svc.directory.fresh
      else .error (Directory.rejection svc.pool.config.bindName) := by
  have hup : svc.directory.isDown server = false := by simpa using List.find?_some h
  have hsome : ¬servers.all svc.directory.isDown = true := fun hall =>
    ne_true_of_eq_false hup (List.all_eq_true.1 hall server (List.mem_of_find?_eq_some h))
  rw [binding, Directory.binding, if_neg hsome]

/-- A pool takes an idle session without asking the directory.  Without one it tries the primary
server and then the replicas, in the order in which they come, up to the first server that can be
reached; that one decides the outcome, which is therefore the same in every order.  A failure leaves
no trace but the record of the servers tried. -/
theorem acquire_shuffled (svc : Service) {replicas : List String}
    (h : replicas.Perm svc.pool.config.replicas) :
    let pool := svc.pool
    let directory := svc.directory
    let servers := pool.config.candidatesIn replicas
    let acquired := svc.acquireFrom servers
    (servers = match pool.config.mode with
      | .readOnly => pool.config.primary :: replicas
      | .readWrite => [pool.config.primary]) ∧
    (∀ s rest, pool.idle = s :: rest →
      acquired = (.ok s, ⟨directory, { pool with idle := rest, reused := pool.reused + 1 }⟩)) ∧
    (pool.idle = [] →
      acquired.2.directory.bindAttempts = directory.bindAttempts ++
        (servers.takeWhile directory.isDown ++
          (servers.find? fun server => !directory.isDown server).toList) ∧
      (∀ server, servers.find? (fun server => !directory.isDown server) = some server →
        if directory.accepts pool.config.bindName pool.config.password then
          acquired = (.ok directory.fresh,
            ⟨(directory.attempt (directory.tried servers)).opened,
              { pool with created := pool.created + 1 }⟩)
        else acquired.1 = .error (.authentication
          ("invalid credentials for " ++ Text.quoted pool.config.bindName))) ∧
      (servers.find? (fun server => !directory.isDown server) = none →
        acquired.1 = .error (.noServerAvailable servers.length))) ∧
    acquired.1 = svc.acquire.1 ∧
    ∀ e, acquired.1 = .error e →
      acquired.2 = ⟨directory.attempt (directory.tried servers), pool⟩ := by
  intro pool directory servers acquired
  refine ⟨?_, fun s rest hidle => acquireFrom_of_idle_cons hidle servers, fun hidle => ?_,
    svc.acquireFrom_perm (pool.config.candidatesIn_perm h), fun e => acquireFrom_error⟩
  · cases hmode : pool.config.mode <;> simp only [servers, PoolConfig.candidatesIn, hmode]
  · have hacquired : acquired = _ := acquireFrom_of_idle_nil hidle servers
    rw [hacquired]
    refine ⟨?_, fun server hfirst => ?_, fun hnone => ?_⟩
    · cases svc.binding servers <;> rfl
    · rw [binding_of_find? hfirst]
      split <;> rfl
    · have hall : servers.all directory.isDown = true := by
        simpa using hnone
      exact if_pos hall

/-- With the primary server down, whichever replica comes first is asked. -/
theorem acquire_shuffled_replicas :
    let config : PoolConfig := { PoolConfig.ofPrimary "a" with replicas := ["b", "c"] }
    let svc : Service := ⟨Directory.empty.setDown "a" true, .ofConfig config⟩
    let acquired := svc.acquireFrom (config.candidatesIn ["c", "b"])
    ["c", "b"].Perm config.replicas ∧
      acquired.2.directory.bindAttempts = ["a", "c"] ∧ acquired.1 = svc.acquire.1 := by
  intro config svc acquired
  have hperm : ["c", "b"].Perm svc.pool.config.replicas := by decide
  obtain ⟨-, -, hbind, hsame, -⟩ := svc.acquire_shuffled hperm
  exact ⟨hperm, (hbind rfl).1, hsame⟩

end Service

end DirectoryQuery
