import DirectoryQuery.Pool.Lease
import Mathlib.Tactic.Lemma

/-!
# Scoped use of a session

An operation can be run on a session directly, or on a lease that is settled with the error of the
operation and given back.  The rule for what happens to the session is written down once in each of
these two forms: after the operation, and in a note on the lease that is acted on when it is given
back.  `Service.withLease_eq` says that they agree, for every operation and whatever it does to the
service meanwhile.

Operations use scopes of their own.  An `Errand` is an operation step by step, with the form of
each scope that it opens; `Errand.run_inForm` says that the forms can be exchanged at any depth.
-/

namespace DirectoryQuery

variable {ε α : Type} (ofError : DirectoryError → ε) (fault? : ε → Option DirectoryError)

/-- The error of the directory that an operation failed with, if it did. -/
def faultOf (fault? : ε → Option DirectoryError) : Except ε α → Option DirectoryError
  | .ok _ => none
  | .error e => fault? e

lemma DirectoryError.isAcceptable_eq_false_iff (e : DirectoryError) :
    e.isAcceptable = false ↔ ∀ name, e ≠ .noSuchObject name := by
  cases e <;> simp [isAcceptable]

namespace Lease

/-- The lease with its session as it is after an operation. -/
def onSession (l : Lease) (s : Session) : Lease :=
  { l with session := s }

/-- A lease that nothing was noted on yet takes its note from the first error. -/
lemma settle_new (s : Session) (error : Option DirectoryError) :
    Lease.settle ⟨s, .release⟩ error = ⟨s, .after error⟩ := by
  rw [settle]
  split
  · rename_i h
    rw [h]
  · rename_i h
    rw [h]

end Lease

namespace Service

variable (op : Session → Service → Except ε α × Session × Service) (svc : Service)

/-- Runs an operation on the session of a lease.  Afterwards the lease is settled with the error of
the operation and given back. -/
def withLease : Except ε α × Service :=
  match svc.checkOut with
  | (.error e, svc) => (.error (ofError e), svc)
  | (.ok l, svc) =>
    let (result, s, svc) := op l.session svc
    (result, svc.giveBack ((l.onSession s).settle (faultOf fault? result)))

/-- Both forms of a scope do the same. -/
lemma withLease_eq : svc.withLease ofError fault? op = svc.withSession ofError fault? op := by
  rw [withLease, checkOut, withSession]
  rcases svc.acquire with ⟨e | s, taken⟩
  · rfl
  · rcases hop : op s taken with ⟨result, s', left⟩
    simp only [hop, Lease.onSession, Lease.settle_new]
    cases result <;> rfl

lemma evicted_release (s : Session) : (svc.release s).pool.evicted = svc.pool.evicted := by
  rw [release]
  split <;> rfl

/-- An operation does the same on a lease as in a scope: the outcome, the pool and the directory are
equal.  In both the session is discarded if and only if the operation fails with an error of the
directory other than that of an entry that is not there. -/
theorem scopes_agree :
    svc.withLease ofError fault? op = svc.withSession ofError fault? op ∧
    match svc.acquire with
    | (.error e, failed) => svc.withSession ofError fault? op = (.error (ofError e), failed)
    | (.ok s, taken) =>
      let (result, s, left) := op s taken
      let spoiled := ∃ e, faultOf fault? result = some e ∧ ∀ name, e ≠ .noSuchObject name
      (svc.withSession ofError fault? op).1 = result ∧
      (spoiled → (svc.withSession ofError fault? op).2 = left.evict s) ∧
      (¬spoiled → (svc.withSession ofError fault? op).2 = left.release s) ∧
      ((svc.withSession ofError fault? op).2.pool.evicted = left.pool.evicted + 1 ↔ spoiled) := by
  refine ⟨svc.withLease_eq ofError fault? op, ?_⟩
  rcases hacquire : svc.acquire with ⟨e | s, taken⟩
  · show svc.withSession ofError fault? op = (.error (ofError e), taken)
    rw [withSession, hacquire]
  · rcases hop : op s taken with ⟨result, s', left⟩
    have hrun : svc.withSession ofError fault? op =
        (result, left.takeBack s' (.after (faultOf fault? result))) := by
      rw [withSession, hacquire]
      simp only [hop]
      cases result <;> rfl
    simp -zeta only [hop]
    intro spoiled
    have hspoiled : Disposition.after (faultOf fault? result) = .evict ↔ spoiled := by
      simp only [Disposition.after_eq_evict_iff, DirectoryError.isAcceptable_eq_false_iff, spoiled]
    rw [hrun, ← hspoiled]
    cases Disposition.after (faultOf fault? result) with
    | evict => exact ⟨rfl, fun _ => rfl, fun h => absurd rfl h, fun _ => rfl, fun _ => rfl⟩
    | release =>
      refine ⟨rfl, fun h => (by cases h), fun _ => rfl, fun h => ?_, fun h => (by cases h)⟩
      rw [takeBack, evicted_release] at h
      omega

end Service

/-! ## Scopes within scopes -/

/-- The form of a scope. -/
inductive ScopeForm where
  /-- An operation is run on a session. -/
  | direct
  /-- An operation is run on a lease. -/
  | leased

/-- Runs an operation in a scope of a form. -/
def ScopeForm.within (form : ScopeForm) (op : Session → Service → Except ε α × Session × Service)
    (svc : Service) : Except ε α × Service :=
  match form with
  | .direct => svc.withSession ofError fault? op
  | .leased => svc.withLease ofError fault? op

lemma ScopeForm.within_eq (form : ScopeForm)
    (op : Session → Service → Except ε α × Session × Service) (svc : Service) :
    form.within ofError fault? op svc = svc.withSession ofError fault? op := by
  cases form with
  | direct => rfl
  | leased => exact svc.withLease_eq ofError fault? op

/-- An operation on a session, step by step: what it asks of the session, the scopes with sessions
of their own that it opens, and how it ends. -/
inductive Errand (ε α : Type) where
  | done (result : Except ε α)
  | page (request : SearchRequest) (cookie : Option Cookie)
    (next : Except DirectoryError Page → Errand ε α)
  | abandon (cookie : Cookie) (next : Except DirectoryError Unit → Errand ε α)
  | scope (form : ScopeForm) (inner : Errand ε α) (next : Except ε α → Errand ε α)

namespace Errand

/-- Runs an errand. -/
def run : Errand ε α → Session → Service → Except ε α × Session × Service
  | .done result => fun s svc => (result, s, svc)
  | .page request cookie next => fun s svc =>
    let (answer, s, directory) := s.page request cookie svc.directory
    (next answer).run s { svc with directory }
  | .abandon cookie next => fun s svc =>
    let (answer, s, directory) := s.abandon cookie svc.directory
    (next answer).run s { svc with directory }
  | .scope form inner next => fun s svc =>
    let (result, svc) := form.within ofError fault? inner.run svc
    (next result).run s svc

/-- The errand with all its scopes in one form. -/
def inForm (form : ScopeForm) : Errand ε α → Errand ε α
  | .done result => .done result
  | .page request cookie next => .page request cookie fun answer => (next answer).inForm form
  | .abandon cookie next => .abandon cookie fun answer => (next answer).inForm form
  | .scope _ inner next => .scope form (inner.inForm form) fun result => (next result).inForm form

/-- An errand does the same in whatever forms its scopes are, at any depth. -/
theorem run_inForm (form : ScopeForm) (x : Errand ε α) :
    (x.inForm form).run ofError fault? = x.run ofError fault? := by
  induction x with
  | done result => rfl
  | page request cookie next ih =>
    funext s svc
    simp only [inForm, run, ih]
  | abandon cookie next ih =>
    funext s svc
    simp only [inForm, run, ih]
  | scope form' inner next ihInner ihNext =>
    funext s svc
    simp only [inForm, run, ihInner, ihNext, ScopeForm.within_eq]

end Errand

end DirectoryQuery
