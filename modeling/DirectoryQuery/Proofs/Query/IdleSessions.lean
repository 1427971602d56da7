import DirectoryQuery.Proofs.Query.Readers
import DirectoryQuery.Proofs.Query.Strays
import Mathlib.Algebra.Order.BigOperators.Group.List
import Mathlib.Algebra.Order.Group.Nat

/-!
# What idle sessions remember

A pool hands its idle sessions to whoever comes next, so none of them should have a search under
way.  In a run of readers and evaluations each move is answered, and some answers are errors that
can leave a search open (`Scene.oversights`).  Idle sessions never remember more searches than there
were such answers, and none at all as long as there was none (`Scene.strays_of_moves`).

One move is looked at first (`Scene.advances_move`): it adds no more than its own answer can leave
open, wherever the sessions are.  A run is an induction on its moves.
-/

namespace DirectoryQuery

namespace Reader

/-- What the reader holds. -/
def residue (r : Reader) : Residue :=
  match r.results with
  | some results => results.stream.residue
  | none => .nothing

lemma sessions_residue (r : Reader) : r.residue.sessions = r.held := by
  rw [residue, held, stake]
  cases r.results <;> rfl

end Reader

namespace Scene

open Residue QueryError

/-! ## Answers -/

/-- The error that a move is answered with. -/
def error? (s : Scene) : Move → Option QueryError
  | .poll i =>
    ((s.readers[i]?.bind Reader.results).bind fun r => (r.next s.workspace).1).bind of?
  | .fetch q => of? (q.fetch s.workspace).1
  | .count q => of? (q.count s.workspace).1
  | .one q => of? (q.one s.workspace).1
  | .get q index => of? (q.get index s.workspace).1
  | .aggregate q as => (q.aggregate as s.workspace).2.1
  | _ => none

/-- The number of searches that the answers to moves can leave open. -/
def oversights (s : Scene) : List Move → Nat
  | [] => 0
  | m :: moves => QueryError.oversights (s.error? m) + (s.move m).oversights moves

/-! ## Moves -/

/-- The searches that nobody goes on with, in idle sessions and in those that are held. -/
def strays (s : Scene) : Nat :=
  s.workspace.service.strays + (s.readers.map fun r => r.residue.strays).sum

/-- The sessions are in order, and no more searches are left open than were counted. -/
structure Accounted (s : Scene) (count : Nat) : Prop where
  orderly : ∀ t ∈ s.workspace.service.pool.idle ++ s.held, t.Orderly
  strays_le : s.strays ≤ count

/-- What happens between two scenes leaves so many searches open at most. -/
structure Advances (s s' : Scene) (count : Nat) : Prop where
  grows : s.workspace.service.directory.Grows s'.workspace.service.directory
  accounted : s'.workspace.service.directory.FitsCookies →
    ∀ n, s.Accounted n → s'.Accounted (n + count)

variable {s s' s'' : Scene} {m n : Nat}

lemma Advances.refl (s : Scene) : s.Advances s 0 := ⟨.refl _, fun _ _ h => h⟩

lemma Advances.trans (h : s.Advances s' m) (k : s'.Advances s'' n) : s.Advances s'' (m + n) where
  grows := h.grows.trans k.grows
  accounted hfits count hs := by
    have hs' := h.accounted (k.grows.fitsCookies hfits) count hs
    rw [← Nat.add_assoc]
    exact k.accounted hfits _ hs'

/-- One reader deals with the service. -/
lemma advances_replace {i : Nat} {reader reader' : Reader} {w : Workspace}
    (h : s.readers[i]? = some reader)
    (hpasses : reader.residue.Passes s.workspace.service reader'.residue w.service n) :
    s.Advances ⟨w, s.readers.set i reader'⟩ n := by
  refine ⟨hpasses.grows, fun hfits count hs => ?_⟩
  have hreader : reader.residue.Orderly s.workspace.service := by
    intro t ht
    rw [Reader.sessions_residue] at ht
    refine hs.orderly t (List.mem_append.2 ((List.mem_append.1 ht).imp_right fun ht => ?_))
    exact List.mem_flatMap.2 ⟨reader, List.mem_of_getElem? h, ht⟩
  constructor
  · intro t ht
    have hreader' := hpasses.orderly hfits hreader
    rcases List.mem_append.1 ht with ht | ht
    · exact hreader' t (List.mem_append_left _ ht)
    obtain ⟨r, hr, hheld⟩ := List.mem_flatMap.1 ht
    rcases List.mem_or_eq_of_mem_set hr with hr | rfl
    · exact hs.orderly t (List.mem_append_right _ (List.mem_flatMap.2 ⟨r, hr, hheld⟩))
    · rw [← Reader.sessions_residue] at hheld
      exact hreader' t (List.mem_append_right _ hheld)
  · obtain ⟨l₁, l₂, hsplit, hset⟩ := exists_split h
    have hstrays := hpasses.strays hfits hreader
    have hle := hs.strays_le
    simp only [strays, hsplit, List.map_append, List.map_cons, List.sum_append,
      List.sum_cons] at hle
    simp only [strays, hset, List.map_append, List.map_cons, List.sum_append, List.sum_cons]
    omega

lemma advances_poll (s : Scene) (i : Nat) :
    s.Advances (s.poll i) (QueryError.oversights (s.error? (.poll i))) := by
  cases hreader : s.readers[i]? with
  | none =>
    simp only [poll, error?, hreader]
    exact .refl s
  | some reader =>
    cases hresults : reader.results with
    | none =>
      simp only [poll, error?, hreader, Option.bind_some, hresults]
      exact .refl s
    | some results =>
      rcases hnext : results.next s.workspace with ⟨answer, results', w⟩
      have hresidue : reader.residue = results.stream.residue := by
        rw [Reader.residue, hresults]
      simp only [poll, error?, hreader, Option.bind_some, hresults, hnext]
      exact advances_replace hreader (hresidue ▸ Results.passes_next hnext)

lemma advances_drop (s : Scene) (i : Nat) : s.Advances (s.drop i) 0 := by
  cases hreader : s.readers[i]? with
  | none =>
    simp only [drop, hreader]
    exact .refl s
  | some reader =>
    cases hresults : reader.results with
    | none =>
      simp only [drop, hreader, hresults]
      exact .refl s
    | some results =>
      have hresidue : reader.residue = results.stream.residue := by
        rw [Reader.residue, hresults]
      simp only [drop, hreader, hresults]
      exact advances_replace hreader (hresidue ▸ Results.passes_close results s.workspace)

/-- A reader that was not asked for anything yet holds nothing. -/
lemma advances_create (s : Scene) (q : Query) : s.Advances (s.move (.create q)) 0 := by
  have hresidue : (Reader.ofResults (q.results s.workspace.snapshots)).residue = .nothing :=
    Stream.residue_stream q
  have hheld : (Reader.ofResults (q.results s.workspace.snapshots)).held = [] := by
    rw [← Reader.sessions_residue, hresidue]
    rfl
  refine ⟨.refl _, fun _ count hs => ⟨?_, ?_⟩⟩
  · simp only [move, held, List.flatMap_append, List.flatMap_singleton, hheld, List.append_nil]
    exact hs.orderly
  · have hle := hs.strays_le
    simp only [move, strays, List.map_append, List.map_singleton, hresidue, nothing,
      List.sum_append, List.sum_singleton]
    exact hle

/-- An evaluation holds no session before and after. -/
lemma advances_evaluate {q : Query} {w : Workspace} {error : Option QueryError}
    (h : q.Evaluates s.workspace error w) :
    s.Advances { s with workspace := w } (QueryError.oversights error) := by
  have hpasses := h.passes
  refine ⟨hpasses.grows, fun hfits count hs => ?_⟩
  have hidle : Residue.nothing.Orderly s.workspace.service := by
    intro t ht
    rw [nothing, List.append_nil] at ht
    exact hs.orderly t (List.mem_append_left _ ht)
  constructor
  · intro t ht
    rcases List.mem_append.1 ht with ht | ht
    · exact hpasses.orderly hfits hidle t (List.mem_append_left _ ht)
    · exact hs.orderly t (List.mem_append_right _ ht)
  · have hstrays := hpasses.strays hfits hidle
    have hle := hs.strays_le
    simp only [strays, nothing] at hstrays hle ⊢
    omega

lemma advances_onDirectory (s : Scene) (change : Directory → Directory)
    (h : ∀ d : Directory, d.Grows (change d)) : s.Advances (s.onDirectory change) 0 :=
  ⟨h _, fun _ _ hs => ⟨hs.orderly, hs.strays_le⟩⟩

/-- A move leaves no more searches open than its answer can. -/
theorem advances_move (s : Scene) (m : Move) :
    s.Advances (s.move m) (QueryError.oversights (s.error? m)) := by
  cases m with
  | create q => exact advances_create s q
  | poll i => exact advances_poll s i
  | drop i => exact advances_drop s i
  | fetch q => exact advances_evaluate (q.evaluates_fetch s.workspace)
  | count q => exact advances_evaluate (q.evaluates_count s.workspace)
  | one q => exact advances_evaluate (q.evaluates_one s.workspace)
  | get q index => exact advances_evaluate (q.evaluates_get s.workspace index)
  | aggregate q as => exact advances_evaluate (q.evaluates_aggregate s.workspace as)
  | add e =>
    exact advances_onDirectory s (·.add e) fun d =>
      ⟨Directory.length_le_length_place e d.entries, Nat.le_refl _⟩
  | setDown server isDown =>
    exact advances_onDirectory s (·.setDown server isDown) fun _ => ⟨Nat.le_refl _, Nat.le_refl _⟩
  | failNextSearch e =>
    exact advances_onDirectory s (·.failNextSearch e) fun _ => ⟨Nat.le_refl _, Nat.le_refl _⟩
  | failNextAbandon e =>
    exact advances_onDirectory s (·.failNextAbandon e) fun _ => ⟨Nat.le_refl _, Nat.le_refl _⟩

/-! ## Runs -/

lemma advances_moves (s : Scene) (moves : List Move) :
    s.Advances (moves.foldl move s) (s.oversights moves) := by
  induction moves generalizing s with
  | nil => exact .refl s
  | cons m moves ih => exact (advances_move s m).trans (ih (s.move m))

/-- In the beginning nothing is idle and nothing is held. -/
lemma accounted_start {config : PoolConfig} {d : Directory} {svc : Service}
    (hservice : Service.ofConfig config d = .ok svc) (snapshots : Snapshots) :
    Accounted ⟨⟨svc, snapshots⟩, []⟩ 0 := by
  obtain rfl := Service.eq_of_ofConfig hservice
  exact ⟨fun t ht => absurd ht List.not_mem_nil, Nat.le_refl 0⟩

/-- Whatever happens on a fresh service, and in whatever order: idle sessions remember no more
searches than there were errors that can leave one open, and none of them remembers any if there was
no such error.  Cookies hold numbers of 64 bits, so the entries and the searches have to be that
few. -/
theorem strays_of_moves {config : PoolConfig} {d : Directory} {svc : Service}
    (hservice : Service.ofConfig config d = .ok svc) (snapshots : Snapshots) (moves : List Move)
    (hfits : (moves.foldl move ⟨⟨svc, snapshots⟩, []⟩).workspace.service.directory.FitsCookies) :
    let start : Scene := ⟨⟨svc, snapshots⟩, []⟩
    let idle := (moves.foldl move start).workspace.service.pool.idle
    (idle.map fun t => t.paged.length).sum ≤ start.oversights moves ∧
      (start.oversights moves = 0 → ∀ t ∈ idle, t.paged = []) := by
  intro start idle
  have hend := (advances_moves start moves).accounted hfits 0 (accounted_start hservice snapshots)
  rw [Nat.zero_add] at hend
  have hstrays : (idle.map fun t => t.paged.length).sum ≤ start.oversights moves :=
    Nat.le_trans (Nat.le_add_right _ _) hend.strays_le
  refine ⟨hstrays, fun hnone t ht => List.length_eq_zero_iff.1 ?_⟩
  have hone : t.paged.length ≤ (idle.map fun t => t.paged.length).sum :=
    List.le_sum_of_mem (List.mem_map_of_mem ht)
  omega

/-- One reader is dropped on its first page and another one reads to the end.  Both sessions are
idle then, and neither remembers a search. -/
theorem strays_of_two_readers :
    let q : Query := .search ⟨0, .default⟩ ⟨"", .subtree, none⟩
    let svc : Service := ⟨Directory.empty.addAll [.named "cn=a", .named "cn=b"],
      .ofConfig { PoolConfig.ofPrimary "localhost" with pageSize := 1 }⟩
    let moves := [.create q, .poll 0, .create q, .poll 1, .drop 0, .poll 1, .poll 1]
    let idle := (moves.foldl move ⟨⟨svc, .empty⟩, []⟩).workspace.service.pool.idle
    idle.length = 2 ∧ ∀ t ∈ idle, t.paged = [] := by
  intro q svc moves idle
  have hservice : Service.ofConfig { PoolConfig.ofPrimary "localhost" with pageSize := 1 }
      (Directory.empty.addAll [.named "cn=a", .named "cn=b"]) = .ok svc := rfl
  have hfits : (moves.foldl move ⟨⟨svc, .empty⟩, []⟩).workspace.service.directory.FitsCookies :=
    ⟨by decide +kernel, by decide +kernel⟩
  have hnone : oversights ⟨⟨svc, .empty⟩, []⟩ moves = 0 := by decide +kernel
  exact ⟨by decide +kernel, (strays_of_moves hservice .empty moves hfits).2 hnone⟩

/-- The request for the second page fails because the base is not there any more.  The session is
idle then, and it still remembers the search. -/
theorem strays_of_missing_base :
    let q : Query := .search ⟨0, .default⟩ ⟨"", .subtree, none⟩
    let svc : Service := ⟨Directory.empty.addAll [.named "cn=a", .named "cn=b"],
      .ofConfig { PoolConfig.ofPrimary "localhost" with pageSize := 1 }⟩
    let moves := [.create q, .poll 0, .failNextSearch (.noSuchObject "gone"), .poll 0]
    let idle := (moves.foldl move ⟨⟨svc, .empty⟩, []⟩).workspace.service.pool.idle
    (idle.map fun t => t.paged.map Prod.fst) = [[1]] := by
  decide +kernel

end Scene

end DirectoryQuery
