import DirectoryQuery.Proofs.Query.Readiness

/-!
# What a stream comes to

A stream delivers entries and then comes to its end or fails.  Its outcome is read off the stream
and the entries of the directory (`Stream.outcome`), stage by stage and on whole lists; the outcome
of a query is that of its stream (`Stream.outcome_stream`).

`StreamEvent.Opens` relates what a step brings about to the outcomes before and after it.  Here the
stages are shown to keep this relation: what a step below a stage does to the outcome below, the
step of the stage does to the outcome of the stage.
-/

namespace DirectoryQuery

/-- The entries that are delivered, in order, and the error that ends them, if there is one. -/
structure Outcome where
  entries : List Entry
  error : Option QueryError

namespace Outcome

def nothing : Outcome :=
  ⟨[], none⟩

def failure (e : QueryError) : Outcome :=
  ⟨[], some e⟩

/-- An entry, and then what the outcome says. -/
def cons (e : Entry) (o : Outcome) : Outcome :=
  ⟨e :: o.entries, o.error⟩

/-- The outcome below a stage that does something to the entries. -/
def onEntries (f : List Entry → List Entry) (o : Outcome) : Outcome :=
  ⟨f o.entries, o.error⟩

/-- What comes to a window, the first entry at the given position.  Whatever is behind the window is
not asked for, nor is an error there. -/
def cut (window : Window) (position : Nat) (o : Outcome) : Outcome :=
  ⟨window.cut position o.entries,
    if window.isOver (position + o.entries.length) then none else o.error⟩

/-- Nothing is sorted before all of it is there. -/
def sorted (keys : List SortKey) (collected : List Entry) (o : Outcome) : Outcome :=
  match o.error with
  | none => ⟨SortKey.sort keys (collected.reverse ++ o.entries), none⟩
  | some e => failure e

end Outcome

/-- What a stage makes of the outcome below it. -/
def Stage.outcome (stage : Stage) (o : Outcome) : Outcome :=
  match stage with
  | .ordered keys => o.sorted keys []
  | .sliced window => o.cut window 0
  | stage => o.onEntries stage.apply

/-- What a search comes to in a directory. -/
def Source.outcome (d : Directory) (source : Source) : Outcome :=
  match source.filterText with
  | .error e => .failure (.filter e)
  | .ok text =>
    match SearchFilter.parse text with
    | .error e => .failure (.directory (.protocol e.message))
    | .ok filter => ⟨d.answer source filter, none⟩

/-- What a query comes to in a directory. -/
def Query.outcome (snapshots : Snapshots) (d : Directory) : Query → Outcome
  | .empty => .nothing
  | .search tag source =>
    match snapshots.get? tag.id with
    | some entries => ⟨entries, none⟩
    | none => source.outcome d
  | .staged tag stage below =>
    match snapshots.get? tag.id with
    | some entries => ⟨entries, none⟩
    | none => stage.outcome (below.outcome snapshots d)

namespace Session

/-- The entries behind a page. -/
def behind (s : Session) : Option Cookie → List Entry
  | none => []
  | some cookie =>
    match cookie.decode? with
    | some (search, position) => ((s.results? search).getD []).drop position
    | none => []

/-- The cookie asks for the rest of results that the session remembers and that can be numbered. -/
def Resumes (s : Session) (cookie : Cookie) : Prop :=
  ∃ search position results, cookie.decode? = some (search, position) ∧
    s.results? search = some results ∧ results.length ≤ Text.maxSize

end Session

namespace Stream

/-- What the stream comes to, in a directory with the entries of this one. -/
def outcome (snapshots : Snapshots) (d : Directory) : Stream → Outcome
  | .ended => .nothing
  | .replay entries => ⟨entries, none⟩
  | .starting source => source.outcome d
  | .reading lease _ buffer cookie => ⟨buffer ++ lease.session.behind cookie, none⟩
  | .filtered matcher inner =>
    (inner.outcome snapshots d).onEntries fun es => es.filter matcher.accepts
  | .annotated annotations inner =>
    (inner.outcome snapshots d).onEntries fun es => es.map fun e => e.annotate annotations
  | .unsorted keys below => (below.outcome snapshots d).sorted keys []
  | .sorting keys collected inner => (inner.outcome snapshots d).sorted keys collected
  | .sliced window position inner => (inner.outcome snapshots d).cut window position
  | .selected names inner =>
    (inner.outcome snapshots d).onEntries fun es => es.map fun e => e.retain names
  | .distinct seen inner => (inner.outcome snapshots d).onEntries (Entry.unseen seen)

/-- If a search is read, it is read on an open session, which can resume it. -/
def Fits : Stream → Prop
  | .ended | .replay _ | .starting _ | .unsorted _ _ => True
  | .reading lease _ _ cookie =>
    lease.session.isOpen = true ∧ ∀ c, cookie = some c → lease.session.Resumes c
  | .filtered _ inner => inner.Fits
  | .annotated _ inner => inner.Fits
  | .sorting _ _ inner => inner.Fits
  | .sliced _ _ inner => inner.Fits
  | .selected _ inner => inner.Fits
  | .distinct _ inner => inner.Fits

end Stream

/-- The event is what the first outcome opens with, and the second one is the rest of it.  An error
has to be foreseen only if the service is steady. -/
def StreamEvent.Opens (steady : Prop) (o o' : Outcome) : StreamEvent → Prop
  | .item e => o = o'.cons e
  | .pause => o = o'
  | .fault e => steady → o = .failure e
  | .finish => o = .nothing

/-! ## Answers -/

namespace Outcome

/-- The answer to a request when some were answered before: an entry, then the error, then that
nothing is left. -/
def answer (o : Outcome) (k : Nat) : Option (Except QueryError Entry) :=
  (o.entries.map .ok ++ o.error.toList.map .error)[k]?

lemma answers_cons (e : Entry) (o : Outcome) (n : Nat) :
    (List.range (n + 1)).map (o.cons e).answer =
      some (.ok e) :: (List.range n).map o.answer := by
  rw [List.range_succ_eq_map, List.map_cons, List.map_map]
  rfl

lemma answers_nothing (n : Nat) :
    (List.range n).map nothing.answer = List.replicate n none := by
  rw [List.eq_replicate_iff]
  refine ⟨by simp, fun answer hanswer => ?_⟩
  obtain ⟨k, -, rfl⟩ := List.mem_map.1 hanswer
  rfl

lemma answers_failure (e : QueryError) (n : Nat) :
    (List.range (n + 1)).map (failure e).answer =
      some (.error e) :: List.replicate n none := by
  rw [List.range_succ_eq_map, List.map_cons, List.map_map, ← answers_nothing]
  rfl

end Outcome

/-- On a steady service the answer to a request is the first one of the outcome, and the others are
those of the rest. -/
lemma StreamEvent.Opens.answer_eq {steady : Prop} {o o' : Outcome} {event : StreamEvent}
    {answer : Option (Except QueryError Entry)} (h : event.Opens steady o o') (hsteady : steady)
    (hanswers : Results.Answers event answer) (hstop : event.isStop = true → o' = .nothing) :
    answer = o.answer 0 ∧ ∀ k, o'.answer k = o.answer (k + 1) := by
  cases event with
  | item e =>
    obtain rfl : answer = some (.ok e) := hanswers
    obtain rfl : o = o'.cons e := h
    exact ⟨rfl, fun k => rfl⟩
  | fault e =>
    obtain rfl : answer = some (.error e) := hanswers
    obtain rfl : o = .failure e := h hsteady
    obtain rfl : o' = .nothing := hstop rfl
    exact ⟨rfl, fun k => rfl⟩
  | pause => exact hanswers.elim
  | finish =>
    obtain rfl : answer = none := hanswers
    obtain rfl : o = .nothing := h
    obtain rfl : o' = .nothing := hstop rfl
    exact ⟨rfl, fun k => rfl⟩

/-! ## Outcomes of queries -/

lemma Window.isOver_of_le {w : Window} {position position' : Nat} (hle : position ≤ position')
    (h : w.isOver position = true) : w.isOver position' = true := by
  unfold isOver at h ⊢
  cases hhigh : w.high with
  | none =>
    rw [hhigh] at h
    cases h
  | some high =>
    rw [hhigh, Option.any_some, decide_eq_true_iff] at h
    rw [Option.any_some, decide_eq_true_iff]
    exact Nat.le_trans h hle

lemma Outcome.cut_of_isOver {w : Window} {position : Nat} (h : w.isOver position = true)
    (o : Outcome) : o.cut w position = .nothing := by
  rw [cut, Window.cut_of_isOver h, if_pos (Window.isOver_of_le (Nat.le_add_right _ _) h)]
  rfl

namespace Stream

variable {snapshots : Snapshots} {d : Directory}

/-- A query comes to what its stream comes to. -/
lemma outcome_stream (q : Query) :
    (q.stream snapshots).outcome snapshots d = q.outcome snapshots d := by
  induction q with
  | empty => rfl
  | search tag source =>
    rw [Query.stream, Query.outcome]
    cases snapshots.get? tag.id <;> rfl
  | staged tag stage below ih =>
    rw [Query.stream, Query.outcome]
    cases snapshots.get? tag.id with
    | some entries => rfl
    | none =>
      simp only [← ih]
      cases stage with
      | ordered keys =>
        simp only [Query.stageStream, outcome, ih]
        rfl
      | _ => rfl

/-- A stream that is through comes to nothing. -/
lemma IsSpent.outcome_eq {s : Stream} (h : s.IsSpent) : s.outcome snapshots d = .nothing := by
  induction h with
  | ended => rfl
  | stage hs _ ih =>
    cases hs with
    | sliced window position =>
      rw [outcome, ih, Outcome.cut]
      exact congrArg (Outcome.mk []) (ite_self none)
    | _ => rw [outcome, ih]; rfl

lemma fits_stage {s inner : Stream} (hs : IsStage inner s) : s.Fits ↔ inner.Fits := by
  cases hs <;> rfl

lemma fits_of_sessions_eq_nil {s : Stream} (h : s.sessions = []) : s.Fits := by
  induction s using Stream.induction with
  | reading lease request buffer cookie => cases h
  | sorting keys collected inner ih => exact ih h
  | stage inner s hs ih =>
    refine (fits_stage hs).2 (ih ?_)
    rwa [← show s.sessions = inner.sessions from congrArg Stake.held (stake_stage hs)]
  | _ => trivial

lemma fits_stream (q : Query) : (q.stream snapshots).Fits :=
  fits_of_sessions_eq_nil (congrArg Stake.held (stake_stream q))

lemma Fits.isOpen {s : Stream} (h : s.Fits) : ∀ t ∈ s.sessions, t.isOpen = true := by
  induction s using Stream.induction with
  | reading lease request buffer cookie =>
    intro t ht
    rw [List.mem_singleton.1 ht]
    exact h.1
  | sorting keys collected inner ih => exact ih h
  | stage inner s hs ih =>
    rw [show s.sessions = inner.sessions from congrArg Stake.held (stake_stage hs)]
    exact ih ((fits_stage hs).1 h)
  | _ => nofun

end Stream

/-! ## Steps of stages -/

namespace Outcome

variable {o o' : Outcome} {e : Entry}

lemma onEntries_cons {e' : Entry} {f f' : List Entry → List Entry}
    (h : ∀ es, f (e :: es) = e' :: f' es) (o : Outcome) :
    (o.cons e).onEntries f = (o.onEntries f').cons e' :=
  congrArg (Outcome.mk · o.error) (h o.entries)

lemma onEntries_dropped {f f' : List Entry → List Entry} (h : ∀ es, f (e :: es) = f' es)
    (o : Outcome) : (o.cons e).onEntries f = o.onEntries f' :=
  congrArg (Outcome.mk · o.error) (h o.entries)

lemma cut_cons {w : Window} {position : Nat} (h : w.isOver position = false) (e : Entry)
    (o : Outcome) : (o.cons e).cut w position =
      if w.selects position then (o.cut w (position + 1)).cons e else o.cut w (position + 1) := by
  have hend : position + (o.entries.length + 1) = position + 1 + o.entries.length := by omega
  simp only [cut, cons, Window.cut, h, List.length_cons, hend, Bool.false_eq_true, if_false]
  cases w.selects position <;> rfl

end Outcome

namespace StreamEvent

variable {steady : Prop} {o o' : Outcome} {event : StreamEvent}

/-- A stage that leaves no entries alone passes on what is not an entry. -/
lemma Opens.onEntries (h : event.Opens steady o o') (hevent : ∀ e, event ≠ .item e)
    {f : List Entry → List Entry} (hnil : f [] = []) :
    event.Opens steady (o.onEntries f) (o'.onEntries f) := by
  cases event with
  | item e => exact absurd rfl (hevent e)
  | pause => exact congrArg (Outcome.onEntries f) h
  | fault e =>
    intro hsteady
    rw [h hsteady, Outcome.onEntries, Outcome.failure, hnil]
  | finish =>
    obtain rfl : o = .nothing := h
    show Outcome.onEntries f .nothing = .nothing
    rw [Outcome.onEntries, Outcome.nothing, hnil]

end StreamEvent

namespace Stream

variable {snapshots : Snapshots} {d : Directory} {svc svc' : Service} {s s' inner : Stream}
  {event : StreamEvent}

section Stages

variable {steady : Prop} (ih : ∀ {event s' svc'}, inner.step snapshots svc = (event, s', svc') →
  event.Opens steady (inner.outcome snapshots d) (s'.outcome snapshots d))
include ih

lemma opens_filtered {matcher : Matcher}
    (h : (filtered matcher inner).step snapshots svc = (event, s', svc')) :
    event.Opens steady ((filtered matcher inner).outcome snapshots d) (s'.outcome snapshots d) := by
  rcases hbelow : inner.step snapshots svc with ⟨below, inner', svc₁⟩
  have hopens := ih hbelow
  rw [step, hbelow] at h
  cases below with
  | item e =>
    cases h
    have hcons : inner.outcome snapshots d = (inner'.outcome snapshots d).cons e := hopens
    rw [outcome, hcons]
    cases haccepts : matcher.accepts e with
    | true => exact Outcome.onEntries_cons (fun es => List.filter_cons_of_pos haccepts) _
    | false =>
      exact Outcome.onEntries_dropped
        (fun es => List.filter_cons_of_neg (ne_true_of_eq_false haccepts)) _
  | _ =>
    cases h
    exact hopens.onEntries (by simp) rfl

lemma opens_annotated {annotations : List (String × Annotation)}
    (h : (annotated annotations inner).step snapshots svc = (event, s', svc')) :
    event.Opens steady ((annotated annotations inner).outcome snapshots d)
      (s'.outcome snapshots d) := by
  rcases hbelow : inner.step snapshots svc with ⟨below, inner', svc₁⟩
  have hopens := ih hbelow
  rw [step, hbelow] at h
  cases below with
  | item e =>
    cases h
    have hcons : inner.outcome snapshots d = (inner'.outcome snapshots d).cons e := hopens
    rw [outcome, hcons]
    rfl
  | _ =>
    cases h
    exact hopens.onEntries (by simp) rfl

lemma opens_selected {names : List String}
    (h : (selected names inner).step snapshots svc = (event, s', svc')) :
    event.Opens steady ((selected names inner).outcome snapshots d) (s'.outcome snapshots d) := by
  rcases hbelow : inner.step snapshots svc with ⟨below, inner', svc₁⟩
  have hopens := ih hbelow
  rw [step, hbelow] at h
  cases below with
  | item e =>
    cases h
    have hcons : inner.outcome snapshots d = (inner'.outcome snapshots d).cons e := hopens
    rw [outcome, hcons]
    rfl
  | _ =>
    cases h
    exact hopens.onEntries (by simp) rfl

lemma opens_distinct {seen : List Entry.DistinctKey}
    (h : (distinct seen inner).step snapshots svc = (event, s', svc')) :
    event.Opens steady ((distinct seen inner).outcome snapshots d) (s'.outcome snapshots d) := by
  rcases hbelow : inner.step snapshots svc with ⟨below, inner', svc₁⟩
  have hopens := ih hbelow
  rw [step, hbelow] at h
  cases below with
  | item e =>
    have hcons : inner.outcome snapshots d = (inner'.outcome snapshots d).cons e := hopens
    rw [outcome, hcons]
    simp only at h
    split at h
    · rename_i hseen
      cases h
      exact Outcome.onEntries_dropped (fun es => by rw [Entry.unseen, if_pos hseen]) _
    · rename_i hseen
      cases h
      exact Outcome.onEntries_cons (fun es => by rw [Entry.unseen, if_neg hseen]) _
  | _ =>
    cases h
    exact hopens.onEntries (by simp) rfl

lemma opens_sliced {window : Window} {position : Nat}
    (h : (sliced window position inner).step snapshots svc = (event, s', svc')) :
    event.Opens steady ((sliced window position inner).outcome snapshots d)
      (s'.outcome snapshots d) := by
  rw [step_sliced] at h
  split at h
  · rename_i hover
    cases h
    exact Outcome.cut_of_isOver hover _
  rename_i hover
  rw [Bool.not_eq_true] at hover
  rcases hbelow : inner.step snapshots svc with ⟨below, inner', svc₁⟩
  have hopens := ih hbelow
  rw [hbelow] at h
  cases below with
  | item e =>
    cases h
    have hcons : inner.outcome snapshots d = (inner'.outcome snapshots d).cons e := hopens
    rw [outcome, hcons, Outcome.cut_cons hover]
    cases window.selects position <;> rfl
  | pause =>
    cases h
    exact congrArg (Outcome.cut window position) hopens
  | fault e =>
    cases h
    intro hsteady
    rw [outcome, hopens hsteady]
    simp [Outcome.cut, Outcome.failure, Window.cut, hover]
  | finish =>
    cases h
    have hnothing : inner.outcome snapshots d = .nothing := hopens
    show (inner.outcome snapshots d).cut window position = .nothing
    rw [hnothing, Outcome.cut]
    exact congrArg (Outcome.mk []) (ite_self none)

lemma opens_sorting {keys : List SortKey} {collected : List Entry}
    (h : (sorting keys collected inner).step snapshots svc = (event, s', svc')) :
    event.Opens steady ((sorting keys collected inner).outcome snapshots d)
      (s'.outcome snapshots d) := by
  rcases hbelow : inner.step snapshots svc with ⟨below, inner', svc₁⟩
  have hopens := ih hbelow
  rw [step, hbelow] at h
  cases below with
  | item e =>
    cases h
    have hcons : inner.outcome snapshots d = (inner'.outcome snapshots d).cons e := hopens
    show (inner.outcome snapshots d).sorted keys collected =
      (inner'.outcome snapshots d).sorted keys (e :: collected)
    simp only [hcons, Outcome.sorted, Outcome.cons, List.reverse_cons, List.append_assoc,
      List.singleton_append]
  | pause =>
    cases h
    exact congrArg (Outcome.sorted keys collected) hopens
  | fault e =>
    cases h
    intro hsteady
    rw [outcome, hopens hsteady]
    rfl
  | finish =>
    cases h
    have hnothing : inner.outcome snapshots d = .nothing := hopens
    show (inner.outcome snapshots d).sorted keys collected =
      ⟨SortKey.sort keys collected.reverse, none⟩
    rw [hnothing]
    simp only [Outcome.sorted, Outcome.nothing, List.append_nil]

end Stages

end Stream

end DirectoryQuery
