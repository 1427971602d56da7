import DirectoryQuery.Query.Evaluate
import Mathlib.Tactic.Lemma

/-!
# What a step of a stream can do

Most stages pass on what happens below them.  `Stream.IsStage` gathers these stages, and
`Stream.step_stage` says what a step of one comes to: a step below it, or its end.
`Stream.induction` has one case for them all.  `Stream.step_sorting` says the same of a sort, which
lets nothing pass, and `Stream.start_cases` and `Stream.turnPage_cases` of the steps that ask a
directory for something.
-/

namespace DirectoryQuery

namespace StreamEvent

/-- Whether the event is an error or the end. -/
def isStop : StreamEvent → Bool
  | .fault _ | .finish => true
  | .item _ | .pause => false

/-- What a stage may make of an event below it: an entry can be changed or dropped. -/
inductive PassesAs : StreamEvent → StreamEvent → Prop where
  | item (e e' : Entry) : PassesAs (.item e) (.item e')
  | dropped (e : Entry) : PassesAs (.item e) .pause
  | pause : PassesAs .pause .pause
  | fault (e : QueryError) : PassesAs (.fault e) (.fault e)
  | finish : PassesAs .finish .finish

lemma PassesAs.isStop_eq {below event : StreamEvent} (h : below.PassesAs event) :
    below.isStop = event.isStop := by
  cases h <;> rfl

end StreamEvent

namespace Stream

/-- The second stream is a stage on top of the first that lets entries pass one by one. -/
inductive IsStage (inner : Stream) : Stream → Prop where
  | filtered (matcher : Matcher) : IsStage inner (.filtered matcher inner)
  | annotated (annotations : List (String × Annotation)) :
    IsStage inner (.annotated annotations inner)
  | sliced (window : Window) (position : Nat) : IsStage inner (.sliced window position inner)
  | selected (names : List String) : IsStage inner (.selected names inner)
  | distinct (seen : List Entry.DistinctKey) : IsStage inner (.distinct seen inner)

/-- Induction on streams with one case for all stages that let entries pass. -/
@[elab_as_elim]
theorem induction {motive : Stream → Prop} (ended : motive .ended)
    (replay : ∀ entries, motive (.replay entries)) (starting : ∀ source, motive (.starting source))
    (reading : ∀ lease request buffer cookie, motive (.reading lease request buffer cookie))
    (unsorted : ∀ keys below, motive (.unsorted keys below))
    (sorting : ∀ keys collected inner, motive inner → motive (.sorting keys collected inner))
    (stage : ∀ inner s, IsStage inner s → motive inner → motive s) (s : Stream) : motive s := by
  induction s with
  | ended => exact ended
  | replay entries => exact replay entries
  | starting source => exact starting source
  | reading lease request buffer cookie => exact reading lease request buffer cookie
  | unsorted keys below => exact unsorted keys below
  | sorting keys collected inner ih => exact sorting keys collected inner ih
  | filtered matcher inner ih => exact stage inner _ (.filtered matcher) ih
  | annotated annotations inner ih => exact stage inner _ (.annotated annotations) ih
  | sliced window position inner ih => exact stage inner _ (.sliced window position) ih
  | selected names inner ih => exact stage inner _ (.selected names) ih
  | distinct seen inner ih => exact stage inner _ (.distinct seen) ih

variable {snapshots : Snapshots} {svc svc' : Service} {s s' inner : Stream} {event : StreamEvent}

/-- A stage takes a step with what is below it, or it ends and closes that. -/
lemma step_stage (hs : IsStage inner s) (h : s.step snapshots svc = (event, s', svc')) :
    (∃ below inner', inner.step snapshots svc = (below, inner', svc') ∧ below.PassesAs event ∧
        IsStage inner' s') ∨
      (event = .finish ∧ s' = .ended ∧ svc' = inner.close svc) ∨
      ∃ inner' svc₁, inner.step snapshots svc = (.finish, inner', svc₁) ∧ event = .finish ∧
        s' = .ended ∧ svc' = inner'.close svc₁ := by
  rcases hbelow : inner.step snapshots svc with ⟨below, inner', svc₁⟩
  cases hs with
  | filtered matcher =>
    rw [step, hbelow] at h
    cases below with
    | item e =>
      cases h
      refine .inl ⟨_, _, rfl, ?_, .filtered matcher⟩
      split
      · exact .item e e
      · exact .dropped e
    | fault e =>
      cases h
      exact .inl ⟨_, _, rfl, .fault e, .filtered matcher⟩
    | pause =>
      cases h
      exact .inl ⟨_, _, rfl, .pause, .filtered matcher⟩
    | finish =>
      cases h
      exact .inl ⟨_, _, rfl, .finish, .filtered matcher⟩
  | annotated annotations =>
    rw [step, hbelow] at h
    cases below with
    | item e =>
      cases h
      exact .inl ⟨_, _, rfl, .item e _, .annotated annotations⟩
    | fault e =>
      cases h
      exact .inl ⟨_, _, rfl, .fault e, .annotated annotations⟩
    | pause =>
      cases h
      exact .inl ⟨_, _, rfl, .pause, .annotated annotations⟩
    | finish =>
      cases h
      exact .inl ⟨_, _, rfl, .finish, .annotated annotations⟩
  | sliced window position =>
    rw [step_sliced] at h
    split at h
    · cases h
      exact .inr (.inl ⟨rfl, rfl, rfl⟩)
    rw [hbelow] at h
    cases below with
    | item e =>
      cases h
      refine .inl ⟨_, _, rfl, ?_, .sliced window _⟩
      split
      · exact .item e e
      · exact .dropped e
    | fault e =>
      cases h
      exact .inl ⟨_, _, rfl, .fault e, .sliced window _⟩
    | pause =>
      cases h
      exact .inl ⟨_, _, rfl, .pause, .sliced window _⟩
    | finish =>
      cases h
      exact .inr (.inr ⟨_, _, rfl, rfl, rfl, rfl⟩)
  | selected names =>
    rw [step, hbelow] at h
    cases below with
    | item e =>
      cases h
      exact .inl ⟨_, _, rfl, .item e _, .selected names⟩
    | fault e =>
      cases h
      exact .inl ⟨_, _, rfl, .fault e, .selected names⟩
    | pause =>
      cases h
      exact .inl ⟨_, _, rfl, .pause, .selected names⟩
    | finish =>
      cases h
      exact .inl ⟨_, _, rfl, .finish, .selected names⟩
  | distinct seen =>
    rw [step, hbelow] at h
    cases below with
    | item e =>
      simp only at h
      split at h
      · cases h
        exact .inl ⟨_, _, rfl, .dropped e, .distinct seen⟩
      · cases h
        exact .inl ⟨_, _, rfl, .item e e, .distinct _⟩
    | fault e =>
      cases h
      exact .inl ⟨_, _, rfl, .fault e, .distinct seen⟩
    | pause =>
      cases h
      exact .inl ⟨_, _, rfl, .pause, .distinct seen⟩
    | finish =>
      cases h
      exact .inl ⟨_, _, rfl, .finish, .distinct seen⟩

/-- A sort takes in what comes from below, until something fails or nothing is left.  Then it closes
that. -/
lemma step_sorting {keys : List SortKey} {collected : List Entry}
    (h : (sorting keys collected inner).step snapshots svc = (event, s', svc')) :
    ∃ below inner' svc₁, inner.step snapshots svc = (below, inner', svc₁) ∧
      ((below.PassesAs .pause ∧ event = .pause ∧
          (∃ collected', s' = .sorting keys collected' inner') ∧ svc' = svc₁) ∨
        (∃ e, below = .fault e ∧ event = .fault e ∧ s' = .ended ∧ svc' = inner'.close svc₁) ∨
          below = .finish ∧ event = .pause ∧ s' = .replay (SortKey.sort keys collected.reverse) ∧
            svc' = inner'.close svc₁) := by
  rcases hbelow : inner.step snapshots svc with ⟨below, inner', svc₁⟩
  refine ⟨below, inner', svc₁, rfl, ?_⟩
  rw [step, hbelow] at h
  cases below with
  | item e =>
    cases h
    exact .inl ⟨.dropped e, rfl, ⟨_, rfl⟩, rfl⟩
  | pause =>
    cases h
    exact .inl ⟨.pause, rfl, ⟨_, rfl⟩, rfl⟩
  | fault e =>
    cases h
    exact .inr (.inl ⟨e, rfl, rfl, rfl, rfl⟩)
  | finish =>
    cases h
    exact .inr (.inr ⟨rfl, rfl, rfl, rfl⟩)

/-- A search is started on a session that was checked out for it.  It has a first page, or the
session goes back at once. -/
lemma start_cases {source : Source} (h : start source svc = (event, s', svc')) :
    (∃ e, event = .fault e ∧ s' = .ended ∧
        (svc' = svc ∨ ∃ err, svc.checkOut = (.error err, svc'))) ∨
      ∃ request lease svc₁ result session d,
        source.request svc.pool.config.pageSize = .ok request ∧
        svc.checkOut = (.ok lease, svc₁) ∧
        lease.session.page request none svc₁.directory = (result, session, d) ∧
        ((∃ page, result = .ok page ∧ event = .pause ∧
            s' = .reading { lease with session } request page.entries page.cookie ∧
            svc' = { svc₁ with directory := d }) ∨
          ∃ e, result = .error e ∧ (event = .finish ∨ event = .fault (.directory e)) ∧
            s' = .ended ∧ svc' = { svc₁ with directory := d }.giveBack
              ({ lease with session }.settle (some e))) := by
  unfold start at h
  cases hrequest : source.request svc.pool.config.pageSize with
  | error e =>
    rw [hrequest] at h
    cases h
    exact .inl ⟨_, rfl, rfl, .inl rfl⟩
  | ok request =>
    rcases hout : svc.checkOut with ⟨e | lease, svc₁⟩
    · simp only [hrequest, hout] at h
      cases h
      exact .inl ⟨_, rfl, rfl, .inr ⟨e, rfl⟩⟩
    rcases hpage : lease.session.page request none svc₁.directory with ⟨e | page, session, d⟩
    · simp only [hrequest, hout, hpage] at h
      refine .inr ⟨request, lease, svc₁, _, session, d, rfl, rfl, hpage, .inr ⟨e, rfl, ?_⟩⟩
      split at h
      · cases h
        exact ⟨.inl rfl, rfl, rfl⟩
      · cases h
        exact ⟨.inr rfl, rfl, rfl⟩
    · simp only [hrequest, hout, hpage] at h
      cases h
      exact .inr ⟨request, lease, svc₁, _, session, d, rfl, rfl, hpage,
        .inl ⟨page, rfl, rfl, rfl, rfl⟩⟩

/-- A further page replaces the one that was read, or the session goes back. -/
lemma turnPage_cases {lease : Lease} {request : SearchRequest} {cookie : Cookie}
    (h : turnPage lease request cookie svc = (event, s', svc')) :
    ∃ result session d,
      lease.session.page request (some cookie) svc.directory = (result, session, d) ∧
      ((∃ page, result = .ok page ∧ event = .pause ∧
          s' = .reading { lease with session } request page.entries page.cookie ∧
          svc' = { svc with directory := d }) ∨
        ∃ e, result = .error e ∧ event = .fault (.directory e) ∧ s' = .ended ∧
          svc' =
            { svc with directory := d }.giveBack ({ lease with session }.settle (some e))) := by
  unfold turnPage at h
  rcases hpage : lease.session.page request (some cookie) svc.directory with ⟨e | page, session, d⟩
  · rw [hpage] at h
    cases h
    exact ⟨_, session, d, rfl, .inr ⟨e, rfl, rfl, rfl, rfl⟩⟩
  · rw [hpage] at h
    cases h
    exact ⟨_, session, d, rfl, .inl ⟨page, rfl, rfl, rfl, rfl⟩⟩

end Stream

end DirectoryQuery
