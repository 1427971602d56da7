import DirectoryQuery.Proofs.Query.Runs
import DirectoryQuery.Proofs.Query.Writing

/-!
# The errors of an evaluation

A stream reports a directory's errors, and that the filter of a search cannot be written.  There is
one search at most that a stream may still start (`Stream.source?`), and it is the search of the
query.  If that can be written, every error comes from a directory (`Stream.writes_step`), whatever
the directory does and whatever else happens between the steps.

`Query.ComesFrom.fails_with_directory` puts this together with what composing a query makes sure of:
a query that could be composed never fails on its own filter.
-/

namespace DirectoryQuery

/-- The error, if there is one, is a directory's. -/
def QueryError.IsDirectory (error : Option QueryError) : Prop :=
  ∀ e, error = some e → ∃ d, e = .directory d

open QueryError DirectoryQuery.Filter

lemma isDirectory_none : IsDirectory none := by
  intro e he
  cases he

lemma isDirectory_directory (d : DirectoryError) : IsDirectory (some (.directory d)) := by
  intro e he
  exact ⟨d, (Option.some.inj he).symm⟩

namespace Stream

variable {snapshots : Snapshots} {svc svc' : Service} {s s' inner : Stream} {event : StreamEvent}

/-- The search that a stream may still start. -/
def source? : Stream → Option Source
  | .ended | .replay _ | .reading .. => none
  | .starting source => some source
  | .unsorted _ below => below.source?
  | .filtered _ inner => inner.source?
  | .annotated _ inner => inner.source?
  | .sorting _ _ inner => inner.source?
  | .sliced _ _ inner => inner.source?
  | .selected _ inner => inner.source?
  | .distinct _ inner => inner.source?

/-- The search that the stream may still start can be written. -/
def Writes (s : Stream) : Prop :=
  ∀ source, s.source? = some source → ∃ text, source.filterText = .ok text

lemma writes_of_source?_eq_none (h : s.source? = none) : s.Writes := by
  intro source hsource
  rw [h] at hsource
  cases hsource

lemma writes_stage (hs : IsStage inner s) : s.Writes ↔ inner.Writes := by
  cases hs <;> rfl

/-- A stream starts no search but that of its query. -/
lemma writes_stream {q : Query}
    (h : ∀ source, q.source? = some source → ∃ text, source.filterText = .ok text) :
    (q.stream snapshots).Writes := by
  induction q with
  | empty => exact writes_of_source?_eq_none rfl
  | search tag source =>
    rw [Query.stream]
    cases snapshots.get? tag.id with
    | some entries => exact writes_of_source?_eq_none rfl
    | none => exact h
  | staged tag stage below ih =>
    cases hkept : snapshots.get? tag.id with
    | some entries =>
      simp only [Query.stream, hkept]
      exact writes_of_source?_eq_none rfl
    | none =>
      simp only [Query.stream, hkept]
      cases stage with
      | ordered keys => exact h
      | _ => exact ih h

lemma writes_start {source : Source} (hs : (starting source).Writes)
    (h : start source svc = (event, s', svc')) : s'.Writes ∧ IsDirectory event.error? := by
  obtain ⟨text, htext⟩ := hs source rfl
  have hended : ended.Writes := writes_of_source?_eq_none rfl
  rw [start, Source.request_of_filterText htext] at h
  rcases hout : svc.checkOut with ⟨e | lease, svc₁⟩
  · simp only [hout] at h
    cases h
    exact ⟨hended, isDirectory_directory e⟩
  · simp only [hout] at h
    split at h
    · cases h
      exact ⟨writes_of_source?_eq_none rfl, isDirectory_none⟩
    · split at h
      · cases h
        exact ⟨hended, isDirectory_none⟩
      · cases h
        exact ⟨hended, isDirectory_directory _⟩

/-- If the search of a stream can be written, a step fails only with a directory's error, and what
is left of the stream can be written, too. -/
theorem writes_step (hs : s.Writes) (h : s.step snapshots svc = (event, s', svc')) :
    s'.Writes ∧ IsDirectory event.error? := by
  induction s using Stream.induction generalizing event s' svc' with
  | ended =>
    cases h
    exact ⟨hs, isDirectory_none⟩
  | replay entries => cases entries <;> cases h <;> exact ⟨hs, isDirectory_none⟩
  | starting source => exact writes_start hs h
  | reading lease request buffer cookie =>
    match buffer, cookie with
    | e :: rest, cookie =>
      cases h
      exact ⟨hs, isDirectory_none⟩
    | [], none =>
      cases h
      exact ⟨writes_of_source?_eq_none rfl, isDirectory_none⟩
    | [], some cookie =>
      obtain ⟨result, session, d, -, hcase⟩ := turnPage_cases h
      obtain ⟨page, -, rfl, rfl, -⟩ | ⟨e, -, rfl, rfl, -⟩ := hcase
      · exact ⟨writes_of_source?_eq_none rfl, isDirectory_none⟩
      · exact ⟨writes_of_source?_eq_none rfl, isDirectory_directory e⟩
  | unsorted keys below =>
    cases h
    exact ⟨writes_stream hs, isDirectory_none⟩
  | sorting keys collected inner ih =>
    obtain ⟨below, inner', svc₁, hbelow, hcase⟩ := step_sorting h
    obtain ⟨hinner', hdirectory⟩ := ih hs hbelow
    obtain ⟨-, rfl, ⟨collected', rfl⟩, -⟩ | ⟨e, rfl, rfl, rfl, -⟩ | ⟨-, rfl, rfl, -⟩ := hcase
    · exact ⟨hinner', isDirectory_none⟩
    · exact ⟨writes_of_source?_eq_none rfl, hdirectory⟩
    · exact ⟨writes_of_source?_eq_none rfl, isDirectory_none⟩
  | stage inner s hs' ih =>
    have hinner := (writes_stage hs').1 hs
    obtain ⟨below, inner', hbelow, hpass, hs''⟩ | ⟨rfl, rfl, -⟩ | ⟨inner', svc₁, -, rfl, rfl, -⟩ :=
      step_stage hs' h
    · obtain ⟨hinner', hdirectory⟩ := ih hinner hbelow
      rw [← hpass.error?_eq]
      exact ⟨(writes_stage hs'').2 hinner', hdirectory⟩
    · exact ⟨writes_of_source?_eq_none rfl, isDirectory_none⟩
    · exact ⟨writes_of_source?_eq_none rfl, isDirectory_none⟩

end Stream

namespace Results

variable {r r' : Results} {w w' : Workspace}

lemma writes_runs {error : Option QueryError} (h : r.Runs w error r' w')
    (hr : r.stream.Writes) : r'.stream.Writes ∧ IsDirectory error := by
  induction h with
  | refl => exact ⟨hr, isDirectory_none⟩
  | fault h => exact Stream.writes_step hr (stream_step h)
  | step h _ _ ih => exact ih (Stream.writes_step hr (stream_step h)).1

/-! ## Results that are read in between other things -/

/-- The results were asked for entries one by one and gave these answers.  Anything may have
happened in between, so each request finds a workspace of its own. -/
inductive Polled : Results → List (Option (Except QueryError Entry)) → Results → Prop
  | nil (r : Results) : Polled r [] r
  | cons {r r₁ r' : Results} {w w₁ : Workspace} {answer : Option (Except QueryError Entry)}
    {answers : List (Option (Except QueryError Entry))} (h : r.next w = (answer, r₁, w₁))
    (k : Polled r₁ answers r') : Polled r (answer :: answers) r'

lemma writes_polled {answers : List (Option (Except QueryError Entry))}
    (h : r.Polled answers r') (hr : r.stream.Writes) :
    ∀ answer ∈ answers, IsDirectory (answer.bind of?) := by
  induction h with
  | nil => simp
  | cons h _ ih =>
    obtain ⟨hr₁, hdirectory⟩ := writes_runs (runs_next h) hr
    exact List.forall_mem_cons.2 ⟨hdirectory, ih hr₁⟩

end Results

namespace Query

variable {q : Query} {w w' : Workspace}

lemma Evaluates.isDirectory {error : Option QueryError} (h : q.Evaluates w error w')
    (hq : ∀ source, q.source? = some source → ∃ text, source.filterText = .ok text) :
    IsDirectory error := by
  cases h with
  | kept => exact isDirectory_none
  | @runs r _ _ hstream h =>
    obtain ⟨r', w₁, hruns, -⟩ := h
    have hwrites : (q.stream w.snapshots).Writes := Stream.writes_stream hq
    have hr : r.stream.Writes := by
      obtain heq | hstage := hstream
      · exact heq ▸ hwrites
      · exact (Stream.writes_stage hstage).2 hwrites
    exact (Results.writes_runs hruns hr).2

lemma of?_isEmpty (q : Query) (w : Workspace) :
    of? (q.isEmpty w).1 = none ∨ of? (q.isEmpty w).1 = of? (q.count w).1 := by
  unfold isEmpty
  split
  · exact .inl rfl
  · rcases q.count w with ⟨e | n, w'⟩
    · exact .inr rfl
    · exact .inl rfl

/-- However a query is composed, the directory is to evaluate every condition of its search, and
every condition compiles.  So the search can always be asked for, and if the names of all attributes
are plain, a directory can read its filter.  Whoever reads the query, whenever, and whatever happens
in between, is told of a directory's errors only. -/
theorem ComesFrom.fails_with_directory {base : String} {scope : Scope} {start next : Nat}
    {hows : List Derivation} {q : Query} (hq : ComesFrom base scope start hows q next) :
    (∀ source, q.source? = some source →
      (∀ c ∈ conditions? source.filter, directoryPlacement c = .pushed ∧ (leaf c).Compiles) ∧
        ∀ pageSize, ∃ request, source.request pageSize = .ok request ∧
          ((∀ how ∈ hows, ∀ c ∈ how.conditions, IsPlainName c.field) →
            ∃ filter, SearchFilter.parse request.filter = .ok filter)) ∧
      (∀ snapshots answers r', (q.results snapshots).Polled answers r' →
        ∀ answer ∈ answers, IsDirectory (answer.bind of?)) ∧
      ∀ w, IsDirectory (of? (q.fetch w).1) ∧ IsDirectory (of? (q.count w).1) ∧
        IsDirectory (of? (q.isEmpty w).1) ∧ IsDirectory (of? (q.one w).1) ∧
        (∀ index, IsDirectory (of? (q.get index w).1)) ∧
        ∀ as, IsDirectory (q.aggregate as w).2.1 := by
  have hwritable : q.IsWritable fun _ => True := hq.isWritable fun _ _ _ _ => trivial
  have htext : ∀ source, q.source? = some source → ∃ text, source.filterText = .ok text :=
    fun source hsource => (hwritable.of_source? hsource).exists_filterText
  refine ⟨fun source hsource => ⟨fun c hc => ?_, fun pageSize => ?_⟩,
    fun snapshots answers r' h => ?_, fun w => ?_⟩
  · have hsearch := hwritable.of_source? hsource
    exact ⟨hsearch.pushed c hc, hsearch.compiles c hc⟩
  · obtain ⟨text, hok⟩ := htext source hsource
    refine ⟨_, Source.request_of_filterText hok pageSize, fun hnames => ?_⟩
    have hplain : q.IsWritable fun c => IsPlainName c.field := hq.isWritable hnames
    exact (hplain.of_source? hsource).exists_parse hok
  · exact Results.writes_polled h (Stream.writes_stream htext)
  · have hcount := (q.evaluates_count w).isDirectory htext
    refine ⟨(q.evaluates_fetch w).isDirectory htext, hcount, ?_,
      (q.evaluates_one w).isDirectory htext,
      fun index => (q.evaluates_get w index).isDirectory htext,
      fun as => (q.evaluates_aggregate w as).isDirectory htext⟩
    obtain hnone | hsame := q.of?_isEmpty w
    · exact hnone ▸ isDirectory_none
    · exact hsame ▸ hcount

/-- One condition goes to the search, the comparison stays above it, and what is put on the window
stays there. -/
theorem fails_with_directory_window :
    let young : Filter := .all [.leaf ⟨"uid", some "startswith", .one (.text "a")⟩,
      .leaf ⟨"age", some "lt", .one (.int 30)⟩]
    let hows : List Derivation := [.filter (.ok young), .slice 0 (some 5) 1,
      .exclude (.ok (.leaf ⟨"mail", some "present", .one (.bool true)⟩))]
    ∃ q next source request filter, ComesFrom "dc=org" .subtree 0 hows q next ∧
      q.source? = some source ∧ source.request 2 = .ok request ∧
      SearchFilter.parse request.filter = .ok filter ∧
      ∀ w, IsDirectory (of? (q.fetch w).1) := by
  intro young hows
  have hsearch : ComesFrom "dc=org" .subtree 0 [] (ofBase "dc=org" .subtree 0).1 1 :=
    .search (Nat.le_refl 0)
  have hfiltered : ComesFrom "dc=org" .subtree 0 [.filter (.ok young)] _ _ :=
    hsearch.apply (Nat.le_refl 1) rfl
  have hsliced : ComesFrom "dc=org" .subtree 0 [.filter (.ok young), .slice 0 (some 5) 1] _ _ :=
    hfiltered.apply (Nat.le_refl _) rfl
  have hall : ComesFrom "dc=org" .subtree 0 hows _ _ := hsliced.apply (Nat.le_refl _) rfl
  obtain ⟨hsource, -, heval⟩ := hall.fails_with_directory
  obtain ⟨request, hrequest, hread⟩ := (hsource _ rfl).2 2
  obtain ⟨filter, hfilter⟩ := hread (by decide)
  exact ⟨_, _, _, request, filter, hall, rfl, hrequest, hfilter, fun w => (heval w).1⟩

end Query

end DirectoryQuery
