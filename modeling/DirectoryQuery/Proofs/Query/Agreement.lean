import DirectoryQuery.Proofs.Query.Evaluation
import DirectoryQuery.Proofs.Query.Numbering
import DirectoryQuery.Proofs.Query.Steadiness

/-!
# Ways of reading

A query can be fetched, counted, asked for an entry, aggregated, or gone through by readers, and any
of this may leave a result with one of its instances that the next one starts from.  As long as
nothing else happens it all tells the same (`Chronicle.agreement_of_readings`).

The reason is that whatever an instance keeps is what it would have come to at the beginning
(`Snapshots.Faithful`).  So no query comes to anything else than at the beginning, and neither does
what is left of any results (`Snapshots.Faithful.outcome_eq`, `Snapshots.Faithful.stream_outcome`).
`Chronicle.Faithful` adds that every reader was answered what its query comes to, and every move
keeps this (`Chronicle.faithful_step`).
-/

namespace DirectoryQuery

variable {d : Directory} {start snapshots : Snapshots} {q p : Query}

/-! ## Kept results -/

/-- Nothing that was kept at the start is lost, and what the instances of the query have kept since
is what they came to at the start. -/
structure Snapshots.Faithful (snapshots : Snapshots) (d : Directory) (start : Snapshots)
    (q : Query) : Prop where
  grows : start.Extends snapshots
  right : ∀ level ∈ q.levels, ∀ es, level.cached? snapshots = some es →
    level.outcome start d = ⟨es, none⟩

namespace Query

lemma levels_subset_below {tag : QueryTag} {stage : Stage}
    (hp : (staged tag stage p).levels ⊆ q.levels) : p.levels ⊆ q.levels :=
  fun _ h => hp (List.mem_cons_of_mem _ h)

lemma mem_of_levels_subset (hp : p.levels ⊆ q.levels) {tag : QueryTag} (htag : p.tag? = some tag) :
    p ∈ q.levels := by
  refine hp (mem_levels_self ?_)
  rintro rfl
  cases htag

end Query

namespace Snapshots

lemma Extends.get?_eq_none (h : start.Extends snapshots) {id : Nat}
    (hnone : snapshots.get? id = none) : start.get? id = none := by
  cases hget : start.get? id with
  | none => rfl
  | some es =>
    rw [h id es hget] at hnone
    cases hnone

/-- No part of the query comes to anything else than at the start. -/
lemma Faithful.outcome_eq (h : snapshots.Faithful d start q) (hp : p.levels ⊆ q.levels) :
    p.outcome snapshots d = p.outcome start d := by
  induction p with
  | empty => rfl
  | search tag source =>
    cases hget : snapshots.get? tag.id with
    | some es =>
      rw [h.right _ (Query.mem_of_levels_subset hp rfl) es hget]
      exact Query.outcome_of_cached hget
    | none => simp only [Query.outcome, hget, h.grows.get?_eq_none hget]
  | staged tag stage below ih =>
    cases hget : snapshots.get? tag.id with
    | some es =>
      rw [h.right _ (Query.mem_of_levels_subset hp rfl) es hget]
      exact Query.outcome_of_cached hget
    | none =>
      simp only [Query.outcome, hget, h.grows.get?_eq_none hget]
      rw [ih (Query.levels_subset_below hp)]

lemma faithful_start (d : Directory) (start : Snapshots) (q : Query) :
    start.Faithful d start q :=
  ⟨.refl start, fun _ _ _ hcached => Query.outcome_of_cached hcached⟩

end Snapshots

/-! ## Streams -/

namespace Stream

/-- What the stream is still to start is part of the query. -/
def Draws (q : Query) : Stream → Prop
  | .ended | .replay _ | .starting _ | .reading .. => True
  | .unsorted _ below => below.levels ⊆ q.levels
  | .filtered _ inner => inner.Draws q
  | .annotated _ inner => inner.Draws q
  | .sorting _ _ inner => inner.Draws q
  | .sliced _ _ inner => inner.Draws q
  | .selected _ inner => inner.Draws q
  | .distinct _ inner => inner.Draws q

variable {svc svc' : Service} {s s' inner : Stream} {event : StreamEvent}

lemma draws_stage (hs : IsStage inner s) : s.Draws q ↔ inner.Draws q := by
  cases hs <;> rfl

lemma draws_stream (hp : p.levels ⊆ q.levels) : (p.stream snapshots).Draws q := by
  induction p with
  | empty => trivial
  | search tag source =>
    rw [Query.stream]
    cases snapshots.get? tag.id <;> trivial
  | staged tag stage below ih =>
    have hbelow := Query.levels_subset_below hp
    rw [Query.stream]
    cases snapshots.get? tag.id with
    | some es => trivial
    | none =>
      cases stage with
      | ordered keys => exact hbelow
      | _ => exact ih hbelow

lemma Draws.step (hs : s.Draws q) (h : s.step snapshots svc = (event, s', svc')) : s'.Draws q := by
  induction s using Stream.induction generalizing event s' svc' with
  | ended =>
    cases h
    trivial
  | replay entries => cases entries <;> cases h <;> trivial
  | starting source =>
    obtain ⟨e, -, rfl, -⟩ | ⟨request, lease, svc₁, result, session, d, -, -, -, hcase⟩ :=
      start_cases h
    · trivial
    · obtain ⟨page, -, -, rfl, -⟩ | ⟨e, -, -, rfl, -⟩ := hcase <;> trivial
  | reading lease request buffer cookie =>
    match buffer, cookie with
    | e :: rest, cookie =>
      cases h
      trivial
    | [], none =>
      cases h
      trivial
    | [], some cookie =>
      obtain ⟨result, session, d, -, hcase⟩ := turnPage_cases h
      obtain ⟨page, -, -, rfl, -⟩ | ⟨e, -, -, rfl, -⟩ := hcase <;> trivial
  | unsorted keys below =>
    cases h
    exact draws_stream hs
  | sorting keys collected inner ih =>
    obtain ⟨below, inner', svc₁, hbelow, hcase⟩ := step_sorting h
    have hinner' := ih hs hbelow
    obtain ⟨-, -, ⟨collected', rfl⟩, -⟩ | ⟨e, -, -, rfl, -⟩ | ⟨-, -, rfl, -⟩ := hcase
    · exact hinner'
    · trivial
    · trivial
  | stage inner s hs' ih =>
    obtain ⟨below, inner', hbelow, -, hs''⟩ | ⟨-, rfl, -⟩ | ⟨inner', svc₁, -, -, rfl, -⟩ :=
      step_stage hs' h
    · exact (draws_stage hs'').2 (ih ((draws_stage hs').1 hs) hbelow)
    · trivial
    · trivial

end Stream

/-- What is left of results is the same as with what was kept at the start. -/
lemma Snapshots.Faithful.stream_outcome (h : snapshots.Faithful d start q) {s : Stream}
    (hs : s.Draws q) : s.outcome snapshots d = s.outcome start d := by
  induction s using Stream.induction with
  | ended | replay | starting | reading => rfl
  | unsorted keys below => rw [Stream.outcome, Stream.outcome, h.outcome_eq hs]
  | sorting keys collected inner ih => rw [Stream.outcome, Stream.outcome, ih hs]
  | stage inner s hs' ih =>
    have hinner := ih ((Stream.draws_stage hs').1 hs)
    cases hs' <;> rw [Stream.outcome, Stream.outcome, hinner]

lemma Results.draws_runs {r r' : Results} {w w' : Workspace} {error : Option QueryError}
    (h : r.Runs w error r' w') (hr : r.stream.Draws q) : r'.stream.Draws q := by
  induction h with
  | refl => exact hr
  | fault h => exact hr.step (stream_step h)
  | step h _ _ ih => exact ih (hr.step (stream_step h))

/-! ## Readers -/

/-- An outcome is known from its answers, if these come to an end without an error. -/
lemma Outcome.eq_of_answers {o : Outcome} {es : List Entry}
    (h : es.map (some ∘ .ok) = (List.range es.length).map o.answer)
    (hend : o.answer es.length = none) : o = ⟨es, none⟩ := by
  induction es generalizing o with
  | nil =>
    obtain ⟨entries, error⟩ := o
    cases entries with
    | nil =>
      cases error with
      | none => rfl
      | some e => cases hend
    | cons e entries => cases hend
  | cons e es ih =>
    obtain ⟨entries, error⟩ := o
    rw [List.length_cons, List.range_succ_eq_map, List.map_cons, List.map_cons, List.map_map] at h
    obtain ⟨hfirst, hrest⟩ := List.cons.inj h
    cases entries with
    | nil => cases error <;> cases hfirst
    | cons e' entries =>
      cases hfirst
      exact congrArg (Outcome.cons e) (ih (o := ⟨entries, error⟩) hrest hend)

/-- The answers on the note are those of what the query came to at the start, and what is left of
the results is the rest. -/
structure Reading.Follows (reading : Reading) (d : Directory) (start : Snapshots) (q : Query)
    (reader : Reader) : Prop where
  answers : reading.answers =
    (List.range reading.answers.length).map (reading.query.outcome start d).answer
  draws : ∀ r, reader.results = some r → r.stream.Draws q
  rest : ∀ r, reader.results = some r → ∀ k, (r.stream.outcome start d).answer k =
    (reading.query.outcome start d).answer (reading.answers.length + k)

namespace Reading

variable {reading : Reading} {reader reader' : Reader}

/-- Who starts to read has everything ahead. -/
lemma follows_results (h : snapshots.Faithful d start q) (hp : p.levels ⊆ q.levels) :
    Follows ⟨p, []⟩ d start q (.ofResults (p.results snapshots)) where
  answers := rfl
  draws r hr := by
    cases hr
    exact Stream.draws_stream hp
  rest r hr k := by
    cases hr
    have hdraws : (p.stream snapshots).Draws q := Stream.draws_stream hp
    show ((p.stream snapshots).outcome start d).answer k = (p.outcome start d).answer (0 + k)
    rw [← h.stream_outcome hdraws, Stream.outcome_stream, h.outcome_eq hp, Nat.zero_add]

lemma Follows.dropped (h : reading.Follows d start q reader) (hdropped : reader'.results = none) :
    reading.Follows d start q reader' where
  answers := h.answers
  draws r hr := by
    rw [hdropped] at hr
    cases hr
  rest r hr := by
    rw [hdropped] at hr
    cases hr

variable {w w' : Workspace} {r r' : Results} {answer : Option (Except QueryError Entry)}

/-- A reader is answered what comes next of its query's outcome. -/
lemma Follows.answer_eq (h : reading.Follows d start q reader)
    (hw : w.snapshots.Faithful d start q) (hready : w.service.Ready)
    (hsound : r.stream.Sound d w.service) (hresults : reader.results = some r)
    (hnext : r.next w = (answer, r', w')) :
    answer = (reading.query.outcome start d).answer reading.answers.length := by
  obtain ⟨rfl, -⟩ := Results.next_answer hsound hready hnext
  rw [hw.stream_outcome (h.draws r hresults), h.rest r hresults 0, Nat.add_zero]

lemma Follows.answered (h : reading.Follows d start q reader)
    (hw : w.snapshots.Faithful d start q) (hready : w.service.Ready)
    (hsound : r.stream.Sound d w.service) (hresults : reader.results = some r)
    (hnext : r.next w = (answer, r', w')) (hresults' : reader'.results = some r') :
    (reading.answered answer).Follows d start q reader' := by
  have hdraws := h.draws r hresults
  have hdraws' : r'.stream.Draws q := Results.draws_runs (Results.runs_next hnext) hdraws
  have hanswer := h.answer_eq hw hready hsound hresults hnext
  have hlength : (reading.answered answer).answers.length = reading.answers.length + 1 :=
    List.length_append
  refine ⟨?_, fun r₁ hr₁ => ?_, fun r₁ hr₁ k => ?_⟩
  · rw [hlength, List.range_succ, List.map_append, List.map_singleton, query_answered, ← hanswer,
      ← h.answers]
    rfl
  · obtain rfl := Option.some.inj (hresults'.symm.trans hr₁)
    exact hdraws'
  · obtain rfl := Option.some.inj (hresults'.symm.trans hr₁)
    obtain ⟨-, hrest⟩ := Results.next_answer hsound hready hnext
    rw [← hw.stream_outcome hdraws', hrest, hw.stream_outcome hdraws, h.rest r hresults, hlength,
      query_answered]
    congr 1
    omega

end Reading

/-! ## Moves -/

namespace Chronicle

variable {c : Chronicle} {n : Nat}

/-- Every reader of a part of the query was answered what its query came to at the start. -/
def Follows (c : Chronicle) (d : Directory) (start : Snapshots) (q : Query) : Prop :=
  ∀ (i : Nat) (reading : Reading) (reader : Reader), c.readings[i]? = some reading →
    c.scene.readers[i]? = some reader → reading.query.levels ⊆ q.levels →
      reading.Follows d start q reader

/-- Whatever was kept or answered so far is what it would have been at the start. -/
structure Faithful (c : Chronicle) (d : Directory) (start : Snapshots) (q : Query) : Prop where
  sound : ∀ {p : Query}, p.levels ⊆ q.levels → c.Sound p
  kept : c.workspace.snapshots.Faithful d start q
  follows : c.Follows d start q

lemma faithful_ofWorkspace (w : Workspace) (q : Query) :
    (ofWorkspace w).Faithful w.service.directory w.snapshots q where
  sound _ := sound_ofWorkspace _ w
  kept := Snapshots.faithful_start _ _ q
  follows i reading reader hreading := by cases hreading

lemma Faithful.length (hc : c.Faithful d start q) : c.readings.length = c.scene.readers.length :=
  (hc.sound (List.Subset.refl _)).length

lemma Faithful.follows_create (hc : c.Faithful d start q) (p : Query) :
    (c.step (.move (.create p))).Follows d start q := by
  intro i reading reader hreading hreader hp
  obtain ⟨hreading, hreader⟩ | ⟨rfl, rfl⟩ :=
    getElem?_concat_eq_some_both hc.length hreading hreader
  · exact hc.follows i reading reader hreading hreader hp
  · exact Reading.follows_results hc.kept hp

lemma Faithful.follows_drop (hc : c.Faithful d start q) (j : Nat) :
    (c.step (.move (.drop j))).Follows d start q := by
  obtain hstep | ⟨dropped, results, reader', hdropped, -, hresults', hstep⟩ := c.step_drop j
  · rw [hstep]
    exact hc.follows
  · rw [hstep]
    intro i reading reader hreading hreader hp
    obtain ⟨rfl, rfl⟩ | ⟨-, hreader⟩ := getElem?_set_eq_some hreader
    · exact (hc.follows _ reading dropped hreading hdropped hp).dropped hresults'
    · exact hc.follows i reading reader hreading hreader hp

section Step

variable (hc : c.Faithful d start q) (hsteady : c.Steady d n)
  (hroom : d.searchesRun + n + 1 < Text.maxSize)
include hc hsteady hroom

lemma Faithful.outcome_of_fetch (hp : p.levels ⊆ q.levels) {es : List Entry}
    (h : (p.fetch c.workspace).1 = .ok es) : p.outcome start d = ⟨es, none⟩ := by
  have hsearches := hsteady.service.searchesRun
  rw [Query.fetch_eq_outcome hsteady.service.ready hsteady.service.entries (by omega) p,
    Outcome.result_eq_ok_iff, hc.kept.outcome_eq hp] at h
  exact h

lemma Faithful.follows_poll (j : Nat) : (c.step (.move (.poll j))).Follows d start q := by
  obtain ⟨-, hstep⟩ | ⟨asked, results, answer, results', w, hasked, hresults, hnext, -, hstep⟩ :=
    c.step_poll j
  · rw [hstep]
    exact hc.follows
  · have hfits := hsteady.fits asked (List.mem_of_getElem? hasked) results hresults
    rw [hstep]
    intro i reading' reader hreading' hreader hp
    obtain ⟨rfl, reading, hreading, rfl⟩ | ⟨hij, hreading⟩ := getElem?_modify_eq_some hreading'
    · obtain ⟨-, rfl⟩ | ⟨hij, -⟩ := getElem?_set_eq_some hreader
      · exact (hc.follows _ reading asked hreading hasked hp).answered hc.kept hsteady.service.ready
          (hsteady.service.sound hroom hfits) hresults hnext rfl
      · exact absurd rfl hij
    · obtain ⟨rfl, -⟩ | ⟨-, hreader⟩ := getElem?_set_eq_some hreader
      · exact absurd rfl hij
      · exact hc.follows i reading' reader hreading hreader hp

/-- What comes to be kept is what the query came to at the start. -/
lemma Faithful.outcome_of_completes (hp : p.levels ⊆ q.levels) {es : List Entry} {x : Happening}
    (h : c.Completes p es x) : p.outcome start d = ⟨es, none⟩ := by
  match x, h with
  | .move (.poll i), ⟨hreading, hnone⟩ =>
    obtain ⟨hanswer, -⟩ | ⟨reader, results, answer, results', w, hreader, hresults, hnext, hanswer,
      -⟩ := c.step_poll i
    · rw [hanswer] at hnone
      cases hnone
    · obtain rfl : answer = none := Option.some.inj (hanswer.symm.trans hnone)
      have hfollows := hc.follows i _ reader hreading hreader hp
      have hfits := hsteady.fits reader (List.mem_of_getElem? hreader) results hresults
      have hnext := hfollows.answer_eq hc.kept hsteady.service.ready
        (hsteady.service.sound hroom hfits) hresults hnext
      have hanswers := hfollows.answers
      rw [List.length_map] at hnext hanswers
      exact Outcome.eq_of_answers hanswers hnext.symm
  | .move (.fetch _), ⟨rfl, hfetch⟩ | .move (.count _), ⟨rfl, hfetch⟩
  | .move (.aggregate _ _), ⟨rfl, hfetch⟩ =>
    exact hc.outcome_of_fetch hsteady hroom hp hfetch
  | .move (.one _), ⟨rfl, hes, hone⟩ =>
    obtain ⟨-, hfetch, -⟩ | ⟨hne, -⟩ := p.snapshots_one c.workspace
    · exact hc.outcome_of_fetch hsteady hroom hp (hes ▸ hfetch)
    · exact absurd hone hne

lemma Faithful.kept_step {x : Happening}
    (hrespects : ∀ p : Query, p.levels ⊆ q.levels → x.Respects p) :
    (c.step x).workspace.snapshots.Faithful d start q := by
  have hempty : Query.empty.levels ⊆ q.levels := List.nil_subset _
  have hgrows := (sound_step (hc.sound hempty) (hrespects .empty hempty)).2
  refine ⟨hc.kept.grows.trans hgrows, fun level hlevel es hafter => ?_⟩
  have hlevels := Query.levels_subset_of_mem hlevel
  obtain ⟨tag, htag, hafter⟩ := Option.bind_eq_some_iff.1 hafter
  cases hbefore : c.kept? tag.id with
  | some es' =>
    obtain rfl := Option.some.inj ((hgrows tag.id es' hbefore).symm.trans hafter)
    exact hc.kept.right level hlevel es' (Query.cached?_of_get? htag hbefore)
  | none =>
    obtain ⟨-, hcompletes⟩ :=
      (hc.sound hlevels).completes htag (hrespects level hlevels) hbefore hafter
    exact hc.outcome_of_completes hsteady hroom hlevels hcompletes

/-- Every move keeps all that was kept or answered what it would have been at the start. -/
theorem faithful_step {m : Move}
    (hrespects : ∀ p : Query, p.levels ⊆ q.levels → (Happening.move m).Respects p) :
    (c.step (.move m)).Faithful d start q where
  sound hp := (sound_step (hc.sound hp) (hrespects _ hp)).1
  kept := hc.kept_step hsteady hroom hrespects
  follows := by
    match m with
    | .create p => exact hc.follows_create p
    | .poll j => exact hc.follows_poll hsteady hroom j
    | .drop j => exact hc.follows_drop j
    | .fetch _ | .count _ | .one _ | .get _ _ | .aggregate _ _ | .add _ | .setDown _ _
    | .failNextSearch _ | .failNextAbandon _ => exact hc.follows

end Step

/-! ## Whatever is read -/

/-- Who reads a query, or leaves the instances of its chain to those who use them, respects all of
its parts. -/
lemma respects_part (hq : q.Numbered) {m : Move}
    (hm : m.query? = some q ∨ ∀ level ∈ q.levels, (Happening.move m).Respects level)
    (hp : p.levels ⊆ q.levels) : (Happening.move m).Respects p := by
  intro used hused hid
  by_cases hempty : p = .empty
  · rw [hempty] at hid ⊢
    cases used with
    | empty => rfl
    | search tag source | staged tag stage below => cases hid
  have hlevel := hp (Query.mem_levels_self hempty)
  obtain hquery | hrespects := hm
  · obtain rfl := Option.some.inj (hquery.symm.trans hused)
    exact hq.eq_of_mem_levels hlevel hid
  · exact hrespects p hlevel used hused hid

/-- However often queries are read, all stays as at the start. -/
theorem faithful_moves {moves : List Move} (hc : c.Faithful d start q) (hsteady : c.Steady d n)
    (hroom : d.searchesRun + n + moves.length < Text.maxSize)
    (hreads : ∀ m ∈ moves, m.IsReading) (hrespects : ∀ m ∈ moves, ∀ p : Query,
      p.levels ⊆ q.levels → (Happening.move m).Respects p) :
    ((moves.map Happening.move).foldl step c).Faithful d start q ∧
      ((moves.map Happening.move).foldl step c).Steady d (n + moves.length) := by
  induction moves generalizing c n with
  | nil => exact ⟨hc, hsteady⟩
  | cons m moves ih =>
    rw [List.length_cons] at hroom ⊢
    obtain ⟨hreads, hlater⟩ := List.forall_mem_cons.1 hreads
    obtain ⟨hrespects, hrespectsLater⟩ := List.forall_mem_cons.1 hrespects
    have hnow : d.searchesRun + n + 1 < Text.maxSize := by omega
    have hend := ih (faithful_step hc hsteady hnow hrespects) (steady_step hsteady hnow hreads)
      (by omega) hlater hrespectsLater
    rw [Nat.add_right_comm] at hend
    exact hend

open Query in
/-- Whatever was read before, and in whatever order, and whatever was kept of it: all ways of
reading a query agree, as long as nothing else happens.  Fetching gives the same list as at the
start, and the number of entries, whether there are any, the first one, the one at any position,
what aggregations make of them and what readers are answered are those of the list.  The moves read
the query, or others if they leave the instances of its chain to those who use them; there have to
be so few that cookies can number their searches. -/
theorem agreement_of_readings {base : String} {scope : Scope} {first next : Nat}
    {hows : List Derivation} (hq : ComesFrom base scope first hows q next) {w : Workspace}
    (hready : w.service.Ready) {rs : List Entry} (hfetch : (q.fetch w).1 = .ok rs)
    (hlength : rs.length ≤ Text.maxSize) {moves : List Move} (hreads : ∀ m ∈ moves, m.IsReading)
    (hothers : ∀ m ∈ moves,
      m.query? = some q ∨ ∀ level ∈ q.levels, (Happening.move m).Respects level)
    (hroom : w.service.directory.searchesRun + moves.length + 1 < Text.maxSize) :
    let c := (moves.map Happening.move).foldl step (ofWorkspace w)
    (q.fetch c.workspace).1 = .ok rs ∧ (q.count c.workspace).1 = .ok rs.length ∧
      q.isEmpty c.workspace = (.ok rs.isEmpty, (q.count c.workspace).2) ∧
      (q.one c.workspace).1 = .ok rs.head? ∧
      (∀ index, (q.get index c.workspace).1 = .ok rs[index]?) ∧
      (∀ as, (q.aggregate as c.workspace).1 = rs.foldl Aggregations.accumulate as.reset ∧
        (q.aggregate as c.workspace).2.1 = none ∧
        ∀ name n, (name, .count n) ∈ as.members →
          (name, .count rs.length) ∈ (q.aggregate as c.workspace).1.members) ∧
      ∀ (i : Nat) answers, c.readings[i]? = some ⟨q, answers⟩ →
        answers = (List.range answers.length).map fun k => rs[k]?.map .ok := by
  intro c
  have hstart : q.outcome w.snapshots w.service.directory = ⟨rs, none⟩ := by
    rw [fetch_eq_outcome hready rfl (by omega) q] at hfetch
    exact Outcome.result_eq_ok_iff.1 hfetch
  have hrespects : ∀ m ∈ moves, ∀ p : Query, p.levels ⊆ q.levels →
      (Happening.move m).Respects p :=
    fun m hm p => respects_part hq.numbered (hothers m hm)
  obtain ⟨hc, hsteady⟩ : c.Faithful w.service.directory w.snapshots q ∧
      c.Steady w.service.directory (0 + moves.length) :=
    faithful_moves (faithful_ofWorkspace w q) (steady_ofWorkspace hready) (by omega) hreads
      hrespects
  have hsearches := hsteady.service.searchesRun
  have hentries := hsteady.service.entries
  have hroom' : c.workspace.service.directory.searchesRun + 1 < Text.maxSize := by omega
  have hready' := hsteady.service.ready
  have houtcome : q.outcome c.workspace.snapshots w.service.directory = ⟨rs, none⟩ :=
    (hc.kept.outcome_eq (List.Subset.refl _)).trans hstart
  refine ⟨?_, count_of_outcome hready' hentries hroom' houtcome,
    isEmpty_of_outcome hready' hentries hroom' houtcome,
    one_of_outcome hready' hentries hroom' houtcome,
    get_of_outcome hready' hentries hroom' houtcome hlength, fun as => ?_,
    fun i answers hreading => ?_⟩
  · rw [fetch_eq_outcome hready' hentries hroom' q, houtcome]
    rfl
  · obtain ⟨hall, hnone⟩ := aggregate_of_outcome hready' hentries hroom' houtcome as
    refine ⟨hall, hnone, fun name n hcount => ?_⟩
    rw [hall]
    exact Aggregations.count_mem_reset hcount rs
  · have hi : i < c.scene.readers.length := hc.length ▸ (List.getElem?_eq_some_iff.1 hreading).1
    have hfollows := hc.follows i _ _ hreading (List.getElem?_eq_getElem hi) (List.Subset.refl _)
    have hanswers := hfollows.answers
    rw [hstart] at hanswers
    refine hanswers.trans (List.map_congr_left fun k _ => ?_)
    rw [Outcome.answer, Option.toList_none, List.map_nil, List.append_nil, List.getElem?_map]

open Query in
/-- Three entries and a window on two.  One reader is under way when the query is fetched and keeps
its result, another one starts from there. -/
theorem agreement_of_two_readers :
    let w : Workspace := ⟨⟨Directory.empty.addAll
        [.named "cn=Ann,dc=org", .named "cn=Bob,dc=org", .named "cn=Cyd,dc=org"],
      .ofConfig (.ofPrimary "localhost")⟩, .empty⟩
    let all := ofBase "dc=org" .subtree 0
    let q : Query := .staged ⟨1, .default⟩ (.sliced ⟨0, some 2, 1⟩) all.1
    let moves : List Move :=
      [.create q, .poll 0, .get q 1, .fetch q, .create q, .poll 1, .poll 0, .poll 0]
    let c := (moves.map Happening.move).foldl step (ofWorkspace w)
    ∃ rs, rs.map Entry.dn = ["cn=Ann,dc=org", "cn=Bob,dc=org"] ∧
      (q.fetch c.workspace).1 = .ok rs ∧ (q.count c.workspace).1 = .ok 2 ∧
      (q.get 1 c.workspace).1 = .ok rs[1]? ∧
      ∀ (i : Nat) answers, c.readings[i]? = some ⟨q, answers⟩ →
        answers = (List.range answers.length).map fun k => rs[k]?.map .ok := by
  intro w all q moves c
  have hall : ComesFrom "dc=org" .subtree 0 [] all.1 all.2 := .search (Nat.le_refl 0)
  have hq : ComesFrom "dc=org" .subtree 0 [.slice 0 (some 2) 1] q 2 :=
    hall.apply (Nat.le_refl _) rfl
  have hready : w.service.Ready :=
    ⟨rfl, nofun, ⟨"localhost", by decide +kernel, rfl⟩, rfl, by decide +kernel, by decide +kernel⟩
  have hnames : (q.fetch w).1.toOption.map (·.map Entry.dn) =
      some ["cn=Ann,dc=org", "cn=Bob,dc=org"] := by decide +kernel
  have hroom : w.service.directory.searchesRun + moves.length + 1 < Text.maxSize := by
    decide +kernel
  have hreads : ∀ m ∈ moves, m.IsReading := by simp [moves, Move.IsReading]
  have hothers : ∀ m ∈ moves,
      m.query? = some q ∨ ∀ level ∈ q.levels, (Happening.move m).Respects level := by
    simp [moves, Move.query?, Happening.Respects]
  obtain ⟨rs, hfetch, hdn⟩ : ∃ rs, (q.fetch w).1 = .ok rs ∧
      rs.map Entry.dn = ["cn=Ann,dc=org", "cn=Bob,dc=org"] := by
    cases hfetch : (q.fetch w).1 with
    | error e =>
      rw [hfetch] at hnames
      cases hnames
    | ok rs =>
      rw [hfetch] at hnames
      exact ⟨rs, rfl, Option.some.inj hnames⟩
  have htwo : rs.length = 2 := by
    rw [← List.length_map Entry.dn, hdn]
    rfl
  obtain ⟨hfetched, hcounted, -, -, hgot, -, hanswers⟩ :=
    agreement_of_readings hq hready hfetch (by rw [htwo]; decide +kernel) hreads hothers hroom
  exact ⟨rs, hdn, hfetched, hcounted.trans (congrArg _ htwo), hgot 1, hanswers⟩

end Chronicle

end DirectoryQuery
