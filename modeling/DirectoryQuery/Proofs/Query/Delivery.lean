import DirectoryQuery.Proofs.Query.Budget

/-!
# What queries deliver

The result of a query is computed here from what its search finds, stage by stage and on whole lists
(`Query.meaning`).  A stream delivers a list of entries when its steps bring just these entries
about, in order, and then the end (`Stream.Delivers`); the stream of a query delivers what the query
means (`Query.delivers_stream`).  An evaluation with the budget that it computes for itself takes in
all of a delivery, so fetching a query gives what it means (`Query.fetch_eq_meaning`).

Nothing here says what the search below a query finds, only that its stream delivers it.
-/

namespace DirectoryQuery

/-! ## Stages on whole results -/

/-- The entries at the positions of a window, the first one of the list at the given position. -/
def Window.cut (w : Window) : Nat → List Entry → List Entry
  | _, [] => []
  | position, e :: es =>
    if w.isOver position then []
    else if w.selects position then e :: w.cut (position + 1) es
    else w.cut (position + 1) es

/-- The entries whose key was not seen before. -/
def Entry.unseen (seen : List Entry.DistinctKey) : List Entry → List Entry
  | [] => []
  | e :: es =>
    if seen.contains e.distinctKey then unseen seen es
    else e :: unseen (e.distinctKey :: seen) es

/-- What a stage makes of a whole result. -/
def Stage.apply (stage : Stage) (es : List Entry) : List Entry :=
  match stage with
  | .filtered matcher => es.filter matcher.accepts
  | .annotated annotations => es.map fun e => e.annotate annotations
  | .ordered keys => SortKey.sort keys es
  | .sliced window => window.cut 0 es
  | .selected names => es.map fun e => e.retain names
  | .distinct => Entry.unseen [] es

/-- A stage on nothing gives nothing. -/
lemma Stage.apply_nil (stage : Stage) : stage.apply [] = [] := by
  cases stage <;> simp [apply, SortKey.sort, Window.cut, Entry.unseen]

/-- The result of a query whose search finds these entries. -/
def Query.meaning (snapshots : Snapshots) (found : List Entry) : Query → List Entry
  | .empty => []
  | .search tag _ => (snapshots.get? tag.id).getD found
  | .staged tag stage below =>
    (snapshots.get? tag.id).getD (stage.apply (below.meaning snapshots found))

lemma Window.cut_of_isOver {w : Window} {position : Nat} (h : w.isOver position = true)
    (es : List Entry) : w.cut position es = [] := by
  cases es with
  | nil => rfl
  | cons e es => rw [cut, if_pos h]

namespace Stream

/-! ## Deliveries -/

/-- The steps of the stream bring these entries about, in this order, and then the end. -/
inductive Delivers (snapshots : Snapshots) : Stream → Service → List Entry → Prop where
  | finish {s s' : Stream} {svc svc' : Service}
    (h : s.step snapshots svc = (.finish, s', svc')) : Delivers snapshots s svc []
  | pause {s s' : Stream} {svc svc' : Service} {es : List Entry}
    (h : s.step snapshots svc = (.pause, s', svc')) (rest : Delivers snapshots s' svc' es) :
    Delivers snapshots s svc es
  | item {s s' : Stream} {svc svc' : Service} {e : Entry} {es : List Entry}
    (h : s.step snapshots svc = (.item e, s', svc')) (rest : Delivers snapshots s' svc' es) :
    Delivers snapshots s svc (e :: es)

variable {snapshots : Snapshots} {svc : Service} {s inner : Stream} {es : List Entry}

lemma delivers_ended : ended.Delivers snapshots svc [] :=
  .finish rfl

lemma delivers_replay (es : List Entry) : (replay es).Delivers snapshots svc es := by
  induction es with
  | nil => exact .finish rfl
  | cons e es ih => exact .item rfl ih

lemma Delivers.filtered (h : inner.Delivers snapshots svc es) (matcher : Matcher) :
    (filtered matcher inner).Delivers snapshots svc (es.filter matcher.accepts) := by
  induction h with
  | finish h => exact .finish (by rw [step, h])
  | pause h _ ih => exact .pause (by rw [step, h]) ih
  | @item _ _ _ _ e es h _ ih =>
    rw [List.filter_cons]
    split
    · rename_i haccepts
      exact .item (by rw [step, h]; simp only [haccepts, if_true]) ih
    · rename_i haccepts
      exact .pause (by rw [step, h]; simp only [haccepts]; rfl) ih

lemma Delivers.annotated (h : inner.Delivers snapshots svc es)
    (annotations : List (String × Annotation)) :
    (annotated annotations inner).Delivers snapshots svc
      (es.map fun e => e.annotate annotations) := by
  induction h with
  | finish h => exact .finish (by rw [step, h])
  | pause h _ ih => exact .pause (by rw [step, h]) ih
  | item h _ ih => exact .item (by rw [step, h]) ih

lemma Delivers.selected (h : inner.Delivers snapshots svc es) (names : List String) :
    (selected names inner).Delivers snapshots svc (es.map fun e => e.retain names) := by
  induction h with
  | finish h => exact .finish (by rw [step, h])
  | pause h _ ih => exact .pause (by rw [step, h]) ih
  | item h _ ih => exact .item (by rw [step, h]) ih

lemma Delivers.distinct (h : inner.Delivers snapshots svc es) (seen : List Entry.DistinctKey) :
    (distinct seen inner).Delivers snapshots svc (Entry.unseen seen es) := by
  induction h generalizing seen with
  | finish h => exact .finish (by rw [step, h])
  | pause h _ ih => exact .pause (by rw [step, h]) (ih seen)
  | @item _ _ _ _ e es h _ ih =>
    unfold Entry.unseen
    split
    · rename_i hseen
      exact .pause (by rw [step, h]; simp only [hseen, if_true]) (ih seen)
    · rename_i hseen
      exact .item (by rw [step, h]; simp only [hseen]; rfl) (ih _)

lemma Delivers.sliced (h : inner.Delivers snapshots svc es) (window : Window) (position : Nat) :
    (sliced window position inner).Delivers snapshots svc (window.cut position es) := by
  induction h generalizing position with
  | finish h =>
    cases hover : window.isOver position with
    | true => exact .finish (by rw [step_sliced, if_pos hover])
    | false => exact .finish (by rw [step_sliced, hover, h]; rfl)
  | @pause _ _ _ _ es h _ ih =>
    cases hover : window.isOver position with
    | true =>
      rw [Window.cut_of_isOver hover]
      exact .finish (by rw [step_sliced, if_pos hover])
    | false => exact .pause (by rw [step_sliced, hover, h]; rfl) (ih position)
  | @item _ _ _ _ e es h _ ih =>
    cases hover : window.isOver position with
    | true =>
      rw [Window.cut_of_isOver hover]
      exact .finish (by rw [step_sliced, if_pos hover])
    | false =>
      rw [Window.cut, hover, if_neg Bool.false_ne_true]
      split
      · rename_i hselects
        exact .item (by rw [step_sliced, hover, h, hselects]; rfl) (ih _)
      · rename_i hselects
        exact .pause (by rw [step_sliced, hover, h, eq_false_of_ne_true hselects]; rfl) (ih _)

lemma Delivers.sorting (h : inner.Delivers snapshots svc es) (keys : List SortKey)
    (collected : List Entry) :
    (sorting keys collected inner).Delivers snapshots svc
      (SortKey.sort keys (collected.reverse ++ es)) := by
  induction h generalizing collected with
  | finish h =>
    rw [List.append_nil]
    exact .pause (by rw [step, h]) (delivers_replay _)
  | pause h _ ih => exact .pause (by rw [step, h]) (ih collected)
  | @item _ _ _ _ e es h _ ih =>
    have hrest := ih (e :: collected)
    rw [List.reverse_cons, List.append_assoc] at hrest
    exact .pause (by rw [step, h]) hrest

end Stream

/-- The stream of a query delivers what the query means. -/
theorem Query.delivers_stream {snapshots : Snapshots} {svc : Service} {found : List Entry}
    {q : Query} (h : ∀ source, q.source? = some source →
      (Stream.starting source).Delivers snapshots svc found) :
    (q.stream snapshots).Delivers snapshots svc (q.meaning snapshots found) := by
  induction q with
  | empty => exact Stream.delivers_ended
  | search tag source =>
    rw [stream, meaning]
    cases snapshots.get? tag.id with
    | some entries => exact Stream.delivers_replay entries
    | none => exact h source rfl
  | staged tag stage below ih =>
    rw [stream, meaning]
    cases snapshots.get? tag.id with
    | some entries => exact Stream.delivers_replay entries
    | none =>
      have hbelow := ih h
      cases stage with
      | filtered matcher => exact hbelow.filtered matcher
      | annotated annotations => exact hbelow.annotated annotations
      | ordered keys => exact .pause rfl (hbelow.sorting keys [])
      | sliced window => exact hbelow.sliced window 0
      | selected names => exact hbelow.selected names
      | distinct => exact hbelow.distinct []

/-! ## Evaluation -/

namespace Results

/-- Recording does not get in the way of a step, nor does a step change what is kept before the
end. -/
lemma step_of_stream {s s' : Stream} {svc svc' : Service} {snapshots : Snapshots}
    {event : StreamEvent} (h : s.step snapshots svc = (event, s', svc'))
    (recorder : Option Recorder) :
    ∃ recorder' snapshots',
      step ⟨s, recorder⟩ ⟨svc, snapshots⟩ = (event, ⟨s', recorder'⟩, ⟨svc', snapshots'⟩) ∧
        (event ≠ .finish → snapshots' = snapshots) := by
  rcases hrecord : record recorder event snapshots with ⟨recorder', snapshots'⟩
  have hstep : step ⟨s, recorder⟩ ⟨svc, snapshots⟩ =
      (event, ⟨s', recorder'⟩, ⟨svc', snapshots'⟩) := by
    simp only [step, h, hrecord]
  exact ⟨recorder', snapshots', hstep, snapshots_of_step hstep⟩

lemma budget_step {s s' : Stream} {svc svc' : Service} {snapshots : Snapshots}
    {event : StreamEvent} (h : s.step snapshots svc = (event, s', svc'))
    (hevent : event.isStop = false) (recorder recorder' : Option Recorder) :
    budget ⟨s', recorder'⟩ ⟨svc', snapshots⟩ < budget ⟨s, recorder⟩ ⟨svc, snapshots⟩ := by
  rw [budget, budget, Stream.entries_step h]
  exact Stream.budget_step h rfl hevent

lemma exists_eq_succ {r : Results} {w : Workspace} {steps : Nat} (h : r.budget w ≤ steps) :
    ∃ n, steps = n + 1 :=
  Nat.exists_eq_add_one_of_ne_zero
    (Nat.ne_of_gt (Nat.lt_of_lt_of_le (Stream.budget_pos r.stream) h))

/-- An evaluation with enough steps takes in all that is delivered. -/
lemma foldWithin_delivers {β : Type} (f : β → Entry → β) {s : Stream} {svc : Service}
    {snapshots : Snapshots} {es : List Entry} (h : s.Delivers snapshots svc es) {steps : Nat}
    (acc : β) (recorder : Option Recorder)
    (hsteps : budget ⟨s, recorder⟩ ⟨svc, snapshots⟩ ≤ steps) :
    ∃ w, foldWithin f steps acc ⟨s, recorder⟩ ⟨svc, snapshots⟩ = (es.foldl f acc, none, w) := by
  induction h generalizing steps acc recorder with
  | finish h =>
    obtain ⟨n, rfl⟩ := exists_eq_succ hsteps
    obtain ⟨recorder', snapshots', hstep, -⟩ := step_of_stream h recorder
    rw [foldWithin, hstep]
    exact ⟨_, rfl⟩
  | pause h _ ih =>
    obtain ⟨n, rfl⟩ := exists_eq_succ hsteps
    obtain ⟨recorder', snapshots', hstep, hkept⟩ := step_of_stream h recorder
    obtain rfl := hkept (by simp)
    have hless := budget_step h rfl recorder recorder'
    rw [foldWithin, hstep]
    exact ih acc recorder' (by omega)
  | @item _ _ _ _ e _ h _ ih =>
    obtain ⟨n, rfl⟩ := exists_eq_succ hsteps
    obtain ⟨recorder', snapshots', hstep, hkept⟩ := step_of_stream h recorder
    obtain rfl := hkept (by simp)
    have hless := budget_step h rfl recorder recorder'
    rw [foldWithin, hstep, List.foldl_cons]
    exact ih (f acc e) recorder' (by omega)

lemma toList_delivers {r : Results} {w : Workspace} {es : List Entry}
    (h : r.stream.Delivers w.snapshots w.service es) : (r.toList w).1 = .ok es := by
  obtain ⟨w', hfold⟩ :=
    foldWithin_delivers (fun acc e => e :: acc) h [] r.recorder (Nat.le_refl _)
  rw [List.foldl_flip_cons_eq_append', List.append_nil] at hfold
  have hlist : r.fold (fun acc e => e :: acc) [] w = (es.reverse, none, w') := hfold
  rw [toList, hlist]
  exact congrArg Except.ok (List.reverse_reverse es)

end Results

namespace Query

lemma meaning_of_cached {snapshots : Snapshots} {found entries : List Entry} {q : Query}
    (h : q.cached? snapshots = some entries) : q.meaning snapshots found = entries := by
  cases q with
  | empty => cases h
  | search tag source =>
    have hkept : snapshots.get? tag.id = some entries := h
    rw [meaning, hkept, Option.getD_some]
  | staged tag stage below =>
    have hkept : snapshots.get? tag.id = some entries := h
    rw [meaning, hkept, Option.getD_some]

/-- Fetching a query gives what it means. -/
theorem fetch_eq_meaning {w : Workspace} {found : List Entry} {q : Query}
    (h : ∀ source, q.source? = some source →
      (Stream.starting source).Delivers w.snapshots w.service found) :
    (q.fetch w).1 = .ok (q.meaning w.snapshots found) := by
  unfold fetch
  cases hcached : q.cached? w.snapshots with
  | some entries => rw [meaning_of_cached hcached]
  | none => exact Results.toList_delivers (delivers_stream h)

end Query

end DirectoryQuery
