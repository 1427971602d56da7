import DirectoryQuery.Proofs.Query.Keeping
import DirectoryQuery.Proofs.Query.Readers

/-!
# Chronicles

A `Chronicle` is a scene with a note on every reader: whose results it reads, and what it was
answered so far.  Besides the moves of the scene, the directory and the pool may change from outside
in any way.

A query value stands for an instance and all its clones, so whoever uses the identity of a query
uses that query (`Happening.Respects`).  `Chronicle.Sound` is the invariant: the record of every
reader says what the reader was answered.  Every happening keeps it, and loses nothing that was kept
(`Chronicle.sound_step`).
-/

namespace DirectoryQuery

/-- A note on a reader: the query, and the answers so far, in order. -/
structure Reading where
  query : Query
  answers : List (Option (Except QueryError Entry))

/-- A scene and the notes on its readers. -/
structure Chronicle where
  scene : Scene
  readings : List Reading

/-- What can happen. -/
inductive Happening where
  | move (m : Move)
  /-- The directory or the pool in front of it changes from outside. -/
  | disturb (change : Service → Service)

/-- The query that a move is about. -/
def Move.query? : Move → Option Query
  | .create q | .fetch q | .count q | .one q | .get q _ | .aggregate q _ => some q
  | _ => none

/-- The identity of the query's instance is used for this query only. -/
def Happening.Respects (q : Query) : Happening → Prop
  | .move m => ∀ q', m.query? = some q' → q'.tag?.map QueryTag.id = q.tag?.map QueryTag.id → q' = q
  | .disturb _ => True

namespace Reading

def answered (r : Reading) (answer : Option (Except QueryError Entry)) : Reading :=
  { r with answers := r.answers ++ [answer] }

/-- The entries among the answers. -/
def entries (r : Reading) : List Entry :=
  r.answers.filterMap fun
    | some (.ok e) => some e
    | _ => none

/-- Whether there was an error among the answers. -/
def hasFailed (r : Reading) : Bool :=
  r.answers.any fun
    | some (.error _) => true
    | _ => false

/-- Whether the reader was told that nothing is left. -/
def isOver (r : Reading) : Bool :=
  r.answers.any Option.isNone

/-- The record that goes with the answers, if the query is to keep its result. -/
def record? (r : Reading) : Option Recorder :=
  r.query.tag?.bind fun tag =>
    if tag.options.cache = .snapshot ∧ r.isOver = false then
      some ⟨tag.id, r.entries.reverse, r.hasFailed⟩
    else none

end Reading

namespace Chronicle

/-- A workspace before anybody reads anything. -/
def ofWorkspace (w : Workspace) : Chronicle :=
  ⟨⟨w, []⟩, []⟩

def workspace (c : Chronicle) : Workspace :=
  c.scene.workspace

/-- The result that the instance with an identity has kept. -/
def kept? (c : Chronicle) (id : Nat) : Option (List Entry) :=
  c.workspace.snapshots.get? id

/-- What a reader will be answered when it is asked now, if it is there and was not dropped. -/
def answer? (c : Chronicle) (i : Nat) : Option (Option (Except QueryError Entry)) :=
  (c.scene.readers[i]?.bind Reader.results).map fun r => (r.next c.workspace).1

/-- The notes after a move. -/
def note (c : Chronicle) : Move → List Reading
  | .create q => c.readings ++ [⟨q, []⟩]
  | .poll i =>
    match c.answer? i with
    | none => c.readings
    | some answer => c.readings.modify i (·.answered answer)
  | _ => c.readings

def step (c : Chronicle) : Happening → Chronicle
  | .move m => ⟨c.scene.move m, c.note m⟩
  | .disturb change => { c with scene.workspace.service := change c.workspace.service }

end Chronicle

/-! ## Notes and records -/

namespace Reading

variable {r : Reading}

@[simp] theorem query_answered (answer : Option (Except QueryError Entry)) :
    (r.answered answer).query = r.query := rfl

@[simp] theorem isOver_answered (answer : Option (Except QueryError Entry)) :
    (r.answered answer).isOver = (r.isOver || answer.isNone) := by
  simp [isOver, answered]

/-- The record follows the answers. -/
lemma record?_answered {event : StreamEvent} {answer : Option (Except QueryError Entry)}
    (h : Results.Answers event answer) (snapshots : Snapshots) :
    (r.answered answer).record? = (Results.record r.record? event snapshots).1 := by
  unfold record?
  rw [query_answered]
  cases r.query.tag? with
  | none => rfl
  | some tag =>
    rw [Option.bind_some, Option.bind_some, isOver_answered]
    by_cases hrecorded : tag.options.cache = .snapshot ∧ r.isOver = false
    · rw [if_pos hrecorded, hrecorded.2, Bool.false_or]
      cases event with
      | item e =>
        obtain rfl : answer = some (.ok e) := h
        rw [if_pos ⟨hrecorded.1, rfl⟩]
        simp [Results.record, entries, hasFailed, answered]
      | fault e =>
        obtain rfl : answer = some (.error e) := h
        rw [if_pos ⟨hrecorded.1, rfl⟩]
        simp [Results.record, entries, hasFailed, answered]
      | pause => exact h.elim
      | finish =>
        obtain rfl : answer = none := h
        rw [if_neg (fun hstays => Bool.noConfusion hstays.2)]
        rfl
    · have hstays : ¬(tag.options.cache = .snapshot ∧ (r.isOver || answer.isNone) = false) :=
        fun hstays => hrecorded ⟨hstays.1, (Bool.or_eq_false_iff.1 hstays.2).1⟩
      rw [if_neg hrecorded, if_neg hstays]
      rfl

/-- Without an end and without an error, the answers are entries. -/
lemma answers_eq (hover : r.isOver = false) (hfailed : r.hasFailed = false) :
    r.answers = r.entries.map (some ∘ .ok) := by
  obtain ⟨q, answers⟩ := r
  induction answers with
  | nil => rfl
  | cons answer answers ih =>
    simp only [isOver, hasFailed, entries, List.any_cons, Bool.or_eq_false_iff] at hover hfailed ih
    match answer with
    | none => cases hover.1
    | some (.error e) => cases hfailed.1
    | some (.ok e) =>
      have hrest := ih hover.2 hfailed.2
      simp only [entries, List.filterMap_cons, List.map_cons]
      rw [← hrest]
      rfl

lemma record?_of_entries {q : Query} {tag : QueryTag} (htag : q.tag? = some tag)
    (hcache : tag.options.cache = .snapshot) (es : List Entry) :
    record? ⟨q, es.map (some ∘ .ok)⟩ = some ⟨tag.id, es.reverse, false⟩ := by
  have hover : isOver ⟨q, es.map (some ∘ .ok)⟩ = false := by simp [isOver]
  have hfailed : hasFailed ⟨q, es.map (some ∘ .ok)⟩ = false := by simp [hasFailed]
  have hentries : entries ⟨q, es.map (some ∘ .ok)⟩ = es := by
    simp [entries, List.filterMap_map, Function.comp_def]
  rw [record?, htag, Option.bind_some, if_pos ⟨hcache, hover⟩, hentries, hfailed]

lemma of_record? {id : Nat} {es : List Entry} (h : r.record? = some ⟨id, es.reverse, false⟩) :
    ∃ tag, r.query.tag? = some tag ∧ tag.id = id ∧ tag.options.cache = .snapshot ∧
      r.answers = es.map (some ∘ .ok) := by
  unfold record? at h
  cases htag : r.query.tag? with
  | none =>
    rw [htag] at h
    cases h
  | some tag =>
    rw [htag, Option.bind_some] at h
    split at h
    · rename_i hrecorded
      rw [Option.some.injEq, Recorder.mk.injEq, List.reverse_inj] at h
      obtain ⟨hid, hentries, hfailed⟩ := h
      exact ⟨tag, rfl, hid, hrecorded.1, hentries ▸ answers_eq hrecorded.2 hfailed⟩
    · cases h

/-- The results are recorded as the note says, and certainly so while nothing is kept. -/
structure Agrees (r : Reading) (recorder : Option Recorder) (snapshots : Snapshots) : Prop where
  recorded : recorder = none ∨ recorder = r.record?
  unkept : ∀ tag, r.query.tag? = some tag → snapshots.get? tag.id = none → recorder = r.record?

variable {recorder : Option Recorder} {snapshots snapshots' : Snapshots}

lemma Agrees.mono (h : r.Agrees recorder snapshots) (hkept : snapshots.Extends snapshots') :
    r.Agrees recorder snapshots' where
  recorded := h.recorded
  unkept tag htag hnone := by
    refine h.unkept tag htag ?_
    cases hget : snapshots.get? tag.id with
    | none => rfl
    | some es =>
      rw [hkept tag.id es hget] at hnone
      cases hnone

lemma agrees_results (q : Query) (snapshots : Snapshots) :
    Agrees ⟨q, []⟩ (q.results snapshots).recorder snapshots := by
  have hrecord : ∀ tag, q.tag? = some tag → snapshots.get? tag.id = none →
      q.recorder? snapshots = record? ⟨q, []⟩ := by
    intro tag htag hnone
    simp [Query.recorder?, record?, htag, hnone, isOver, entries, hasFailed]
  refine ⟨?_, hrecord⟩
  obtain hnone | ⟨tag, htag, -, hget, -⟩ := q.recorder?_cases snapshots
  · exact .inl hnone
  · exact .inr (hrecord tag htag hget)

section Next

variable {results results' : Results} {w w' : Workspace}
  {answer : Option (Except QueryError Entry)}

/-- The note on a reader agrees with its record after it was asked again. -/
lemma Agrees.next (h : r.Agrees results.recorder w.snapshots)
    (hnext : results.next w = (answer, results', w')) :
    (r.answered answer).Agrees results'.recorder w'.snapshots ∧
      w.snapshots.Extends w'.snapshots := by
  obtain ⟨event, hanswers, hrecorder, hsnapshots⟩ := Results.record_next hnext
  have hkept : w.snapshots.Extends w'.snapshots := by
    rw [hsnapshots]
    exact Results.extends_record _ _ _
  have hagrees := h.mono hkept
  have hanswered := record?_answered (r := r) hanswers w.snapshots
  refine ⟨⟨?_, fun tag htag hnone => ?_⟩, hkept⟩
  · rw [hrecorder, hanswered]
    obtain hnone | hsome := hagrees.recorded
    · rw [hnone]
      exact .inl rfl
    · rw [hsome]
      exact .inr rfl
  · rw [hrecorder, hanswered, hagrees.unkept tag htag hnone]

variable {q : Query} {tag : QueryTag} {es : List Entry}

/-- A reader lets an instance keep a result when it is told that nothing is left. -/
lemma Agrees.of_kept (h : r.Agrees results.recorder w.snapshots)
    (hnext : results.next w = (answer, results', w')) (htag : q.tag? = some tag)
    (hclone : r.query.tag?.map QueryTag.id = q.tag?.map QueryTag.id → r.query = q)
    (hbefore : w.snapshots.get? tag.id = none) (hafter : w'.snapshots.get? tag.id = some es) :
    tag.options.cache = .snapshot ∧ r = ⟨q, es.map (some ∘ .ok)⟩ ∧ answer = none := by
  obtain ⟨event, hanswers, -, hsnapshots⟩ := Results.record_next hnext
  rw [hsnapshots] at hafter
  obtain ⟨rfl, hrecorder⟩ := Results.eq_of_record hbefore hafter
  obtain hnone | hrecord := h.recorded
  · rw [hnone] at hrecorder
    cases hrecorder
  · obtain ⟨tag', htag', hid, hcache, hentries⟩ := of_record? (hrecord.symm.trans hrecorder)
    have hquery : r.query = q := hclone (by rw [htag', htag, Option.map_some, Option.map_some, hid])
    obtain rfl : tag' = tag := by
      rw [hquery, htag] at htag'
      exact (Option.some.inj htag').symm
    refine ⟨hcache, ?_, hanswers⟩
    rw [← hquery, ← hentries]

/-- A reader that is told after entries alone that nothing is left lets its instance keep them. -/
lemma Agrees.keeps (h : Agrees ⟨q, es.map (some ∘ .ok)⟩ results.recorder w.snapshots)
    (hnext : results.next w = (none, results', w')) (htag : q.tag? = some tag)
    (hcache : tag.options.cache = .snapshot) (hbefore : w.snapshots.get? tag.id = none) :
    w'.snapshots.get? tag.id = some es := by
  obtain ⟨event, hanswers, -, hsnapshots⟩ := Results.record_next hnext
  have hevent : event = .finish := by cases event <;> first | rfl | cases hanswers
  rw [hsnapshots, h.unkept tag htag hbefore, record?_of_entries htag hcache, hevent]
  simp [Results.record, Snapshots.get?_keep, hbefore]

end Next

end Reading

/-! ## What a happening does -/

namespace Chronicle

variable {c : Chronicle}

/-- Asking a reader does nothing when there is none, and else it goes through the answer. -/
lemma step_poll (c : Chronicle) (i : Nat) :
    c.answer? i = none ∧ c.step (.move (.poll i)) = c ∨
      ∃ reader results answer results' w, c.scene.readers[i]? = some reader ∧
        reader.results = some results ∧ results.next c.workspace = (answer, results', w) ∧
        c.answer? i = some answer ∧
        c.step (.move (.poll i)) =
          ⟨⟨w, c.scene.readers.set i
              (reader.polled answer results' c.workspace.service w.service)⟩,
            c.readings.modify i (·.answered answer)⟩ := by
  cases hreader : c.scene.readers[i]? with
  | none =>
    refine .inl ⟨by simp [answer?, hreader], ?_⟩
    simp [step, note, answer?, Scene.move, Scene.poll, hreader]
  | some reader =>
    cases hresults : reader.results with
    | none =>
      refine .inl ⟨by simp [answer?, hreader, hresults], ?_⟩
      simp [step, note, answer?, Scene.move, Scene.poll, hreader, hresults]
    | some results =>
      rcases hnext : results.next c.workspace with ⟨answer, results', w⟩
      have hanswer : c.answer? i = some answer := by simp [answer?, hreader, hresults, hnext]
      have hnext' : results.next c.scene.workspace = (answer, results', w) := hnext
      refine .inr ⟨reader, results, answer, results', w, rfl, hresults, hnext, hanswer, ?_⟩
      simp only [step, note, hanswer, Scene.move, Scene.poll, hreader, hresults, hnext']
      rfl

/-- Dropping a reader does nothing when there is none, and else it closes the results. -/
lemma step_drop (c : Chronicle) (i : Nat) :
    c.step (.move (.drop i)) = c ∨
      ∃ reader results reader', c.scene.readers[i]? = some reader ∧
        reader.results = some results ∧ reader'.results = none ∧
        c.step (.move (.drop i)) =
          ⟨⟨results.close c.workspace, c.scene.readers.set i reader'⟩, c.readings⟩ := by
  cases hreader : c.scene.readers[i]? with
  | none =>
    refine .inl ?_
    simp [step, note, Scene.move, Scene.drop, hreader]
  | some reader =>
    cases hresults : reader.results with
    | none =>
      refine .inl ?_
      simp [step, note, Scene.move, Scene.drop, hreader, hresults]
    | some results =>
      refine .inr ⟨reader, results,
        reader.update none c.workspace.service (results.close c.workspace).service,
        rfl, hresults, rfl, ?_⟩
      simp only [step, note, Scene.move, Scene.drop, hreader, hresults]
      rfl

/-- The records of the readers say what the readers were answered, and no query but one goes by the
identity of the instance. -/
structure Sound (q : Query) (c : Chronicle) : Prop where
  length : c.readings.length = c.scene.readers.length
  agrees : ∀ (i : Nat) reading reader results, c.readings[i]? = some reading →
    c.scene.readers[i]? = some reader → reader.results = some results →
      reading.Agrees results.recorder c.workspace.snapshots
  clones : ∀ (i : Nat) reading, c.readings[i]? = some reading →
    reading.query.tag?.map QueryTag.id = q.tag?.map QueryTag.id → reading.query = q

/-- A chronicle stays sound while readers and notes stay, and nothing that was kept is lost. -/
lemma Sound.of_extends {q : Query} (hc : c.Sound q) {w : Workspace}
    (h : c.workspace.snapshots.Extends w.snapshots) : Sound q { c with scene.workspace := w } where
  length := hc.length
  agrees i reading reader results hreading hreader hresults :=
    (hc.agrees i reading reader results hreading hreader hresults).mono h
  clones := hc.clones

lemma getElem?_concat_eq_some_iff {α : Type} {l : List α} {a b : α} {i : Nat} :
    (l ++ [a])[i]? = some b ↔ l[i]? = some b ∨ i = l.length ∧ a = b := by
  grind

/-- Members at one position of two lists that grew together. -/
lemma getElem?_concat_eq_some_both {α β : Type} {l : List α} {l' : List β} {a a' : α} {b b' : β}
    {i : Nat} (hlength : l.length = l'.length) (h : (l ++ [a])[i]? = some a')
    (h' : (l' ++ [b])[i]? = some b') :
    l[i]? = some a' ∧ l'[i]? = some b' ∨ a = a' ∧ b = b' := by
  grind

lemma getElem?_modify_eq_some {α : Type} {l : List α} {f : α → α} {b : α} {i j : Nat}
    (h : (l.modify i f)[j]? = some b) :
    (i = j ∧ ∃ a, l[j]? = some a ∧ f a = b) ∨ (i ≠ j ∧ l[j]? = some b) := by
  grind

lemma getElem?_set_eq_some {α : Type} {l : List α} {a b : α} {i j : Nat}
    (h : (l.set i a)[j]? = some b) : (i = j ∧ a = b) ∨ (i ≠ j ∧ l[j]? = some b) := by
  grind

lemma Sound.create {q q' : Query} (hc : c.Sound q)
    (hq' : Happening.Respects q (.move (.create q'))) :
    (c.step (.move (.create q'))).Sound q where
  length := by
    show (c.readings ++ [_]).length = (c.scene.readers ++ [_]).length
    rw [List.length_append, List.length_append, hc.length]
    rfl
  agrees i reading reader results hreading hreader hresults := by
    obtain ⟨hreading, hreader⟩ | ⟨rfl, rfl⟩ :=
      getElem?_concat_eq_some_both hc.length hreading hreader
    · exact hc.agrees i reading reader results hreading hreader hresults
    · cases hresults
      exact Reading.agrees_results q' c.workspace.snapshots
  clones i reading hreading := by
    rcases getElem?_concat_eq_some_iff.1 hreading with hreading | ⟨-, rfl⟩
    · exact hc.clones i reading hreading
    · exact hq' q' rfl

lemma Sound.poll {q : Query} (hc : c.Sound q) (i : Nat) :
    (c.step (.move (.poll i))).Sound q ∧
      c.workspace.snapshots.Extends (c.step (.move (.poll i))).workspace.snapshots := by
  obtain ⟨-, hstep⟩ | ⟨reader, results, answer, results', w, hreader, hresults, hnext, -, hstep⟩ :=
    c.step_poll i
  · rw [hstep]
    exact ⟨hc, .refl _⟩
  · rw [hstep]
    have hagrees := fun reading hreading =>
      (hc.agrees i reading reader results hreading hreader hresults).next hnext
    have hkept : c.workspace.snapshots.Extends w.snapshots := by
      have hi : i < c.readings.length := hc.length ▸ (List.getElem?_eq_some_iff.1 hreader).1
      exact (hagrees _ (List.getElem?_eq_getElem hi)).2
    refine ⟨⟨?_, ?_, ?_⟩, hkept⟩
    · rw [List.length_modify, List.length_set, hc.length]
    · intro j reading' reader' results₁ hreading' hreader' hresults₁
      rcases getElem?_modify_eq_some hreading' with ⟨rfl, reading, hreading, rfl⟩ | ⟨hij, hreading⟩
      · rcases getElem?_set_eq_some hreader' with ⟨-, rfl⟩ | ⟨hij, -⟩
        · cases hresults₁
          exact (hagrees reading hreading).1
        · exact absurd rfl hij
      · rcases getElem?_set_eq_some hreader' with ⟨rfl, -⟩ | ⟨-, hreader'⟩
        · exact absurd rfl hij
        · exact (hc.agrees j reading' reader' results₁ hreading hreader' hresults₁).mono hkept
    · intro j reading' hreading'
      rcases getElem?_modify_eq_some hreading' with ⟨rfl, reading, hreading, rfl⟩ | ⟨-, hreading⟩
      · exact hc.clones i reading hreading
      · exact hc.clones j reading' hreading

lemma Sound.drop {q : Query} (hc : c.Sound q) (i : Nat) :
    (c.step (.move (.drop i))).Sound q ∧
      (c.step (.move (.drop i))).workspace.snapshots = c.workspace.snapshots := by
  obtain hstep | ⟨reader, results, reader', hreader, hresults, hdropped, hstep⟩ := c.step_drop i
  · rw [hstep]
    exact ⟨hc, rfl⟩
  · rw [hstep]
    refine ⟨⟨?_, ?_, hc.clones⟩, rfl⟩
    · rw [List.length_set, hc.length]
    · intro j reading reader₁ results₁ hreading hreader₁ hresults₁
      rcases getElem?_set_eq_some hreader₁ with ⟨-, rfl⟩ | ⟨-, hreader₁⟩
      · rw [hdropped] at hresults₁
        cases hresults₁
      · exact hc.agrees j reading reader₁ results₁ hreading hreader₁ hresults₁

/-- Every happening keeps a chronicle sound and loses nothing that was kept. -/
theorem sound_step {q : Query} (hc : c.Sound q) {x : Happening} (hx : x.Respects q) :
    (c.step x).Sound q ∧ c.workspace.snapshots.Extends (c.step x).workspace.snapshots := by
  have hevaluate : ∀ w : Workspace, c.workspace.snapshots.Extends w.snapshots →
      Sound q { c with scene.workspace := w } ∧ c.workspace.snapshots.Extends w.snapshots :=
    fun w hw => ⟨hc.of_extends hw, hw⟩
  match x with
  | .disturb change => exact hevaluate _ (.refl _)
  | .move (.create q') => exact ⟨hc.create hx, .refl _⟩
  | .move (.poll i) => exact hc.poll i
  | .move (.drop i) =>
    obtain ⟨hsound, hsame⟩ := hc.drop i
    exact ⟨hsound, hsame ▸ .refl _⟩
  | .move (.fetch q') => exact hevaluate _ (q'.snapshots_fetch _ ▸ q'.extends_kept _)
  | .move (.count q') => exact hevaluate _ (q'.snapshots_count _ ▸ q'.extends_kept _)
  | .move (.aggregate q' as) => exact hevaluate _ (q'.snapshots_aggregate as _ ▸ q'.extends_kept _)
  | .move (.one q') =>
    obtain ⟨-, -, hkept⟩ | ⟨-, hsame⟩ := q'.snapshots_one c.workspace
    · exact hevaluate _ (hkept ▸ q'.extends_kept _)
    · exact hevaluate _ (hsame ▸ .refl _)
  | .move (.get q' index) => exact hevaluate _ (q'.snapshots_get index _ ▸ .refl _)
  | .move (.add _) | .move (.setDown _ _) | .move (.failNextSearch _)
  | .move (.failNextAbandon _) =>
    exact hevaluate _ (.refl _)

end Chronicle

end DirectoryQuery
