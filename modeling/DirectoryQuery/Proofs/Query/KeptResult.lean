import DirectoryQuery.Proofs.Query.Chronicle

/-!
# When an instance keeps its result

`Chronicle.Completes` describes the one event by which an instance comes to keep a result: results
of it end without an error (`Chronicle.Sound.completes`, `Chronicle.Sound.keeps`).  Whoever reads a
kept result replays it and leaves the workspace alone (`Chronicle.Replays`).
`Chronicle.keeping_of_happenings` says both of everything that can happen to an instance.
-/

namespace DirectoryQuery.Chronicle

variable {c : Chronicle}

/-! ## How a result comes to be kept -/

/-- What happens is that results of the query end without an error, after these entries: those of a
reader that is asked once more, or those that an evaluation goes through. -/
def Completes (c : Chronicle) (q : Query) (es : List Entry) : Happening → Prop
  | .move (.poll i) => c.readings[i]? = some ⟨q, es.map (some ∘ .ok)⟩ ∧ c.answer? i = some none
  | .move (.fetch q') | .move (.count q') | .move (.aggregate q' _) =>
    q' = q ∧ (q.fetch c.workspace).1 = .ok es
  | .move (.one q') => q' = q ∧ es = [] ∧ (q.one c.workspace).1 = .ok none
  | _ => False

section Kept

variable {q : Query} {tag : QueryTag} {es : List Entry}

/-- An evaluation that goes through all results keeps them for its own query. -/
lemma completes_of_kept {q' : Query} (htag : q.tag? = some tag)
    (hq' : q'.tag?.map QueryTag.id = q.tag?.map QueryTag.id → q' = q)
    (hbefore : c.kept? tag.id = none) (hafter : (q'.kept c.workspace).get? tag.id = some es) :
    tag.options.cache = .snapshot ∧ q' = q ∧ (q.fetch c.workspace).1 = .ok es := by
  obtain ⟨tag', htag', hid, hcache, hfetch⟩ := Query.of_get?_kept hbefore hafter
  obtain rfl : q' = q := hq' (by rw [htag', htag, Option.map_some, Option.map_some, hid])
  obtain rfl : tag' = tag := Option.some.inj (htag'.symm.trans htag)
  exact ⟨hcache, rfl, hfetch⟩

/-- An instance comes to keep a result only when results of it end without an error. -/
theorem Sound.completes (hc : c.Sound q) (htag : q.tag? = some tag) {x : Happening}
    (hx : x.Respects q) (hbefore : c.kept? tag.id = none)
    (hafter : (c.step x).kept? tag.id = some es) :
    tag.options.cache = .snapshot ∧ c.Completes q es x := by
  have hsame : (c.step x).workspace.snapshots ≠ c.workspace.snapshots := by
    intro hsame
    rw [kept?, hsame] at hafter
    rw [kept?, hafter] at hbefore
    cases hbefore
  match x with
  | .disturb change => exact absurd rfl hsame
  | .move (.create q') => exact absurd rfl hsame
  | .move (.poll i) =>
    obtain ⟨-, hstep⟩ | ⟨reader, results, answer, results', w, hreader, hresults, hnext, hanswer,
      hstep⟩ := c.step_poll i
    · exact absurd (congrArg (·.workspace.snapshots) hstep) hsame
    · rw [hstep] at hafter
      have hi : i < c.readings.length := hc.length ▸ (List.getElem?_eq_some_iff.1 hreader).1
      have hreading := List.getElem?_eq_getElem hi
      have hagrees := hc.agrees i _ reader results hreading hreader hresults
      obtain ⟨hcache, heq, rfl⟩ :=
        hagrees.of_kept hnext htag (hc.clones i _ hreading) hbefore hafter
      exact ⟨hcache, hreading.trans (congrArg some heq), hanswer⟩
  | .move (.drop i) => exact absurd (hc.drop i).2 hsame
  | .move (.fetch q') =>
    have hkept : (q'.kept c.workspace).get? tag.id = some es := q'.snapshots_fetch _ ▸ hafter
    exact completes_of_kept htag (hx q' rfl) hbefore hkept
  | .move (.count q') =>
    have hkept : (q'.kept c.workspace).get? tag.id = some es := q'.snapshots_count _ ▸ hafter
    exact completes_of_kept htag (hx q' rfl) hbefore hkept
  | .move (.aggregate q' as) =>
    have hkept : (q'.kept c.workspace).get? tag.id = some es := q'.snapshots_aggregate as _ ▸ hafter
    exact completes_of_kept htag (hx q' rfl) hbefore hkept
  | .move (.one q') =>
    obtain ⟨hone, hnone, hkept⟩ | ⟨-, hstays⟩ := q'.snapshots_one c.workspace
    · have hget : (q'.one c.workspace).2.snapshots.get? tag.id = some es := hafter
      rw [hkept] at hget
      obtain ⟨hcache, rfl, hfetch⟩ := completes_of_kept htag (hx q' rfl) hbefore hget
      rw [hnone] at hfetch
      exact ⟨hcache, rfl, (Except.ok.inj hfetch).symm, hone⟩
    · exact absurd hstays hsame
  | .move (.get q' index) => exact absurd (q'.snapshots_get index _) hsame
  | .move (.add _) | .move (.setDown _ _) | .move (.failNextSearch _)
  | .move (.failNextAbandon _) =>
    exact absurd rfl hsame

/-- When results of an instance end without an error, and it is to keep its result and has kept none
yet, it keeps what they were. -/
theorem Sound.keeps (hc : c.Sound q) (htag : q.tag? = some tag)
    (hcache : tag.options.cache = .snapshot) (hbefore : c.kept? tag.id = none) {x : Happening}
    (h : c.Completes q es x) : (c.step x).kept? tag.id = some es := by
  have hkept := Query.get?_kept_iff htag hcache hbefore
  match x, h with
  | .move (.poll i), ⟨hreading, hnone⟩ =>
    obtain ⟨hanswer, -⟩ | ⟨reader, results, answer, results', w, hreader, hresults, hnext, hanswer,
      hstep⟩ := c.step_poll i
    · rw [hanswer] at hnone
      cases hnone
    · obtain rfl : answer = none := Option.some.inj (hanswer.symm.trans hnone)
      rw [hstep]
      exact (hc.agrees i _ reader results hreading hreader hresults).keeps hnext htag hcache hbefore
  | .move (.fetch _), ⟨rfl, hfetch⟩ =>
    exact (congrArg (·.get? tag.id) (q.snapshots_fetch _)).trans ((hkept es).2 hfetch)
  | .move (.count _), ⟨rfl, hfetch⟩ =>
    exact (congrArg (·.get? tag.id) (q.snapshots_count _)).trans ((hkept es).2 hfetch)
  | .move (.aggregate _ as), ⟨rfl, hfetch⟩ =>
    exact (congrArg (·.get? tag.id) (q.snapshots_aggregate as _)).trans ((hkept es).2 hfetch)
  | .move (.one _), ⟨rfl, hes, hone⟩ =>
    obtain ⟨-, hfetch, hsnapshots⟩ | ⟨hne, -⟩ := q.snapshots_one c.workspace
    · subst hes
      exact (congrArg (·.get? tag.id) hsnapshots).trans ((hkept []).2 hfetch)
    · exact absurd hone hne

end Kept

/-! ## Readers of a kept result -/

/-- A reader goes through given entries and asks nobody for them: it was answered these in order,
and from their end on that nothing is left. -/
def Replays (c : Chronicle) (i : Nat) (q : Query) (es : List Entry) : Prop :=
  ∃ n reader, c.readings[i]? = some ⟨q, (List.range n).map fun k => es[k]?.map .ok⟩ ∧
    c.scene.readers[i]? = some reader ∧
    ∀ results, reader.results = some results →
      results = ⟨.replay (es.drop n), none⟩ ∨ es.length < n ∧ results = ⟨.ended, none⟩

section Replays

variable {i : Nat} {q : Query} {es : List Entry}

/-- Asking such a reader changes nothing but the reader. -/
lemma Replays.poll (h : c.Replays i q es) :
    (c.step (.move (.poll i))).Replays i q es ∧
      (c.step (.move (.poll i))).workspace = c.workspace := by
  obtain ⟨n, reader, hreading, hreader, hreplay⟩ := h
  obtain ⟨-, hstep⟩ | ⟨reader', results, answer, results', w, hreader', hresults, hnext, -,
      hstep⟩ := c.step_poll i
  · rw [hstep]
    exact ⟨⟨n, reader, hreading, hreader, hreplay⟩, rfl⟩
  · obtain rfl : reader = reader' := Option.some.inj (hreader.symm.trans hreader')
    obtain ⟨hanswer, hw, hresults'⟩ : answer = es[n]?.map .ok ∧ w = c.workspace ∧
        (results' = ⟨.replay (es.drop (n + 1)), none⟩ ∨
          es.length < n + 1 ∧ results' = ⟨.ended, none⟩) := by
      rcases hreplay results hresults with rfl | ⟨hn, rfl⟩
      · cases hrest : es.drop n with
        | nil =>
          rw [hrest, Results.next_replay_nil] at hnext
          cases hnext
          have hn : es.length ≤ n := List.drop_eq_nil_iff.1 hrest
          exact ⟨by rw [List.getElem?_eq_none hn]; rfl, rfl, .inr ⟨by omega, rfl⟩⟩
        | cons e rest =>
          rw [hrest, Results.next_replay_cons] at hnext
          cases hnext
          have he : es[n]? = some e := by
            rw [← Nat.add_zero n, ← List.getElem?_drop, hrest]
            rfl
          have hdrop : es.drop (n + 1) = rest := by
            rw [← List.tail_drop, hrest]
            rfl
          exact ⟨by rw [he]; rfl, rfl, .inl (by rw [hdrop])⟩
      · rw [Results.next_ended] at hnext
        cases hnext
        exact ⟨by rw [List.getElem?_eq_none (Nat.le_of_lt hn)]; rfl, rfl, .inr ⟨by omega, rfl⟩⟩
    rw [hstep]
    refine ⟨⟨n + 1, _, ?_, List.getElem?_set_self (List.getElem?_eq_some_iff.1 hreader).1, ?_⟩, hw⟩
    · rw [List.getElem?_modify, hreading, List.range_succ, List.map_append, hanswer]
      simp [Reading.answered]
    · intro results₁ hresults₁
      cases hresults₁
      exact hresults'

lemma Replays.drop (h : c.Replays i q es) :
    (c.step (.move (.drop i))).Replays i q es ∧
      (c.step (.move (.drop i))).workspace = c.workspace := by
  obtain ⟨n, reader, hreading, hreader, hreplay⟩ := h
  obtain hstep | ⟨reader', results, dropped, hreader', hresults, hdropped, hstep⟩ := c.step_drop i
  · rw [hstep]
    exact ⟨⟨n, reader, hreading, hreader, hreplay⟩, rfl⟩
  · obtain rfl : reader = reader' := Option.some.inj (hreader.symm.trans hreader')
    rw [hstep]
    refine ⟨⟨n, dropped, hreading,
      List.getElem?_set_self (List.getElem?_eq_some_iff.1 hreader).1, ?_⟩, ?_⟩
    · intro results₁ hresults₁
      rw [hdropped] at hresults₁
      cases hresults₁
    · rcases hreplay results hresults with rfl | ⟨-, rfl⟩ <;> rfl

/-- What happens to others does not matter. -/
lemma Replays.other (h : c.Replays i q es) {x : Happening} (hpoll : x ≠ .move (.poll i))
    (hdrop : x ≠ .move (.drop i)) : (c.step x).Replays i q es := by
  obtain ⟨n, reader, hreading, hreader, hreplay⟩ := h
  match x with
  | .move (.create q') =>
    refine ⟨n, reader, ?_, ?_, hreplay⟩
    · exact getElem?_concat_eq_some_iff.2 (.inl hreading)
    · exact getElem?_concat_eq_some_iff.2 (.inl hreader)
  | .move (.poll j) =>
    have hij : j ≠ i := fun hij => hpoll (by rw [hij])
    obtain ⟨-, hstep⟩ | ⟨_, _, _, _, _, -, -, -, -, hstep⟩ := c.step_poll j
    · rw [hstep]
      exact ⟨n, reader, hreading, hreader, hreplay⟩
    · rw [hstep]
      refine ⟨n, reader, ?_, (List.getElem?_set_ne hij).trans hreader, hreplay⟩
      simp [hreading, hij]
  | .move (.drop j) =>
    have hij : j ≠ i := fun hij => hdrop (by rw [hij])
    obtain hstep | ⟨_, _, _, -, -, -, hstep⟩ := c.step_drop j
    · rw [hstep]
      exact ⟨n, reader, hreading, hreader, hreplay⟩
    · rw [hstep]
      exact ⟨n, reader, hreading, (List.getElem?_set_ne hij).trans hreader, hreplay⟩
  | .disturb _ | .move (.fetch _) | .move (.count _) | .move (.one _) | .move (.get _ _)
  | .move (.aggregate _ _) | .move (.add _) | .move (.setDown _ _) | .move (.failNextSearch _)
  | .move (.failNextAbandon _) => exact ⟨n, reader, hreading, hreader, hreplay⟩

lemma Replays.steps (h : c.Replays i q es) (happenings : List Happening) :
    (happenings.foldl step c).Replays i q es := by
  induction happenings generalizing c with
  | nil => exact h
  | cons x happenings ih =>
    refine ih ?_
    by_cases hpoll : x = .move (.poll i)
    · exact hpoll ▸ h.poll.1
    by_cases hdrop : x = .move (.drop i)
    · exact hdrop ▸ h.drop.1
    · exact h.other hpoll hdrop

/-- Who starts reading when a result is kept reads that one. -/
lemma Sound.replays_create {q₀ : Query} (hc : c.Sound q₀)
    (hkept : q.cached? c.workspace.snapshots = some es) :
    (c.step (.move (.create q))).Replays c.readings.length q es := by
  refine ⟨0, .ofResults (q.results c.workspace.snapshots), List.getElem?_concat_length, ?_, ?_⟩
  · rw [hc.length]
    exact List.getElem?_concat_length
  · intro results hresults
    cases hresults
    exact .inl (Query.results_of_cached hkept)

end Replays

/-! ## Whatever happens -/

variable {q : Query} {tag : QueryTag} {es : List Entry}

lemma sound_ofWorkspace (q : Query) (w : Workspace) : (ofWorkspace w).Sound q where
  length := rfl
  agrees i reading reader results hreading := by cases hreading
  clones i reading hreading := by cases hreading

lemma Sound.steps (hc : c.Sound q) {happenings : List Happening}
    (h : ∀ x ∈ happenings, x.Respects q) :
    (happenings.foldl step c).Sound q ∧
      c.workspace.snapshots.Extends (happenings.foldl step c).workspace.snapshots := by
  induction happenings generalizing c with
  | nil => exact ⟨hc, .refl _⟩
  | cons x happenings ih =>
    obtain ⟨hsound, hfirst⟩ := sound_step hc (h x List.mem_cons_self)
    obtain ⟨hend, hrest⟩ := ih hsound fun y hy => h y (List.mem_cons_of_mem x hy)
    exact ⟨hend, hfirst.trans hrest⟩

/-- An instance that is to ask again keeps nothing. -/
lemma Sound.kept?_of_refetch (hc : c.Sound q) (htag : q.tag? = some tag)
    (hcache : tag.options.cache = .refetch) (hbefore : c.kept? tag.id = none)
    {happenings : List Happening} (h : ∀ x ∈ happenings, x.Respects q) :
    (happenings.foldl step c).kept? tag.id = none := by
  induction happenings generalizing c with
  | nil => exact hbefore
  | cons x happenings ih =>
    have hx := h x List.mem_cons_self
    refine ih (sound_step hc hx).1 ?_ fun y hy => h y (List.mem_cons_of_mem x hy)
    cases hafter : (c.step x).kept? tag.id with
    | none => rfl
    | some es =>
      obtain ⟨hsnapshot, -⟩ := hc.completes htag hx hbefore hafter
      rw [hcache] at hsnapshot
      cases hsnapshot

/-- Whatever happens, and in whatever order: an instance that is to keep its result does so just
when results of it end without an error, and it keeps what these were; an instance that is to ask
again never keeps anything.  What is kept stays.  It answers every evaluation from then on and
every reader that is created from then on, and nothing is asked of the directory or the pool for
them. -/
theorem keeping_of_happenings (htag : q.tag? = some tag) {w : Workspace}
    (hfresh : w.snapshots.get? tag.id = none) {happenings : List Happening}
    (hrespects : ∀ x ∈ happenings, x.Respects q) :
    let c := happenings.foldl step (ofWorkspace w)
    (tag.options.cache = .refetch → c.kept? tag.id = none) ∧
      (tag.options.cache = .snapshot → c.kept? tag.id = none → ∀ x : Happening, x.Respects q →
        ∀ es, (c.step x).kept? tag.id = some es ↔ c.Completes q es x) ∧
      ∀ es, c.kept? tag.id = some es →
        (∀ further : List Happening, (∀ x ∈ further, x.Respects q) →
          (further.foldl step c).kept? tag.id = some es) ∧
        (q.fetch c.workspace = (.ok es, c.workspace) ∧
          q.count c.workspace = (.ok es.length, c.workspace) ∧
          q.one c.workspace = (.ok es.head?, c.workspace) ∧
          (∀ index, q.get index c.workspace = (.ok es[index]?, c.workspace)) ∧
          ∀ as, q.aggregate as c.workspace =
            (es.foldl Aggregations.accumulate as.reset, none, c.workspace)) ∧
        ∀ further : List Happening,
          let later := further.foldl step (c.step (.move (.create q)))
          let i := c.readings.length
          (∃ n, later.readings[i]? = some ⟨q, (List.range n).map fun k => es[k]?.map .ok⟩) ∧
            (later.step (.move (.poll i))).workspace = later.workspace ∧
            (later.step (.move (.drop i))).workspace = later.workspace := by
  intro c
  have hstart := sound_ofWorkspace q w
  have hc : c.Sound q := (hstart.steps hrespects).1
  refine ⟨fun hcache => hstart.kept?_of_refetch htag hcache hfresh hrespects,
    fun hcache hnone x hx es => ⟨fun hafter => (hc.completes htag hx hnone hafter).2,
      hc.keeps htag hcache hnone⟩, fun es hkept => ?_⟩
  have hcached : q.cached? c.workspace.snapshots = some es := Query.cached?_of_get? htag hkept
  refine ⟨fun further hfurther => (hc.steps hfurther).2 tag.id es hkept,
    Query.evaluations_of_cached hcached, fun further => ?_⟩
  have hreplays := (hc.replays_create hcached).steps further
  obtain ⟨n, -, hreading, -⟩ := id hreplays
  exact ⟨⟨n, hreading⟩, hreplays.poll.2, hreplays.drop.2⟩

/-- A reader that was asked to the end lets its instance keep two entries, and the instance counts
them without the directory. -/
theorem keeping_of_one_reader :
    let q : Query := .search ⟨0, .default⟩ ⟨"", .subtree, none⟩
    let c := [.move (.create q), .move (.poll 0), .move (.poll 0), .move (.poll 0)].foldl step
      (ofWorkspace ⟨⟨Directory.empty.addAll [.named "cn=a", .named "cn=b"],
        .ofConfig (.ofPrimary "localhost")⟩, .empty⟩)
    ∃ es, c.kept? 0 = some es ∧ es.map Entry.dn = ["cn=a", "cn=b"] ∧
      q.count c.workspace = (.ok es.length, c.workspace) := by
  intro q c
  have hnames : (c.kept? 0).map (·.map Entry.dn) = some ["cn=a", "cn=b"] := by decide +kernel
  obtain ⟨es, hkept, hdn⟩ := Option.map_eq_some_iff.1 hnames
  have hrespects : ∀ x ∈ [Happening.move (.create q), .move (.poll 0), .move (.poll 0),
      .move (.poll 0)], x.Respects q := by
    simp [Happening.Respects, Move.query?]
  have htag : q.tag? = some ⟨0, .default⟩ := rfl
  obtain ⟨-, -, hstays⟩ := keeping_of_happenings htag
    (w := ⟨⟨Directory.empty.addAll [.named "cn=a", .named "cn=b"],
      .ofConfig (.ofPrimary "localhost")⟩, .empty⟩) rfl hrespects
  obtain ⟨-, ⟨-, hcount, -⟩, -⟩ := hstays es hkept
  exact ⟨es, hkept, hdn, hcount⟩

end DirectoryQuery.Chronicle
