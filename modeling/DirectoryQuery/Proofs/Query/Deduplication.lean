import DirectoryQuery.Proofs.Entry.Edits
import DirectoryQuery.Proofs.Query.Distinct
import DirectoryQuery.Proofs.Query.Renumbering
import DirectoryQuery.Proofs.Query.Windows

/-!
# Filters on results without duplicates

A distinct result has the first entry of each key (`Entry.unseen_eq_firsts`).  A filter that is put
on it is put on the query below, and of what matches there the first entry of each key is taken.
This is the same as to take the first entry of each key and to see whether it matches, if all
entries of a key match or none does (`Entry.unseen_filter`).

They do unless the filter asks for the name of an entry, because a filter looks at sets of values
only, and so do keys.  But keys bring more names together than lookups do, so this takes names that
fold alike (`Entry.accepts_eq_of_distinctKey`), and ASCII names do.  The entries of a query have
ASCII names if those of the directory have, and the query computes no other names and has kept none
(`Query.isPlain_outcome`).

`Chronicle.distinct_exact` puts this together for queries that are fetched, at any time and after
others: the filtered query, the distinct one and the filtered distinct one share instances with the
query that they are made from, and no numbers with one another.
-/

namespace DirectoryQuery

open DirectoryQuery.Filter

/-! ## The first entry of each key -/

namespace Entry

variable {es : List Entry} {seen : List DistinctKey} {e : Entry}

/-- The entries whose key no earlier one has. -/
def firsts (es : List Entry) : List Entry :=
  (es.zipIdx.filter fun p => (es.take p.2).all fun c => c.distinctKey != p.1.distinctKey).map
    Prod.fst

lemma firsts_concat (es : List Entry) (e : Entry) :
    firsts (es ++ [e]) = firsts es ++
      if ∃ c ∈ es, c.distinctKey = e.distinctKey then [] else [e] := by
  have hbefore : es.zipIdx.filter (fun p =>
      ((es ++ [e]).take p.2).all fun c => c.distinctKey != p.1.distinctKey) =
      es.zipIdx.filter fun p => (es.take p.2).all fun c => c.distinctKey != p.1.distinctKey := by
    refine List.filter_congr fun p hp => ?_
    have hlt : p.2 < es.length := by
      have := List.snd_lt_add_of_mem_zipIdx hp
      omega
    rw [List.take_append_of_le_length hlt.le]
  rw [firsts, List.zipIdx_append, List.filter_append, List.map_append, hbefore, ← firsts]
  refine congrArg _ ?_
  rw [Nat.zero_add, List.zipIdx_singleton, List.filter_singleton, List.take_left]
  by_cases hearlier : ∃ c ∈ es, c.distinctKey = e.distinctKey
  · have hall : (es.all fun c => c.distinctKey != e.distinctKey) = false := by
      simpa using hearlier
    rw [if_pos hearlier, hall]
    rfl
  · have hall : (es.all fun c => c.distinctKey != e.distinctKey) = true := by
      simpa using hearlier
    rw [if_neg hearlier, hall]
    rfl

/-- What a distinct result has not seen before are the first entries of their keys. -/
theorem unseen_eq_firsts (es : List Entry) : unseen [] es = firsts es := by
  induction es using List.reverseRecOn with
  | nil => rfl
  | append_singleton es e ih =>
    rw [unseen_concat, firsts_concat, ih]
    refine congrArg _ (if_congr ?_ rfl rfl)
    rw [or_iff_right List.not_mem_nil]

/-- No key comes twice. -/
lemma nodup_unseen (seen : List DistinctKey) (es : List Entry) :
    (∀ c ∈ unseen seen es, c.distinctKey ∉ seen) ∧
      ((unseen seen es).map distinctKey).Nodup := by
  induction es generalizing seen with
  | nil => exact ⟨nofun, List.nodup_nil⟩
  | cons e es ih =>
    rw [unseen]
    by_cases hseen : seen.contains e.distinctKey = true
    · rw [if_pos hseen]
      exact ih seen
    · obtain ⟨hnew, hnodup⟩ := ih (e.distinctKey :: seen)
      rw [if_neg hseen]
      refine ⟨List.forall_mem_cons.2 ⟨fun h => hseen (List.contains_iff_mem.2 h), fun c hc h => ?_⟩,
        List.nodup_cons.2 ⟨fun h => ?_, hnodup⟩⟩
      · exact hnew c hc (List.mem_cons_of_mem _ h)
      · obtain ⟨c, hc, hkey⟩ := List.mem_map.1 h
        exact hnew c hc (hkey ▸ List.mem_cons_self)

/-- No key is lost. -/
lemma exists_unseen (seen : List DistinctKey) (he : e ∈ es) :
    e.distinctKey ∈ seen ∨ ∃ c ∈ unseen seen es, c.distinctKey = e.distinctKey := by
  induction es generalizing seen with
  | nil => cases he
  | cons e' es ih =>
    rw [unseen]
    by_cases hseen : seen.contains e'.distinctKey = true
    · rw [if_pos hseen]
      obtain rfl | he := List.mem_cons.1 he
      · exact .inl (List.contains_iff_mem.1 hseen)
      · exact ih seen he
    · rw [if_neg hseen]
      obtain rfl | he := List.mem_cons.1 he
      · exact .inr ⟨e, List.mem_cons_self, rfl⟩
      · obtain hmem | ⟨c, hc, hkey⟩ := ih (e'.distinctKey :: seen) he
        · obtain hsame | hmem := List.mem_cons.1 hmem
          · exact .inr ⟨e', List.mem_cons_self, hsame.symm⟩
          · exact .inl hmem
        · exact .inr ⟨c, List.mem_cons_of_mem _ hc, hkey⟩

lemma unseen_sublist (seen : List DistinctKey) (es : List Entry) : (unseen seen es).Sublist es := by
  induction es generalizing seen with
  | nil => exact .slnil
  | cons e es ih =>
    rw [unseen]
    split
    · exact (ih seen).cons e
    · exact (ih _).cons_cons e

/-! ## Filters below -/

/-- Whether the first entry of a key matches can be seen before or after the others are dropped, if
the key decides it.  On both sides the same keys of matching entries were seen before. -/
lemma unseen_filter_of_seen {p : Entry → Bool} {seen' : List DistinctKey}
    (hp : ∀ a ∈ es, ∀ b ∈ es, a.distinctKey = b.distinctKey → p a = p b)
    (hseen : ∀ e ∈ es, p e = true → (e.distinctKey ∈ seen' ↔ e.distinctKey ∈ seen)) :
    unseen seen' (es.filter p) = (unseen seen es).filter p := by
  induction es generalizing seen seen' with
  | nil => rfl
  | cons e es ih =>
    obtain ⟨hse, hses⟩ := List.forall_mem_cons.1 hseen
    have hpes : ∀ a ∈ es, ∀ b ∈ es, a.distinctKey = b.distinctKey → p a = p b :=
      fun a ha b hb => hp a (List.mem_cons_of_mem _ ha) b (List.mem_cons_of_mem _ hb)
    rw [unseen, List.filter_cons]
    cases hpe : p e with
    | true =>
      have hsame : seen'.contains e.distinctKey = seen.contains e.distinctKey := by
        rw [Bool.eq_iff_iff, List.contains_iff_mem, List.contains_iff_mem]
        exact hse hpe
      rw [if_pos rfl, unseen, hsame]
      by_cases hold : seen.contains e.distinctKey = true
      · rw [if_pos hold, if_pos hold]
        exact ih hpes hses
      · rw [if_neg hold, if_neg hold, List.filter_cons_of_pos hpe]
        refine congrArg _ (ih hpes fun c hc hpc => ?_)
        rw [List.mem_cons, List.mem_cons, hses c hc hpc]
    | false =>
      rw [if_neg Bool.false_ne_true]
      by_cases hold : seen.contains e.distinctKey = true
      · rw [if_pos hold]
        exact ih hpes hses
      · rw [if_neg hold, List.filter_cons_of_neg (ne_true_of_eq_false hpe)]
        refine ih hpes fun c hc hpc => ?_
        -- no matching entry has the key of one that does not match
        have hne : c.distinctKey ≠ e.distinctKey := fun h => by
          rw [hp c (List.mem_cons_of_mem _ hc) e List.mem_cons_self h, hpe] at hpc
          cases hpc
        rw [List.mem_cons, hses c hc hpc, or_iff_right hne]

theorem unseen_filter {p : Entry → Bool}
    (hp : ∀ a ∈ es, ∀ b ∈ es, a.distinctKey = b.distinctKey → p a = p b) :
    unseen [] (es.filter p) = (unseen [] es).filter p :=
  unseen_filter_of_seen hp fun _ _ _ => Iff.rfl

/-- A filter that does not ask for names of entries has one verdict on entries of one key, if their
names fold alike. -/
theorem accepts_eq_of_distinctKey {a b : Entry} (ha : a.NamesAgree) (hb : b.NamesAgree)
    (hfolds : FoldsAlike a b) (hkeys : a.distinctKey = b.distinctKey) {f : Filter}
    (hf : f.Compiles) (hnames : ∀ c ∈ f.conditions, isIdentity c.field = false) :
    f.accepts a = f.accepts b := by
  refine accepts_congr hf fun c hc v => ?_
  have hid := hnames c hc
  exact ⟨hfolds.mem_get hb hkeys hid, hfolds.symm.mem_get ha hkeys.symm hid⟩

/-! ## ASCII names -/

/-- The names of the entry are ASCII, and no two of them differ in case only. -/
structure IsPlain (e : Entry) : Prop where
  namesDiffer : e.NamesDiffer
  isAscii : ∀ key ∈ e.attributes.keys, Text.IsAscii key

lemma Built.isPlain (h : e.Built) (hnames : ∀ key ∈ e.attributes.keys, Text.IsAscii key) :
    e.IsPlain :=
  ⟨h.namesDiffer, hnames⟩

lemma IsPlain.insert {name : String} (h : e.IsPlain) (hname : Text.IsAscii name)
    (values : List Value) : (e.insert name values).IsPlain where
  namesDiffer := h.namesDiffer.edit (.insert name values)
  isAscii key hkey := by
    cases hid : isIdentity name with
    | true =>
      rw [insert_of_identity hid] at hkey
      exact h.isAscii key hkey
    | false =>
      rw [attributes_insert hid, SortedMap.mem_keys_insert] at hkey
      obtain rfl | hkey := hkey
      · obtain hfound | ⟨-, hspelling, -⟩ := e.spelling_cases name
        · exact h.isAscii _ (mem_keys_of_get? hfound)
        · rwa [hspelling]
      · exact h.isAscii key hkey

lemma IsPlain.retain (h : e.IsPlain) (names : List String) : (e.retain names).IsPlain where
  namesDiffer := h.namesDiffer.edit (.retain names)
  isAscii key hkey := h.isAscii key (mem_keys_retain.1 hkey).1

lemma IsPlain.annotate {annotations : List (String × Annotation)} (h : e.IsPlain)
    (hnames : ∀ a ∈ annotations, Text.IsAscii a.1) : (e.annotate annotations).IsPlain := by
  unfold Entry.annotate
  induction annotations generalizing e with
  | nil => exact h
  | cons a annotations ih =>
    obtain ⟨ha, hrest⟩ := List.forall_mem_cons.1 hnames
    exact ih (h.insert ha _) hrest

lemma IsPlain.foldsAlike {a b : Entry} (ha : a.IsPlain) (hb : b.IsPlain) : FoldsAlike a b :=
  fun key hkey other hother hfolded =>
    (Text.sameName_iff_lowercase_eq (ha.isAscii key hkey) (hb.isAscii other hother)).2 hfolded

end Entry

lemma Window.cut_sublist (w : Window) (position : Nat) (es : List Entry) :
    (w.cut position es).Sublist es := by
  induction es generalizing position with
  | nil => exact .slnil
  | cons e es ih =>
    rw [cut]
    split_ifs
    · exact List.nil_sublist _
    · exact (ih _).cons_cons e
    · exact (ih _).cons e

/-- A stage that computes nothing but ASCII names leaves the names ASCII. -/
lemma Stage.isPlain_outcome {stage : Stage} {o : Outcome} (h : ∀ e ∈ o.entries, e.IsPlain)
    (hnames : ∀ annotations, stage = .annotated annotations →
      ∀ a ∈ annotations, Text.IsAscii a.1) : ∀ e ∈ (stage.outcome o).entries, e.IsPlain := by
  obtain ⟨entries, error⟩ := o
  intro e he
  cases stage with
  | filtered matcher => exact h e (List.mem_of_mem_filter he)
  | annotated annotations =>
    obtain ⟨e', he', rfl⟩ := List.mem_map.1 he
    exact (h e' he').annotate (hnames annotations rfl)
  | ordered keys =>
    cases error with
    | none => exact h e ((SortKey.stablySorts_sort keys entries).perm.mem_iff.1 he)
    | some error => cases he
  | sliced window => exact h e ((window.cut_sublist 0 entries).subset he)
  | selected names =>
    obtain ⟨e', he', rfl⟩ := List.mem_map.1 he
    exact (h e' he').retain names
  | distinct => exact h e ((Entry.unseen_sublist [] entries).subset he)

/-- A search finds nothing but entries of the directory. -/
lemma Source.entries_outcome_subset (d : Directory) (source : Source) :
    (source.outcome d).entries ⊆ d.entries := by
  unfold outcome
  split
  · exact List.nil_subset _
  split
  · exact List.nil_subset _
  show d.answer source _ ⊆ d.entries
  rw [Directory.answer]
  split
  · exact List.filter_sublist.subset
  · exact List.nil_subset _

namespace Outcome

/-- Entries that count as equal are dropped from a result before a filter or after it, if the filter
has one verdict on them. -/
lemma result_unseen {o o' : Outcome} {p : Entry → Bool}
    (hp : ∀ a ∈ o.entries, ∀ b ∈ o.entries, a.distinctKey = b.distinctKey → p a = p b)
    (h : o'.result = o.result.map fun es => es.filter p) :
    (Stage.distinct.outcome o').result =
      (Stage.distinct.outcome o).result.map fun es => es.filter p := by
  obtain ⟨entries, error⟩ := o
  cases error with
  | none =>
    obtain rfl := result_eq_ok_iff.1 h
    exact congrArg Except.ok (Entry.unseen_filter hp)
  | some e =>
    obtain ⟨entries', error'⟩ := o'
    cases error' with
    | none => cases h
    | some e' =>
      obtain rfl := Except.error.inj h
      rfl

end Outcome

namespace Query

variable {snapshots : Snapshots} {d : Directory} {q filtered : Query} {f : Filter} {n n₁ : Nat}

/-- The names in what the instances of the query have kept are ASCII, and so are the names that it
computes. -/
structure IsPlain (snapshots : Snapshots) (q : Query) : Prop where
  kept : ∀ level ∈ q.levels, ∀ es, level.cached? snapshots = some es → ∀ e ∈ es, e.IsPlain
  computed : ∀ tag annotations below, staged tag (.annotated annotations) below ∈ q.levels →
    ∀ a ∈ annotations, Text.IsAscii a.1

/-- The names in what a query comes to are ASCII if they are in the directory. -/
lemma isPlain_outcome (hd : ∀ e ∈ d.entries, e.IsPlain) (hq : q.IsPlain snapshots) :
    ∀ e ∈ (q.outcome snapshots d).entries, e.IsPlain := by
  induction q with
  | empty => nofun
  | search tag source =>
    intro e he
    rw [outcome] at he
    cases hget : snapshots.get? tag.id with
    | some es =>
      rw [hget] at he
      exact hq.kept _ List.mem_cons_self es hget e he
    | none =>
      rw [hget] at he
      exact hd e (source.entries_outcome_subset d he)
  | staged tag stage below ih =>
    intro e he
    rw [outcome] at he
    cases hget : snapshots.get? tag.id with
    | some es =>
      rw [hget] at he
      exact hq.kept _ List.mem_cons_self es hget e he
    | none =>
      rw [hget] at he
      have hbelow : below.IsPlain snapshots :=
        ⟨fun level hlevel => hq.kept level (List.mem_cons_of_mem _ hlevel),
          fun tag' annotations below' hlevel =>
            hq.computed tag' annotations below' (List.mem_cons_of_mem _ hlevel)⟩
      refine Stage.isPlain_outcome (ih hbelow) ?_ e he
      rintro annotations rfl
      exact hq.computed tag annotations below List.mem_cons_self

/-! ## Distinct queries -/

lemma distinct_cases (q : Query) (next : Nat) :
    q.distinct next = (q, next) ∨ q.distinct next = q.derive .distinct next := by
  unfold distinct
  split
  · exact .inl rfl
  · exact .inr rfl

lemma Heritable.distinct {P : Query → Nat → Prop} {next : Nat} (hP : Heritable P)
    (hq : P q next) : P (q.distinct next).1 (q.distinct next).2 := by
  obtain hkeeps | hderives := distinct_cases q next
  · rw [hkeeps]
    exact hq
  · rw [hderives]
    exact hP.derive .distinct q next hq

/-- A filter on a distinct query passes below. -/
lemma refine_derive_distinct (f : Filter) (q : Query) (m next : Nat) :
    refine f (q.derive .distinct m).1 next =
      (refine f q next).map fun made => made.1.derive .distinct made.2 := by
  have hput : ∀ tag, refine f (staged tag .distinct q) next =
      (refine f q next).map fun made => made.1.derive .distinct made.2 := by
    intro tag
    rw [refine_staged rfl]
    show (refine f q next).bind _ = _
    cases refine f q next <;> rfl
  cases q with
  | empty => rfl
  | search tag source => exact hput _
  | staged tag stage below => exact hput _

/-- Putting a filter on a distinct query succeeds if it does on the query, and comes to the same as
dropping entries from the filtered query, or to the same as this if there are none to drop. -/
lemma exists_distinct_filter (hfresh : snapshots.FreshFrom n) (hfresh₁ : snapshots.FreshFrom n₁)
    (hfiltered : q.filter f n = .ok (filtered, n₁)) :
    ∃ both next, (q.distinct n₁).1.filter f (q.distinct n₁).2 = .ok (both, next) ∧
      ((q.distinct n₁).1 = q ∧ both.outcome snapshots d = filtered.outcome snapshots d ∨
        (q.distinct n₁).1.outcome snapshots d =
            Stage.distinct.outcome (q.outcome snapshots d) ∧
          both.outcome snapshots d = Stage.distinct.outcome (filtered.outcome snapshots d)) := by
  have hrefine : refine f q n = .ok (filtered, n₁) := hfiltered
  obtain hkeeps | hderives := distinct_cases q n₁
  · have halike := alike_refine (d := d) hfresh hfresh₁ f q
    rw [hkeeps]
    rw [hrefine] at halike
    rcases hboth : refine f q n₁ with e | ⟨both, next⟩
    · rw [hboth] at halike
      cases halike
    · rw [hboth] at halike
      cases halike with
      | ok h => exact ⟨both, next, hboth, .inl ⟨rfl, h.symm⟩⟩
  · have hfresh₂ : snapshots.FreshFrom (q.distinct n₁).2 := by
      rw [hderives]
      exact freshFrom_derive hfresh₁ .distinct q
    have halike := alike_refine (d := d) hfresh hfresh₂ f q
    rw [hrefine] at halike
    rcases hbelow : refine f q (q.distinct n₁).2 with e | ⟨below, next⟩
    · rw [hbelow] at halike
      cases halike
    · rw [hbelow] at halike
      cases halike with
      | ok h hnext hnext' =>
        refine ⟨(below.derive .distinct next).1, (below.derive .distinct next).2, ?_, .inr ⟨?_, ?_⟩⟩
        · rw [filter, hderives, refine_derive_distinct, ← hderives, hbelow]
          rfl
        · rw [hderives, outcome_derive (hfresh₁ n₁ (Nat.le_refl n₁))]
        · rw [outcome_derive (hnext' next (Nat.le_refl next)), h]

end Query

/-! ## Results -/

/-- The entries that events deliver before the end. -/
def StreamEvent.entries (events : List StreamEvent) : List Entry :=
  (delivered events).filterMap Except.toOption

/-- Whatever comes from below, the stream lets through the entries whose key was not seen before. -/
lemma Stream.entries_events_distinct (seen : List Entry.DistinctKey) (inner : Stream)
    (rounds : List (Snapshots × Service)) :
    StreamEvent.entries ((distinct seen inner).events rounds) =
      Entry.unseen seen (StreamEvent.entries (inner.events rounds)) := by
  induction rounds generalizing seen inner with
  | nil => rfl
  | cons round rest ih =>
    obtain ⟨snapshots, svc⟩ := round
    rcases hstep : inner.step snapshots svc with ⟨event, inner', svc'⟩
    cases event with
    | item e =>
      have hinner : StreamEvent.entries (inner.events ((snapshots, svc) :: rest)) =
          e :: StreamEvent.entries (inner'.events rest) := by
        rw [events, hstep]
        rfl
      rw [hinner, Entry.unseen, events, step, hstep]
      by_cases hseen : seen.contains e.distinctKey = true
      · simp only [hseen, if_true]
        exact ih seen inner'
      · simp only [hseen, Bool.false_eq_true, if_false]
        exact congrArg (e :: ·) (ih _ inner')
    | fault e =>
      rw [events, events, step, hstep]
      exact ih seen inner'
    | pause =>
      rw [events, events, step, hstep]
      exact ih seen inner'
    | finish =>
      rw [events, events, step, hstep]
      rfl

namespace Chronicle

open Query

variable {levels : List Query} {w : Workspace} {moves : List Move} {p : Query}

/-- Nothing happens but that queries are read, those with these instances and others, and so rarely
that cookies can number the searches. -/
structure OnlyReads (levels : List Query) (w : Workspace) (moves : List Move) : Prop where
  reads : ∀ m ∈ moves, m.IsReading
  others : ∀ m ∈ moves, (∃ p ∈ levels, m.query? = some p) ∨
    ∀ level ∈ levels, (Happening.move m).Respects level
  room : w.service.directory.searchesRun + moves.length + 1 < Text.maxSize

/-- Whatever was read before and was kept of it, fetching the query gives this. -/
def Fetches (levels : List Query) (w : Workspace) (p : Query)
    (result : Except QueryError (List Entry)) : Prop :=
  ∀ moves, OnlyReads levels w moves →
    (p.fetch ((moves.map Happening.move).foldl step (ofWorkspace w)).workspace).1 = result

lemma fetches_outcome {next : Nat} (hready : w.service.Ready) (hlevels : Distinguished levels next)
    (hp : p.levels ⊆ levels) :
    Fetches levels w p (p.outcome w.snapshots w.service.directory).result := by
  intro moves hmoves
  refine fetch_of_moves hready hmoves.reads (fun m hm level hlevel => ?_) hmoves.room
  obtain ⟨top, htop, hquery⟩ | hrespects := hmoves.others m hm
  · intro used hused hid
    obtain rfl := Option.some.inj (hquery.symm.trans hused)
    exact hlevels.eq_of_id _ htop _ (hp hlevel) hid
  · exact hrespects level (hp hlevel)

/-- A distinct result has the first entry of each key, whatever comes from below: its keys differ,
and it has all the keys there are.  Filters pass through, but for those that ask for the names of
entries: if all attributes in what a query comes to have ASCII names and a filter on the query
leaves what it accepts, a filter on the distinct query does so as well. -/
theorem distinct_exact :
    (∀ (inner : Stream) (rounds : List (Snapshots × Service)),
      let given := StreamEvent.entries (inner.events rounds)
      let left := StreamEvent.entries ((Stream.distinct [] inner).events rounds)
      left = Entry.firsts given ∧ (left.map Entry.distinctKey).Nodup ∧
        ∀ e ∈ given, ∃ c ∈ left, c.distinctKey = e.distinctKey) ∧
    ∀ {q filtered : Query} {f : Filter} {n n₁ : Nat} {w : Workspace}, q.Numbers n →
      w.service.Ready → w.snapshots.FreshFrom n →
      (∀ e ∈ (q.outcome w.snapshots w.service.directory).entries, e.IsPlain) →
      f.Compiles → (∀ c ∈ f.conditions, isIdentity c.field = false) →
      q.filter f n = .ok (filtered, n₁) →
      let dropped := (q.distinct n₁).1
      ∃ both n₂, dropped.filter f (q.distinct n₁).2 = .ok (both, n₂) ∧
        let levels := q.levels ++ filtered.levels ++ dropped.levels ++ both.levels
        ∃ a a' b b', Fetches levels w q a ∧ Fetches levels w filtered a' ∧
          Fetches levels w dropped b ∧ Fetches levels w both b' ∧
          (a' = a.map (·.filter f.accepts) → b' = b.map (·.filter f.accepts)) := by
  refine ⟨fun inner rounds => ?_, ?_⟩
  · intro given left
    have hleft : left = Entry.unseen [] given := Stream.entries_events_distinct [] inner rounds
    rw [hleft]
    refine ⟨Entry.unseen_eq_firsts given, (Entry.nodup_unseen [] given).2, fun e he => ?_⟩
    exact (Entry.exists_unseen [] he).resolve_left List.not_mem_nil
  · intro q filtered f n n₁ w hq hready hfresh hplain hf hnames hfiltered dropped
    obtain ⟨hnumbers, hfilteredNumbers⟩ := hq.distinguished.append_of_heritable hq
      (List.Subset.refl _) fun P hP h => hP.refine h _ _ hfiltered
    have hn : n ≤ n₁ := ((heritable_madeFrom q.levels n).refine
      ⟨Nat.le_refl n, fun level hlevel => .inl hlevel⟩ _ _ hfiltered).1
    obtain ⟨hnumbers, hdroppedNumbers⟩ := hnumbers.append_of_heritable (hq.mono hn)
      (List.subset_append_left _ _) fun P hP h => hP.distinct h
    obtain ⟨both, n₂, hboth, houtcomes⟩ := exists_distinct_filter
      (d := w.service.directory) hfresh (hfresh.mono hn) hfiltered
    obtain ⟨hnumbers, -⟩ := hnumbers.append_of_heritable hdroppedNumbers
      (List.subset_append_right _ _) fun P hP h => hP.refine h _ _ hboth
    refine ⟨both, n₂, hboth, _, _, _, _, fetches_outcome hready hnumbers ?_,
      fetches_outcome hready hnumbers ?_, fetches_outcome hready hnumbers ?_,
      fetches_outcome hready hnumbers ?_, fun hpasses => ?_⟩
    · exact fun level hlevel => by simp [hlevel]
    · exact fun level hlevel => by simp [hlevel]
    · exact fun level hlevel => by simp [dropped, hlevel]
    · exact fun level hlevel => by simp [hlevel]
    · obtain ⟨hkeeps, hsame⟩ | ⟨hdropped, hsame⟩ := houtcomes
      · rw [hsame, hpasses, ← hkeeps]
      · rw [hsame, hdropped]
        refine Outcome.result_unseen (fun e he e' he' hkeys => ?_) hpasses
        have hplain' := hplain e' he'
        exact Entry.accepts_eq_of_distinctKey (hplain e he).namesDiffer.namesAgree
          hplain'.namesDiffer.namesAgree ((hplain e he).foldsAlike hplain') hkeys hf hnames

/-- Of two entries with one address and one with another, the first of the two is left, and a filter
that asks for their address leaves it as well. -/
theorem distinct_exact_mail :
    let ann := (Entry.named "cn=Ann,dc=org").insert "mail" [.text "x"]
    let bob := (Entry.named "cn=Bob,dc=org").insert "Mail" [.text "x"]
    let cyd := (Entry.named "cn=Cyd,dc=org").insert "mail" [.text "y"]
    let w : Workspace :=
      ⟨⟨Directory.empty.addAll [ann, bob, cyd], .ofConfig (.ofPrimary "localhost")⟩, .empty⟩
    let all := (ofBase "dc=org" .subtree 0).1
    let f : Filter := .leaf ⟨"mail", none, .one (.text "x")⟩
    ∃ both n₂, (all.distinct 2).1.filter f (all.distinct 2).2 = .ok (both, n₂) ∧
      ((all.distinct 2).1.fetch w).1 = .ok [ann, cyd] ∧ (both.fetch w).1 = .ok [ann] := by
  intro ann bob cyd w all f
  have hready : w.service.Ready :=
    ⟨rfl, nofun, ⟨"localhost", by decide +kernel, rfl⟩, rfl, by decide +kernel, by decide +kernel⟩
  have hdirectory : ∀ e ∈ w.service.directory.entries, e.IsPlain := by
    have hplain : ∀ dn name values, Text.IsAscii name →
        ((Entry.named dn).insert name values).IsPlain := by
      intro dn name values hname
      have hown : ∀ key ∈ (Entry.named dn).attributes.keys, Text.IsAscii key :=
        List.forall_mem_singleton.2 (by decide : Text.IsAscii identityAttribute)
      exact ((Entry.Built.named dn).isPlain hown).insert hname values
    have hentries : w.service.directory.entries = [ann, bob, cyd] := by decide +kernel
    rw [hentries]
    simp only [List.forall_mem_cons]
    exact ⟨hplain _ _ _ (by decide), hplain _ _ _ (by decide), hplain _ _ _ (by decide), nofun⟩
  have hq : all.IsPlain w.snapshots := by
    refine ⟨fun level hlevel es hkept => ?_, fun tag annotations below hlevel => ?_⟩
    · rw [List.mem_singleton.1 hlevel] at hkept
      cases hkept
    · cases List.mem_singleton.1 hlevel
  obtain ⟨filtered, hfiltered, hgiven⟩ : ∃ filtered, all.filter f 1 = .ok (filtered, 2) ∧
      (filtered.fetch w).1 = (all.fetch w).1.map (·.filter f.accepts) :=
    ⟨_, rfl, by decide +kernel⟩
  have hdropped : ((all.distinct 2).1.fetch w).1 = .ok [ann, cyd] := by decide +kernel
  obtain ⟨both, n₂, hboth, a, a', b, b', ha, ha', hb, hb', hpasses⟩ :=
    distinct_exact.2 (q := all) (w := w) ⟨Nat.zero_lt_one, trivial⟩ hready (fun _ _ => rfl)
      (isPlain_outcome hdirectory hq) ⟨_, rfl⟩ (by decide) hfiltered
  have hread : ∀ levels, OnlyReads levels w [] := fun _ => ⟨nofun, nofun, by decide +kernel⟩
  have hmap : a' = a.map (·.filter f.accepts) := by
    rw [← ha [] (hread _), ← ha' [] (hread _)]
    exact hgiven
  refine ⟨both, n₂, hboth, hdropped, (hb' [] (hread _)).trans ?_⟩
  rw [hpasses hmap, ← hb [] (hread _)]
  show ((all.distinct 2).1.fetch w).1.map (·.filter f.accepts) = .ok [ann]
  rw [hdropped]
  decide +kernel

end Chronicle

end DirectoryQuery
