import DirectoryQuery.Proofs.Query.Agreement
import DirectoryQuery.Proofs.Query.Sorting

/-!
# Ordering queries

To order a query is to sort what it gives, and the sort is stable: `SortKey.StablySorts` says so
without naming an algorithm, and there is one list at most that fits it
(`SortKey.StablySorts.eq_sort`).  Sorting by old keys and then by new ones is sorting by the new
keys with the old ones behind them (`SortKey.sort_append`), so an ordered query can be ordered again
with a single sort.

`Chronicle.fetch_orderBy` says what becomes of this when queries are evaluated: an ordered query
gives the stable sort of what the query gives that was ordered, whatever was read before and
whatever was kept of it.
-/

namespace DirectoryQuery

open Std

namespace SortKey

variable {keys previous : List SortKey} {es rs : List Entry} {a b e : Entry}

/-! ## Stable sorts -/

/-- No key tells the entries apart. -/
def tie (keys : List SortKey) (a b : Entry) : Bool :=
  compareBy keys a b == .eq

/-- The second list is the first one sorted, and entries that no key tells apart are in the order
in which they were. -/
structure StablySorts (keys : List SortKey) (es rs : List Entry) : Prop where
  perm : rs.Perm es
  sorted : rs.Pairwise fun a b => (compareBy keys a b).isLE = true
  stable : ∀ e, rs.filter (tie keys e) = es.filter (tie keys e)

lemma tie_iff : tie keys a b = true ↔ compareBy keys a b = .eq :=
  beq_iff_eq

lemma tie_self (keys : List SortKey) (e : Entry) : tie keys e e = true :=
  tie_iff.2 ReflCmp.compare_self

/-- Entries that tie with a third one are in no order. -/
lemma isLE_of_tie (ha : tie keys e a = true) (hb : tie keys e b = true) :
    (compareBy keys a b).isLE = true := by
  have hae : compareBy keys a e = .eq := OrientedCmp.eq_symm (tie_iff.1 ha)
  rw [TransCmp.eq_trans hae (tie_iff.1 hb)]
  rfl

lemma stablySorts_sort (keys : List SortKey) (es : List Entry) :
    StablySorts keys es (sort keys es) where
  perm := List.mergeSort_perm es _
  sorted := pairwise_sort keys es
  stable e := by
    rw [← sort_filter]
    refine List.mergeSort_of_pairwise (List.pairwise_filter.2 ?_)
    exact List.pairwise_of_forall fun a b => isLE_of_tie

/-- Sorted lists that tie in the same way begin with the same entry: the first entries are before
each other, and of those that tie with them each is the first. -/
lemma head_eq_of_ties {rs' : List Entry} (hperm : (a :: rs).Perm (b :: rs'))
    (hsorted : (a :: rs).Pairwise fun a b => (compareBy keys a b).isLE = true)
    (hsorted' : (b :: rs').Pairwise fun a b => (compareBy keys a b).isLE = true)
    (hties : (a :: rs).filter (tie keys a) = (b :: rs').filter (tie keys a)) : a = b := by
  have hself (e : Entry) : (compareBy keys e e).isLE = true := isLE_of_tie (tie_self keys e)
    (tie_self keys e)
  have hab : (compareBy keys a b).isLE = true := by
    rcases List.mem_cons.1 (hperm.mem_iff.2 List.mem_cons_self) with heq | hmem
    · exact heq ▸ hself b
    · exact (List.pairwise_cons.1 hsorted).1 b hmem
  have hba : (compareBy keys b a).isLE = true := by
    rcases List.mem_cons.1 (hperm.mem_iff.1 List.mem_cons_self) with heq | hmem
    · exact heq ▸ hself a
    · exact (List.pairwise_cons.1 hsorted').1 a hmem
  have htie : tie keys a b = true := tie_iff.2 (OrientedCmp.isLE_antisymm hab hba)
  rw [List.filter_cons_of_pos (tie_self keys a), List.filter_cons_of_pos htie] at hties
  exact (List.cons.inj hties).1

lemma eq_of_ties {rs' : List Entry} (hperm : rs.Perm rs')
    (hsorted : rs.Pairwise fun a b => (compareBy keys a b).isLE = true)
    (hsorted' : rs'.Pairwise fun a b => (compareBy keys a b).isLE = true)
    (hties : ∀ e, rs.filter (tie keys e) = rs'.filter (tie keys e)) : rs = rs' := by
  induction rs generalizing rs' with
  | nil => exact hperm.nil_eq
  | cons a rs ih =>
    cases rs' with
    | nil => exact hperm.eq_nil
    | cons b rs' =>
      obtain rfl := head_eq_of_ties hperm hsorted hsorted' (hties a)
      refine congrArg (a :: ·) (ih hperm.cons_inv hsorted.of_cons hsorted'.of_cons fun e => ?_)
      have htie := hties e
      cases he : tie keys e a with
      | true =>
        rw [List.filter_cons_of_pos he, List.filter_cons_of_pos he] at htie
        exact (List.cons.inj htie).2
      | false =>
        rwa [List.filter_cons_of_neg (ne_true_of_eq_false he),
          List.filter_cons_of_neg (ne_true_of_eq_false he)] at htie

/-- A stable sort can only come out in one way. -/
theorem StablySorts.eq_sort (h : StablySorts keys es rs) : rs = sort keys es :=
  have hsort := stablySorts_sort keys es
  eq_of_ties (h.perm.trans hsort.perm.symm) h.sorted hsort.sorted
    fun e => (h.stable e).trans (hsort.stable e).symm

/-! ## Sorting twice -/

lemma compareBy_append (keys previous : List SortKey) (a b : Entry) :
    compareBy (keys ++ previous) a b = (compareBy keys a b).then (compareBy previous a b) := by
  induction keys with
  | nil => rfl
  | cons k keys ih => rw [List.cons_append, compareBy, compareBy, ih, Ordering.then_assoc]

lemma tie_append (e a : Entry) :
    tie (keys ++ previous) e a = (tie keys e a && tie previous e a) := by
  rw [Bool.eq_iff_iff, Bool.and_eq_true, tie_iff, tie_iff, tie_iff, compareBy_append,
    Ordering.then_eq_eq]

/-- Entries that the new keys do not tell apart are left as the old ones sorted them. -/
lemma StablySorts.trans {ss : List Entry} (hprevious : StablySorts previous es ss)
    (h : StablySorts keys ss rs) : StablySorts (keys ++ previous) es rs where
  perm := h.perm.trans hprevious.perm
  sorted := by
    have hties : ∀ e, (rs.filter (tie keys e)).Pairwise fun a b =>
        (compareBy previous a b).isLE = true := by
      intro e
      rw [h.stable]
      exact hprevious.sorted.filter _
    rw [List.pairwise_iff_getElem]
    intro i j hi hj hij
    have hkeys := List.pairwise_iff_getElem.1 h.sorted i j hi hj hij
    rw [compareBy_append, Ordering.isLE_then_iff_and]
    refine ⟨hkeys, ?_⟩
    by_cases htie : compareBy keys rs[i] rs[j] = .eq
    · have hpairs := List.pairwise_filter.1 (hties rs[i])
      have hpair := List.pairwise_iff_getElem.1 hpairs i j hi hj hij
      exact .inr (hpair (tie_self keys rs[i]) (tie_iff.2 htie))
    · exact .inl (Ordering.isLE_iff_eq_lt_or_eq_eq.1 hkeys |>.resolve_right htie)
  stable e := by
    have hboth : tie (keys ++ previous) e = fun a => tie keys e a && tie previous e a :=
      funext fun a => tie_append e a
    rw [hboth, ← List.filter_filter, ← List.filter_filter, List.filter_comm, h.stable,
      List.filter_comm, hprevious.stable, List.filter_comm]

/-- Sorting by old keys and then by new ones is sorting by both, the new ones first. -/
theorem sort_append (keys previous : List SortKey) (es : List Entry) :
    sort (keys ++ previous) es = sort keys (sort previous es) :=
  ((stablySorts_sort previous es).trans (stablySorts_sort keys (sort previous es))).eq_sort.symm

lemma sort_nil (es : List Entry) : sort [] es = es :=
  List.mergeSort_of_pairwise (List.pairwise_of_forall fun _ _ => rfl)

end SortKey

/-! ## What ordered queries come to -/

lemma Outcome.result_sorted (keys : List SortKey) (o : Outcome) :
    (o.sorted keys []).result = o.result.map (SortKey.sort keys) := by
  obtain ⟨entries, error⟩ := o
  cases error <;> rfl

namespace Query

variable {q : Query} {snapshots : Snapshots} {d : Directory} {n : Nat}

lemma map_sort_nil (o : Outcome) : o.result.map (SortKey.sort []) = o.result := by
  cases o.result with
  | error e => rfl
  | ok es => exact congrArg Except.ok (SortKey.sort_nil es)

/-- A query that sorts, and has kept nothing, comes to what is below it, sorted. -/
lemma result_ordered {tag : QueryTag} (hunkept : snapshots.get? tag.id = none)
    (keys : List SortKey) (below : Query) :
    ((staged tag (.ordered keys) below).outcome snapshots d).result =
      (below.outcome snapshots d).result.map (SortKey.sort keys) := by
  rw [outcome, hunkept]
  exact Outcome.result_sorted keys _

lemma result_derive_ordered (hfresh : snapshots.get? n = none) (keys : List SortKey) :
    ((q.derive (.ordered keys) n).1.outcome snapshots d).result =
      (q.outcome snapshots d).result.map (SortKey.sort keys) := by
  cases q with
  | empty => exact congrArg Except.ok (List.mergeSort_nil).symm
  | search tag source => exact result_ordered hfresh keys _
  | staged tag stage below => exact result_ordered hfresh keys _

lemma result_unsorted (hunkept : q.Unkept snapshots) :
    (q.outcome snapshots d).result =
      (q.unsorted.outcome snapshots d).result.map (SortKey.sort q.sortKeys) := by
  rw [unsorted.eq_def, sortKeys.eq_def]
  split
  · exact result_ordered hunkept.1 _ _
  · exact (map_sort_nil _).symm

/-- A query that was ordered comes to the sort of what it came to before. -/
lemma result_orderBy (hunkept : q.Unkept snapshots) (hfresh : snapshots.get? n = none)
    (keys : List String) :
    ((q.orderBy keys n).1.outcome snapshots d).result =
      (q.outcome snapshots d).result.map (SortKey.sort (keys.filterMap SortKey.parse?)) := by
  by_cases hkeys : (keys.filterMap SortKey.parse?).isEmpty = true
  · rw [orderBy_of_isEmpty hkeys, List.isEmpty_iff.1 hkeys, map_sort_nil]
  · rw [orderBy_of_not_isEmpty hkeys, result_derive_ordered hfresh, result_unsorted hunkept]
    cases (q.unsorted.outcome snapshots d).result with
    | error e => rfl
    | ok es => exact congrArg Except.ok (SortKey.sort_append _ _ es)

/-! ## The instances of ordered queries -/

lemma levels_unsorted (q : Query) : q.unsorted.levels ⊆ q.levels := by
  unfold unsorted
  split
  · exact List.subset_cons_self _ _
  · exact List.Subset.refl _

/-- Ordering a query adds one instance at most, which gets the next number. -/
lemma orderBy_cases (q : Query) (keys : List String) (n : Nat) :
    (q.orderBy keys n).1.levels ⊆ q.levels ∨
      (q.orderBy keys n).1.tag?.map QueryTag.id = some n ∧
        (q.orderBy keys n).1.levels ⊆ (q.orderBy keys n).1 :: q.levels := by
  by_cases hkeys : (keys.filterMap SortKey.parse?).isEmpty = true
  · rw [orderBy_of_isEmpty hkeys]
    exact .inl (List.Subset.refl _)
  · rw [orderBy_of_not_isEmpty hkeys]
    have hlevels := levels_unsorted q
    generalize q.unsorted = below at hlevels ⊢
    cases below with
    | empty => exact .inl (List.nil_subset _)
    | search tag source => exact .inr ⟨rfl, List.cons_subset_cons _ hlevels⟩
    | staged tag stage below => exact .inr ⟨rfl, List.cons_subset_cons _ hlevels⟩

/-- Every instance of a numbered chain has its number for itself. -/
lemma Numbered.eq_of_mem {a b : Query} (hq : q.Numbered) (ha : a ∈ q.levels) (hb : b ∈ q.levels)
    (hid : a.tag?.map QueryTag.id = b.tag?.map QueryTag.id) : a = b := by
  induction q with
  | empty => cases ha
  | search tag source => rw [List.mem_singleton.1 ha, List.mem_singleton.1 hb]
  | staged tag stage below ih =>
    obtain rfl | habelow := List.mem_cons.1 ha
    · exact hq.eq_of_mem_levels hb hid
    obtain rfl | hbbelow := List.mem_cons.1 hb
    · exact (hq.eq_of_mem_levels ha hid.symm).symm
    exact ih hq.2 habelow hbbelow

lemma Numbers.id_ne {a : Query} (hq : q.Numbers n) (ha : a ∈ q.levels) :
    a.tag?.map QueryTag.id ≠ some n := by
  intro hid
  obtain ⟨tag, htag, rfl⟩ := Option.map_eq_some_iff.1 hid
  exact Nat.lt_irrefl _ (all_iff_levels.1 hq.1 a ha tag htag)

/-- So has every instance of a query and of the query ordered. -/
lemma Numbers.eq_of_mem_orderBy {a b : Query} (hq : q.Numbers n) {keys : List String}
    (ha : a ∈ q.levels ++ (q.orderBy keys n).1.levels)
    (hb : b ∈ q.levels ++ (q.orderBy keys n).1.levels)
    (hid : a.tag?.map QueryTag.id = b.tag?.map QueryTag.id) : a = b := by
  obtain hlevels | ⟨hnumber, hlevels⟩ := orderBy_cases q keys n
  · have hall := List.append_subset.2 ⟨List.Subset.refl q.levels, hlevels⟩
    exact hq.2.eq_of_mem (hall ha) (hall hb) hid
  · have hall := List.append_subset.2 ⟨List.subset_cons_self (q.orderBy keys n).1 q.levels, hlevels⟩
    obtain rfl | haold := List.mem_cons.1 (hall ha)
    · obtain rfl | hbold := List.mem_cons.1 (hall hb)
      · rfl
      · exact absurd (hid.symm.trans hnumber) (hq.id_ne hbold)
    · obtain rfl | hbold := List.mem_cons.1 (hall hb)
      · exact absurd (hid.trans hnumber) (hq.id_ne haold)
      · exact hq.2.eq_of_mem haold hbold hid

end Query

/-! ## Evaluations -/

namespace Chronicle

open Query

/-- Where every instance of a query is used for what it is, so is every part of the query. -/
lemma respects_of_levels {q p : Query} {m : Move}
    (hm : ∀ level ∈ q.levels, (Happening.move m).Respects level) (hp : p.levels ⊆ q.levels) :
    (Happening.move m).Respects p := by
  by_cases hempty : p = .empty
  · intro used hused hid
    rw [hempty] at hid ⊢
    cases used with
    | empty => rfl
    | search tag source | staged tag stage below => cases hid
  · exact hm p (hp (mem_levels_self hempty))

/-- As long as queries are only read, a query gives what it came to at the start. -/
lemma fetch_of_moves {q : Query} {w : Workspace} (hready : w.service.Ready) {moves : List Move}
    (hreads : ∀ m ∈ moves, m.IsReading)
    (hrespects : ∀ m ∈ moves, ∀ level ∈ q.levels, (Happening.move m).Respects level)
    (hroom : w.service.directory.searchesRun + moves.length + 1 < Text.maxSize) :
    (q.fetch ((moves.map Happening.move).foldl step (ofWorkspace w)).workspace).1 =
      (q.outcome w.snapshots w.service.directory).result := by
  obtain ⟨hc, hsteady⟩ := faithful_moves (faithful_ofWorkspace w q) (steady_ofWorkspace hready)
    (by omega) hreads fun m hm p => respects_of_levels (hrespects m hm)
  have hsearches := hsteady.service.searchesRun
  rw [fetch_eq_outcome hsteady.service.ready hsteady.service.entries (by omega) q,
    hc.kept.outcome_eq (List.Subset.refl _)]

/-- An ordered query gives what the query gives that was ordered, sorted stably by the keys that can
be read, and fails as it fails.  If that query was an ordered one itself, this is what is below
both, sorted twice.  It makes no difference what was read before, of these queries and their parts
or of others, and what was kept of it, as long as nothing else happens; there have to be so few
moves that cookies can number their searches. -/
theorem fetch_orderBy {q : Query} {n : Nat} (hq : q.Numbers n) {w : Workspace}
    (hready : w.service.Ready) (hunkept : q.Unkept w.snapshots)
    (hfresh : w.snapshots.get? n = none) (keys : List String) {moves : List Move}
    (hreads : ∀ m ∈ moves, m.IsReading)
    (hothers : ∀ m ∈ moves, (∃ p ∈ q.levels ++ (q.orderBy keys n).1.levels, m.query? = some p) ∨
      ∀ level ∈ q.levels ++ (q.orderBy keys n).1.levels, (Happening.move m).Respects level)
    (hroom : w.service.directory.searchesRun + moves.length + 1 < Text.maxSize) :
    let c := (moves.map Happening.move).foldl step (ofWorkspace w)
    let ks := keys.filterMap SortKey.parse?
    (∀ es, (q.fetch c.workspace).1 = .ok es → ∃ rs,
        ((q.orderBy keys n).1.fetch c.workspace).1 = .ok rs ∧ SortKey.StablySorts ks es rs) ∧
      (∀ e, (q.fetch c.workspace).1 = .error e →
        ((q.orderBy keys n).1.fetch c.workspace).1 = .error e) ∧
      ∀ tag previous below, q = .staged tag (.ordered previous) below →
        ((q.orderBy keys n).1.fetch c.workspace).1 =
          (below.fetch c.workspace).1.map fun es => SortKey.sort ks (SortKey.sort previous es) := by
  intro c ks
  have hrespects : ∀ m ∈ moves, ∀ level ∈ q.levels ++ (q.orderBy keys n).1.levels,
      (Happening.move m).Respects level := by
    intro m hm level hlevel
    obtain ⟨p, hp, hquery⟩ | hleaves := hothers m hm
    · intro used hused hid
      obtain rfl := Option.some.inj (hquery.symm.trans hused)
      exact hq.eq_of_mem_orderBy hp hlevel hid
    · exact hleaves level hlevel
  have hfetch : (q.fetch c.workspace).1 = (q.outcome w.snapshots w.service.directory).result :=
    fetch_of_moves hready hreads
      (fun m hm level hlevel => hrespects m hm level (List.mem_append_left _ hlevel)) hroom
  have hfetched : ((q.orderBy keys n).1.fetch c.workspace).1 =
      (q.fetch c.workspace).1.map (SortKey.sort ks) := by
    rw [hfetch, ← result_orderBy hunkept hfresh]
    exact fetch_of_moves hready hreads
      (fun m hm level hlevel => hrespects m hm level (List.mem_append_right _ hlevel)) hroom
  refine ⟨fun es hes => ?_, fun e he => ?_, fun tag previous below hordered => ?_⟩
  · rw [hfetched, hes]
    exact ⟨_, rfl, SortKey.stablySorts_sort ks es⟩
  · rw [hfetched, he]
    rfl
  · subst hordered
    have hbelow : (below.fetch c.workspace).1 =
        (below.outcome w.snapshots w.service.directory).result :=
      fetch_of_moves hready hreads (fun m hm level hlevel =>
        hrespects m hm level (List.mem_append_left _ (List.mem_cons_of_mem _ hlevel))) hroom
    rw [hfetched, hfetch, hbelow, result_ordered hunkept.1]
    cases (below.outcome w.snapshots w.service.directory).result <;> rfl

/-- A search that was read, and partly read by somebody else, is ordered by name and ordered again
by an attribute on which two of its three entries agree. -/
theorem fetch_orderBy_twice :
    let w : Workspace := ⟨⟨Directory.empty.addAll
        [(Entry.named "cn=Ann,dc=org").insert "sn" [.text "Lee"],
          (Entry.named "cn=Bob,dc=org").insert "sn" [.text "Kim"],
          (Entry.named "cn=Cyd,dc=org").insert "sn" [.text "Lee"]],
      .ofConfig (.ofPrimary "localhost")⟩, .empty⟩
    let all := (ofBase "dc=org" .subtree 0).1
    let once := (all.orderBy ["-dn"] 1).1
    let twice := (once.orderBy [" ", "sn"] 2).1
    let moves : List Move := [.create all, .poll 0, .fetch all]
    let c := (moves.map Happening.move).foldl step (ofWorkspace w)
    ∃ es once' twice', (all.fetch c.workspace).1 = .ok es ∧ es.length = 3 ∧
      (once.fetch c.workspace).1 = .ok once' ∧ SortKey.StablySorts [⟨"dn", true⟩] es once' ∧
      (twice.fetch c.workspace).1 = .ok twice' ∧
      SortKey.StablySorts [⟨"sn", false⟩] once' twice' := by
  intro w all once twice moves c
  have hnumbers : all.Numbers 1 ∧ once.Numbers 2 :=
    ⟨⟨Nat.zero_lt_one, trivial⟩, ⟨Nat.one_lt_two, Nat.zero_lt_two⟩, Nat.zero_lt_one, trivial⟩
  have hready : w.service.Ready :=
    ⟨rfl, nofun, ⟨"localhost", by decide +kernel, rfl⟩, rfl, by decide +kernel, by decide +kernel⟩
  have hroom : w.service.directory.searchesRun + moves.length + 1 < Text.maxSize := by
    decide +kernel
  have hreads : ∀ m ∈ moves, m.IsReading := by simp [moves, Move.IsReading]
  have hquery : ∀ m ∈ moves, m.query? = some all ∨ m.query? = none := by
    simp [moves, Move.query?]
  have hothers : ∀ levels : List Query, all ∈ levels → ∀ m ∈ moves,
      (∃ p ∈ levels, m.query? = some p) ∨ ∀ level ∈ levels, (Happening.move m).Respects level := by
    intro levels hlevels m hm
    rcases hquery m hm with hall | hnone
    · exact .inl ⟨all, hlevels, hall⟩
    · exact .inr fun level _ used hused => by rw [hnone] at hused; cases hused
  have hlength : (all.fetch c.workspace).1.toOption.map List.length = some 3 := by decide +kernel
  cases hall : (all.fetch c.workspace).1 with
  | error e =>
    rw [hall] at hlength
    cases hlength
  | ok es =>
    rw [hall] at hlength
    have hlevels : all ∈ all.levels ∧ all ∈ once.levels :=
      ⟨List.mem_cons_self, List.mem_cons_of_mem once List.mem_cons_self⟩
    obtain ⟨once', honce, hsorted⟩ := (fetch_orderBy hnumbers.1 hready rfl rfl ["-dn"] hreads
      (hothers _ (List.mem_append_left _ hlevels.1)) hroom).1 es hall
    obtain ⟨twice', htwice, hsorted'⟩ := (fetch_orderBy hnumbers.2 hready ⟨rfl, rfl⟩ rfl
      [" ", "sn"] hreads (hothers _ (List.mem_append_left _ hlevels.2)) hroom).1 once' honce
    exact ⟨es, once', twice', rfl, Option.some.inj hlength, honce, hsorted, htwice, hsorted'⟩

end Chronicle

end DirectoryQuery
