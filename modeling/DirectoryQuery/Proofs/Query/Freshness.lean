import DirectoryQuery.Proofs.Query.Chain
import DirectoryQuery.Proofs.Query.KeptResult

/-!
# Queries that ask every time

A query whose options say that it asks every time keeps nothing itself.  But evaluating it evaluates
the instances below it, and one of those that has kept its result answers from there, whatever
became of the directory (`Query.stale_of_kept_below`).

`Query.fetch_afresh` says when a query gives what the same operations on a new search would give:
when each instance of its chain asks every time or has kept nothing yet.
-/

namespace DirectoryQuery.Query

open DirectoryQuery.Derivation

variable {q : Query} {next : Nat}

/-! ## Where a query comes from -/

/-- The query is what these operations make of a search of the base, in order.  Other queries may
have drawn numbers in between. -/
inductive ComesFrom (base : String) (scope : Scope) (start : Nat) :
    List Derivation → Query → Nat → Prop
  | search {n : Nat} (h : start ≤ n) :
    ComesFrom base scope start [] (ofBase base scope n).1 (ofBase base scope n).2
  | apply {hows : List Derivation} {how : Derivation} {q q' : Query} {next n next' : Nat}
    (h : ComesFrom base scope start hows q next) (hn : next ≤ n)
    (hmade : how.apply q n = .ok (q', next')) :
    ComesFrom base scope start (hows ++ [how]) q' next'

section ComesFrom

variable {base : String} {scope : Scope} {start : Nat} {hows : List Derivation}

/-- All instances of a query have numbers that were free when it was begun. -/
lemma ComesFrom.makes (h : ComesFrom base scope start hows q next) :
    Makes (fun tag => start ≤ tag.id) start q next := by
  have hpasses : Passes (fun tag => start ≤ tag.id) start := fun _ _ _ hid => hid
  induction h with
  | search hn => exact ⟨Nat.le_succ_of_le hn, hn⟩
  | apply h hn hmade ih =>
    exact makes_apply hpasses ih.2 (Nat.le_trans ih.1 hn) _ (fun _ _ _ hid => hid) _ _ hmade

lemma applyAll_concat (hows : List Derivation) (how : Derivation) (q : Query) (next : Nat) :
    applyAll (hows ++ [how]) q next =
      (applyAll hows q next).bind fun made => how.apply made.1 made.2 := by
  induction hows generalizing q next with
  | nil =>
    show (how.apply q next).bind (fun made => .ok made) = how.apply q next
    cases how.apply q next <;> rfl
  | cons first rest ih =>
    show (first.apply q next).bind _ = ((first.apply q next).bind _).bind _
    cases first.apply q next with
    | error e => rfl
    | ok made => exact ih made.1 made.2

/-- The same operations on a new search give the same chain. -/
lemma ComesFrom.exists_afresh (h : ComesFrom base scope start hows q next) (n : Nat) :
    ∃ afresh n', applyAll hows (ofBase base scope n).1 (ofBase base scope n).2 = .ok (afresh, n') ∧
      afresh.bare = q.bare := by
  induction h with
  | search hn => exact ⟨_, _, rfl, rfl⟩
  | @apply hows how q q' next m next' h hm hmade ih =>
    obtain ⟨afresh, n', hafresh, hbare⟩ := ih
    have hsame := ignoresTags_apply how afresh n' q m hbare
    rw [hmade] at hsame
    rw [applyAll_concat, hafresh]
    show ∃ afresh' n'', how.apply afresh n' = .ok (afresh', n'') ∧ afresh'.bare = q'.bare
    cases happly : how.apply afresh n' with
    | error e =>
      rw [happly] at hsame
      cases hsame
    | ok made =>
      rw [happly] at hsame
      exact ⟨made.1, made.2, rfl, Except.ok.inj hsame⟩

end ComesFrom

/-! ## Instances that keep nothing -/

/-- The instances of a query as queries, itself first. -/
def levels : Query → List Query
  | .empty => []
  | .search tag source => [.search tag source]
  | .staged tag stage below => .staged tag stage below :: below.levels

lemma all_iff_levels {p : QueryTag → Prop} :
    q.All p ↔ ∀ level ∈ q.levels, ∀ tag, level.tag? = some tag → p tag := by
  induction q with
  | empty => simp [All, levels]
  | search tag source => simp [All, levels, tag?]
  | staged tag stage below ih => simp [All, levels, tag?, ih]

/-- Instances that ask every time keep nothing, whatever happens to them. -/
lemma unkept_of_refetch {w : Workspace} (hfresh : q.Unkept w.snapshots)
    {happenings : List Happening}
    (hrespects : ∀ level ∈ q.levels, ∀ x ∈ happenings, x.Respects level)
    (hall : q.All fun tag => tag.options.cache = .refetch ∨
      (happenings.foldl Chronicle.step (.ofWorkspace w)).kept? tag.id = none) :
    q.Unkept (happenings.foldl Chronicle.step (.ofWorkspace w)).workspace.snapshots := by
  rw [Unkept, all_iff_levels] at hfresh ⊢
  rw [all_iff_levels] at hall
  intro level hlevel tag htag
  obtain hcache | hnone := hall level hlevel tag htag
  · exact (Chronicle.sound_ofWorkspace level w).kept?_of_refetch htag hcache
      (hfresh level hlevel tag htag) (hrespects level hlevel)
  · exact hnone

/-! ## Fetching afresh -/

/-- Whatever happened since a query was composed: if each instance of its chain asks every time or
has kept nothing, fetching it gives what the same operations on a new search would give now, be it
entries or a failure. -/
theorem fetch_afresh {base : String} {scope : Scope} {start : Nat} {hows : List Derivation}
    (hq : ComesFrom base scope start hows q next) {w : Workspace}
    (hfresh : w.snapshots.FreshFrom start) {happenings : List Happening}
    (hrespects : ∀ level ∈ q.levels, ∀ x ∈ happenings, x.Respects level) :
    let c := happenings.foldl Chronicle.step (.ofWorkspace w)
    (q.All fun tag => tag.options.cache = .refetch ∨ c.kept? tag.id = none) →
      ∀ n, ∃ afresh n',
        applyAll hows (ofBase base scope n).1 (ofBase base scope n).2 = .ok (afresh, n') ∧
          ∀ snapshots : Snapshots, snapshots.FreshFrom n →
            (q.fetch c.workspace).1 = (afresh.fetch ⟨c.workspace.service, snapshots⟩).1 := by
  intro c hall n
  have hunkept : q.Unkept c.workspace.snapshots := by
    refine unkept_of_refetch ?_ hrespects hall
    exact (hq.makes.2).mono fun tag htag => hfresh tag.id htag
  obtain ⟨afresh, n', hafresh, hbare⟩ := hq.exists_afresh n
  refine ⟨afresh, n', hafresh, fun snapshots hsnapshots => ?_⟩
  have hunkeptAfresh : afresh.Unkept snapshots := by
    have hpasses : Passes (fun tag => n ≤ tag.id) n := fun _ _ _ hid => hid
    obtain ⟨-, hnew⟩ := makes_applyAll hpasses (q := (ofBase base scope n).1) (Nat.le_refl n)
      (Nat.le_succ n) (fun _ _ _ hid => hid) afresh n' hafresh
    exact hnew.mono fun tag htag => hsnapshots tag.id htag
  rw [(fetch_bare hunkept).1, (fetch_bare (w := ⟨_, snapshots⟩) hunkeptAfresh).1, hbare]

/-- The query was told to ask every time before anything else was done with it.  The search that it
was made from has kept its result, and an entry was added since. -/
theorem fetch_afresh_select :
    let w : Workspace := ⟨⟨Directory.empty.addAll [.named "cn=Ann,dc=org"],
      .ofConfig (.ofPrimary "localhost")⟩, .empty⟩
    let hows : List Derivation := [.withOptions ⟨.refetch⟩, .select ["cn"]]
    let all := ofBase "dc=org" .subtree 0
    let asking := all.1.withOptions ⟨.refetch⟩ all.2
    let names := asking.1.select ["cn"] asking.2
    let c := [.move (.fetch all.1), .move (.fetch names.1),
      .move (.add (.named "cn=Bob,dc=org"))].foldl Chronicle.step (.ofWorkspace w)
    ∃ afresh n', applyAll hows (ofBase "dc=org" .subtree 3).1 4 = .ok (afresh, n') ∧
      (names.1.fetch c.workspace).1 = (afresh.fetch ⟨c.workspace.service, .empty⟩).1 ∧
      (names.1.fetch c.workspace).1.toOption.map (·.map Entry.dn) =
        some ["cn=Ann,dc=org", "cn=Bob,dc=org"] := by
  intro w hows all asking names c
  have hsearch : ComesFrom "dc=org" .subtree 0 [] all.1 all.2 := .search (Nat.le_refl 0)
  have hasking : ComesFrom "dc=org" .subtree 0 [.withOptions ⟨.refetch⟩] asking.1 asking.2 :=
    hsearch.apply (Nat.le_refl _) rfl
  have hnames : ComesFrom "dc=org" .subtree 0 hows names.1 names.2 :=
    hasking.apply (Nat.le_refl _) rfl
  have hfresh : w.snapshots.FreshFrom 0 := fun _ _ => rfl
  have hrespects : ∀ level ∈ names.1.levels, ∀ x ∈ [Happening.move (.fetch all.1),
      .move (.fetch names.1), .move (.add (.named "cn=Bob,dc=org"))], x.Respects level := by
    have hlevels : names.1.levels = [names.1, asking.1] := rfl
    have htags : all.1.tag? = some ⟨0, .default⟩ ∧ asking.1.tag? = some ⟨1, ⟨.refetch⟩⟩ ∧
        names.1.tag? = some ⟨2, ⟨.refetch⟩⟩ := ⟨rfl, rfl, rfl⟩
    rw [hlevels]
    simp [Happening.Respects, Move.query?, htags]
  have hempty : Snapshots.empty.FreshFrom 3 := fun _ _ => rfl
  obtain ⟨afresh, n', hafresh, hfetch⟩ :=
    fetch_afresh hnames hfresh hrespects ⟨.inl rfl, .inl rfl⟩ 3
  refine ⟨afresh, n', hafresh, hfetch _ hempty, ?_⟩
  decide +kernel

/-- The query asks every time, and the search below it does not.  The search has kept what it found
before an entry was added, and the query gives that; the same operations on a new search give both
entries. -/
theorem stale_of_kept_below :
    let w : Workspace := ⟨⟨Directory.empty.addAll [.named "cn=Ann,dc=org"],
      .ofConfig (.ofPrimary "localhost")⟩, .empty⟩
    let hows : List Derivation := [.select ["cn"], .withOptions ⟨.refetch⟩]
    let all := ofBase "dc=org" .subtree 0
    let names := all.1.select ["cn"] all.2
    let asking := names.1.withOptions ⟨.refetch⟩ names.2
    let c := [.move (.fetch all.1), .move (.add (.named "cn=Bob,dc=org"))].foldl Chronicle.step
      (.ofWorkspace w)
    asking.1.options = ⟨.refetch⟩ ∧
      (asking.1.fetch c.workspace).1.toOption.map (·.map Entry.dn) = some ["cn=Ann,dc=org"] ∧
      ∃ afresh n', applyAll hows (ofBase "dc=org" .subtree 3).1 4 = .ok (afresh, n') ∧
        (afresh.fetch c.workspace).1.toOption.map (·.map Entry.dn) =
          some ["cn=Ann,dc=org", "cn=Bob,dc=org"] := by
  intro w hows all names asking c
  exact ⟨rfl, by decide +kernel, _, _, rfl, by decide +kernel⟩

end DirectoryQuery.Query
