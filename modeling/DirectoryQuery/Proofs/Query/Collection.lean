import DirectoryQuery.Proofs.Query.Filing
import DirectoryQuery.Proofs.Query.Keeping
import Mathlib.Logic.Relation

/-!
# Filters on queries that are in use

Queries are composed from one another, and some are fetched in between.  A fetched query keeps its
result, and every query above it is evaluated from what was kept.  As long as the entries of the
directory stay the same this shows nowhere: at any time a query can be put through a filter that
compiles, and from then on fetching what comes out gives what fetching the query gives, without the
entries that the filter does not accept (`Collection.fetch_filter`).

The invariant is that all queries are filed in one book and that what is kept agrees with it
(`Collection.IsInOrder`).  Composing files a new query, and fetching keeps what the book says.
-/

namespace DirectoryQuery

open DirectoryQuery.Filter

/-- Queries that were composed over one directory, the next free number and what is kept. -/
structure Collection where
  made : List Query
  next : Nat
  snapshots : Snapshots

namespace Collection

variable {entries : List Entry} {c c' : Collection} {q : Query}

/-- The collection with one more query. -/
def add (c : Collection) (composed : Query × Nat) : Collection :=
  ⟨composed.1 :: c.made, composed.2, c.snapshots⟩

/-- A query is composed, or one of those there are is fetched while the service is ready and the
directory holds these entries. -/
inductive Step (entries : List Entry) (c : Collection) : Collection → Prop where
  | search {base : String} (hbase : DistinguishedName.IsTidy base) (scope : Scope) :
    Step entries c (c.add (Query.ofBase base scope c.next))
  | filter {q : Query} {f : Filter} {composed : Query × Nat} (hq : q ∈ c.made)
    (hportable : ∀ x ∈ conditions? (q.sends f), x.IsPortable entries)
    (hcomposed : q.filter f c.next = .ok composed) : Step entries c (c.add composed)
  | exclude {q : Query} {f : Filter} {composed : Query × Nat} (hq : q ∈ c.made)
    (hportable : ∀ x ∈ conditions? (q.sends f.negate), x.IsPortable entries)
    (hcomposed : q.exclude f c.next = .ok composed) : Step entries c (c.add composed)
  | annotate {q : Query} (hq : q ∈ c.made) (annotations : List (String × Annotation)) :
    Step entries c (c.add (q.annotate annotations c.next))
  | orderBy {q : Query} (hq : q ∈ c.made) (keys : List String) :
    Step entries c (c.add (q.orderBy keys c.next))
  | slice {q : Query} {low step : Int} {high : Option Int} {composed : Query × Nat}
    (hq : q ∈ c.made) (hcomposed : q.slice low high step c.next = .ok composed) :
    Step entries c (c.add composed)
  | fetch {q : Query} {w : Workspace} (hq : q ∈ c.made) (hready : w.service.Ready)
    (hentries : w.service.directory.entries = entries) (hsnapshots : w.snapshots = c.snapshots) :
    Step entries c { c with snapshots := (q.fetch w).2.snapshots }

/-- Any number of steps. -/
abbrev Reaches (entries : List Entry) : Collection → Collection → Prop :=
  Relation.ReflTransGen (Step entries)

/-- Queries are not lost. -/
lemma Reaches.mem_made (h : Reaches entries c c') (hq : q ∈ c.made) : q ∈ c'.made := by
  induction h with
  | refl => exact hq
  | tail _ hstep ih =>
    cases hstep with
    | fetch => exact ih
    | _ => exact List.mem_cons_of_mem _ ih

/-- All queries are derived from searches and filed in the book, and what is kept agrees with it. -/
structure IsInOrder (entries : List Entry) (book : Nat → List Entry) (c : Collection) : Prop where
  fresh : c.snapshots.FreshFrom c.next
  current : ∀ id es, c.snapshots.get? id = some es → book id = es
  derived : ∀ q ∈ c.made, q.IsDerived entries
  filed : ∀ q ∈ c.made, q.IsFiled entries book c.next

namespace IsInOrder

variable {book : Nat → List Entry} (h : c.IsInOrder entries book)
include h

lemma add {ε : Type} {outcome : Except ε (Query × Nat)} {composed : Query × Nat}
    (hfiles : Query.Files entries book c.next outcome) (hok : outcome = .ok composed) :
    ∃ book', (c.add composed).IsInOrder entries book' := by
  obtain ⟨hderived, hnext, book', hbook, hfiled⟩ := hfiles composed.1 composed.2 hok
  refine ⟨book', h.fresh.mono hnext, fun id es hget => ?_,
    List.forall_mem_cons.2 ⟨hderived, h.derived⟩, List.forall_mem_cons.2 ⟨hfiled, fun q hq => ?_⟩⟩
  · -- What is kept has a number that was given out before.
    have hid : id < c.next := by
      apply Nat.lt_of_not_le
      intro hle
      have hnone := h.fresh id hle
      have hsome : c.snapshots.get? id = some es := hget
      rw [hnone] at hsome
      cases hsome
    rw [hbook id hid]
    exact h.current id es hget
  · exact ((h.filed q hq).congr hbook).mono hnext

variable (htidy : ∀ e ∈ entries, DistinguishedName.IsTidy e.dn) {w : Workspace}
  (hready : w.service.Ready) (hentries : w.service.directory.entries = entries)
  (hsnapshots : w.snapshots = c.snapshots)
include htidy hready hentries hsnapshots

/-- Fetching gives what the book says. -/
lemma fetch_eq (hq : q ∈ c.made) : (q.fetch w).1 = .ok (q.afresh entries) := by
  subst hentries
  rw [Query.fetch_eq_result hready (fun _ hsource => (h.derived q hq).isFaithful hsource) htidy,
    hsnapshots, (h.filed q hq).result_eq h.current]

/-- Fetching keeps what the book says. -/
lemma fetch (hq : q ∈ c.made) :
    IsInOrder entries book { c with snapshots := (q.fetch w).2.snapshots } := by
  have hfetch := h.fetch_eq htidy hready hentries hsnapshots hq
  have hnew : ∀ id es, c.snapshots.get? id = none → (q.fetch w).2.snapshots.get? id = some es →
      id < c.next ∧ book id = es := by
    intro id es hbefore hafter
    rw [← hsnapshots] at hbefore
    rw [Query.snapshots_fetch] at hafter
    obtain ⟨tag, htag, rfl, -, hok⟩ := Query.of_get?_kept hbefore hafter
    obtain ⟨hid, hresult⟩ := (h.filed q hq).of_tag? htag
    exact ⟨hid, hresult.trans (Except.ok.inj (hfetch.symm.trans hok))⟩
  refine ⟨fun id hid => ?_, fun id es hafter => ?_, h.derived, h.filed⟩
  · cases hafter : (q.fetch w).2.snapshots.get? id with
    | none => rfl
    | some es => exact absurd hid (Nat.not_le_of_lt (hnew id es (h.fresh id hid) hafter).1)
  · cases hbefore : c.snapshots.get? id with
    | none => exact (hnew id es hbefore hafter).2
    | some es' =>
      have hstill := q.extends_kept w id es' (by rw [hsnapshots]; exact hbefore)
      rw [← Query.snapshots_fetch] at hstill
      obtain rfl := Option.some.inj (hstill.symm.trans hafter)
      exact h.current id es' hbefore

end IsInOrder

/-- The order is kept by every step. -/
theorem IsInOrder.step {book : Nat → List Entry} (h : c.IsInOrder entries book)
    (htidy : ∀ e ∈ entries, DistinguishedName.IsTidy e.dn) (hstep : Step entries c c') :
    ∃ book', c'.IsInOrder entries book' := by
  cases hstep with
  | search hbase scope => exact h.add (Query.files_ofBase hbase scope) rfl
  | filter hq hportable hcomposed =>
    exact h.add (Query.files_refine (h.derived _ hq) (h.filed _ hq) hportable) hcomposed
  | exclude hq hportable hcomposed =>
    exact h.add (Query.files_refine (h.derived _ hq) (h.filed _ hq) hportable) hcomposed
  | annotate hq annotations =>
    exact h.add (Query.files_annotate annotations (h.derived _ hq) (h.filed _ hq)) rfl
  | orderBy hq keys => exact h.add (Query.files_orderBy keys (h.derived _ hq) (h.filed _ hq)) rfl
  | slice hq hcomposed =>
    exact h.add (Query.files_slice _ _ _ (h.derived _ hq) (h.filed _ hq)) hcomposed
  | fetch hq hready hentries hsnapshots =>
    exact ⟨book, h.fetch htidy hready hentries hsnapshots hq⟩

theorem IsInOrder.reaches {book : Nat → List Entry} (h : c.IsInOrder entries book)
    (htidy : ∀ e ∈ entries, DistinguishedName.IsTidy e.dn) (hreaches : Reaches entries c c') :
    ∃ book', c'.IsInOrder entries book' := by
  induction hreaches with
  | refl => exact ⟨book, h⟩
  | tail _ hstep ih =>
    obtain ⟨book', h'⟩ := ih
    exact h'.step htidy hstep

/-- Whatever was composed and fetched before, putting a filter that compiles on a query succeeds.
And whatever is composed and fetched from then on, fetching what came out gives the entries that
fetching the query gives, in their order and with their attributes, as far as the filter accepts
them. -/
theorem fetch_filter (hentries : ∀ e ∈ entries, e.Built ∧ DistinguishedName.IsTidy e.dn)
    {start : Nat} {snapshots : Snapshots} (hfresh : snapshots.FreshFrom start)
    (hreaches : Reaches entries ⟨[], start, snapshots⟩ c) (hq : q ∈ c.made) {f : Filter}
    (hf : f.Compiles) (hportable : ∀ x ∈ conditions? (q.sends f), x.IsPortable entries) :
    ∃ q' next' es, q.filter f c.next = .ok (q', next') ∧
      ∀ c', Reaches entries (c.add (q', next')) c' →
        ∀ w : Workspace, w.service.Ready → w.service.directory.entries = entries →
          w.snapshots = c'.snapshots →
            (q.fetch w).1 = .ok es ∧ (q'.fetch w).1 = .ok (es.filter f.accepts) := by
  have htidy : ∀ e ∈ entries, DistinguishedName.IsTidy e.dn := fun e he => (hentries e he).2
  -- What was kept before belongs to other queries, and any book may begin with it.
  have hstart : IsInOrder entries (fun id => (snapshots.get? id).getD [])
      ⟨[], start, snapshots⟩ := by
    refine ⟨hfresh, fun id es hget => ?_, nofun, nofun⟩
    rw [hget, Option.getD_some]
  obtain ⟨book, hc⟩ := hstart.reaches htidy hreaches
  obtain ⟨q', next', hfilter, hresult⟩ :=
    Query.gives_refine (hc.derived q hq) hentries hf hportable c.next
  refine ⟨q', next', q.afresh entries, hfilter, fun c' hreaches' w hready hw hsnapshots => ?_⟩
  obtain ⟨book', hc'⟩ :=
    hc.reaches htidy (.head (.filter hq hportable hfilter) hreaches')
  have hq' : q ∈ c'.made := hreaches'.mem_made (List.mem_cons_of_mem _ hq)
  have hnew : q' ∈ c'.made := hreaches'.mem_made List.mem_cons_self
  refine ⟨hc'.fetch_eq htidy hready hw hsnapshots hq', ?_⟩
  rw [hc'.fetch_eq htidy hready hw hsnapshots hnew, hresult]

/-- The filter asks for an attribute of the directory and for a computed one that hides another
attribute, and the query was fetched before. -/
theorem fetch_filter_hidden :
    let ann := ((Entry.named "cn=Ann,dc=org").insert "ou" [.text "Sales"]).insert "mail"
      [.text "a@x", .text "b@x"]
    let bob := ((Entry.named "cn=Bob,dc=org").insert "ou" [.text "Sales"]).insert "mail"
      [.text "c@x"]
    let w : Workspace :=
      ⟨⟨Directory.empty.addAll [bob, ann], .ofConfig (.ofPrimary "localhost")⟩, .empty⟩
    let base := Query.ofBase "dc=org" .subtree 0
    let counted := base.1.annotate [("MAIL", .count "mail"), ("dn", .count "ou")] base.2
    let f : Filter := .all [.leaf ⟨"ou", none, .one (.text "sales")⟩,
      .leaf ⟨"mail", some "gte", .one (.int 2)⟩]
    ∃ q' next', counted.1.filter f counted.2 = .ok (q', next') ∧
      (q'.fetch ⟨w.service, (counted.1.fetch w).2.snapshots⟩).1 =
        .ok [ann.insert "mail" [.int 2]] := by
  intro ann bob w base counted f
  have hready : w.service.Ready :=
    ⟨rfl, nofun, ⟨"localhost", by decide +kernel, rfl⟩, rfl, by decide +kernel, by decide +kernel⟩
  have hlist : w.service.directory.entries = [bob, ann] := by decide +kernel
  have hentries : ∀ e ∈ [bob, ann], e.Built ∧ DistinguishedName.IsTidy e.dn := by
    have htidy : ∀ e ∈ [bob, ann], DistinguishedName.IsTidy e.dn := by decide +kernel
    refine fun e he => ⟨?_, htidy e he⟩
    simp only [List.mem_cons, List.not_mem_nil, or_false] at he
    obtain rfl | rfl := he
    · exact .insert (.insert (.named _) _ _) _ _
    · exact .insert (.insert (.named _) _ _) _ _
  have hreaches : Reaches [bob, ann] ⟨[], 0, .empty⟩
      ⟨[counted.1, base.1], counted.2, (counted.1.fetch w).2.snapshots⟩ :=
    ((Relation.ReflTransGen.refl.tail (.search (by decide +kernel) .subtree)).tail
      (.annotate List.mem_cons_self _)).tail
        (.fetch (w := w) List.mem_cons_self hready hlist rfl)
  have hou : Condition.IsPortable [bob, ann] ⟨"ou", none, .one (.text "sales")⟩ := by
    have hname : IsPlainName "ou" := by decide
    have hunmixed : ∀ e ∈ [bob, ann], ∀ u ∈ e.get "ou", ∀ v ∈ [Value.text "sales"],
        u.isMixed v = false := by decide +kernel
    refine ⟨fun _ => hname, fun _ e he => ?_, fun h => absurd h (by decide)⟩
    exact Condition.agreesOn_of_isUnmixed hname (by decide) (by decide) (by decide)
      fun _ => hunmixed e he
  have hmail : Condition.IsPortable [bob, ann] ⟨"mail", some "gte", .one (.int 2)⟩ :=
    ⟨fun h => absurd h (by decide), fun h => absurd h (by decide), fun h => absurd h (by decide)⟩
  have hportable : ∀ x ∈ f.conditions, x.IsPortable [bob, ann] :=
    forall_conditions_all.2 (List.forall_mem_cons.2 ⟨List.forall_mem_singleton.2 hou,
      List.forall_mem_singleton.2 (List.forall_mem_singleton.2 hmail)⟩)
  have hfresh : Snapshots.empty.FreshFrom 0 := fun _ _ => rfl
  obtain ⟨q', next', es, hfilter, hlater⟩ :=
    fetch_filter hentries hfresh hreaches List.mem_cons_self (f := f) ⟨_, rfl⟩
      fun x hx => hportable x (Query.mem_conditions_of_sends hx)
  obtain ⟨hbefore, hafter⟩ :=
    hlater _ .refl ⟨w.service, (counted.1.fetch w).2.snapshots⟩ hready hlist rfl
  have hkept : (counted.1.fetch ⟨w.service, (counted.1.fetch w).2.snapshots⟩).1 =
      .ok [bob.insert "mail" [.int 1], ann.insert "mail" [.int 2]] := by decide +kernel
  obtain rfl := Except.ok.inj (hbefore.symm.trans hkept)
  refine ⟨q', next', hfilter, ?_⟩
  rw [hafter]
  decide +kernel

end Collection

end DirectoryQuery
