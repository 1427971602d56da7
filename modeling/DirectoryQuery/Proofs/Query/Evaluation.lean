import DirectoryQuery.Proofs.Query.Progress

/-!
# What evaluations give

On a ready service every evaluation of a query gives what the query comes to: all of it
(`Query.fetch_eq_outcome`), the number of its entries, the first one, or what aggregations make of
them.  It makes no difference whether the result was kept, nor that an entry at a position is asked
for through a window that ends behind it (`Query.get_of_outcome`).
-/

namespace DirectoryQuery

/-! ## Single positions -/

namespace Window

lemma selects_single_iff {index position : Nat} :
    (single index).selects position = true ↔ index ≤ position := by
  rw [selects, Bool.and_eq_true, decide_eq_true_iff, single]
  simp [Nat.mod_one]

lemma isOver_single_iff {index position : Nat} :
    (single index).isOver position = true ↔ index < position ∨ Text.maxSize ≤ position := by
  rw [isOver, single, Option.any_some, decide_eq_true_iff]
  omega

/-- A window on a single position lets through the entry there, if positions can be that high. -/
lemma cut_single {index position : Nat} {es : List Entry} (hposition : position ≤ index)
    (hlength : position + es.length ≤ Text.maxSize) :
    (single index).cut position es = es[index - position]?.toList := by
  induction es generalizing position with
  | nil => rfl
  | cons e es ih =>
    rw [List.length_cons] at hlength
    have hover : ¬(single index).isOver position = true := by
      rw [isOver_single_iff]
      omega
    rw [cut, if_neg hover]
    by_cases hselects : (single index).selects position = true
    · obtain rfl : position = index := Nat.le_antisymm hposition (selects_single_iff.1 hselects)
      have hbehind : (single position).isOver (position + 1) = true :=
        isOver_single_iff.2 (.inl (Nat.lt_succ_self position))
      rw [if_pos hselects, cut_of_isOver hbehind, Nat.sub_self]
      rfl
    · rw [selects_single_iff, Nat.not_le] at hselects
      have hnext : index - position = index - (position + 1) + 1 := by omega
      rw [if_neg (mt selects_single_iff.1 (Nat.not_le.2 hselects)), ih hselects (by omega), hnext]
      rfl

end Window

/-! ## Counts -/

namespace Aggregations

variable {as : Aggregations} {name : String} {n : Nat}

lemma count_mem_accumulate (h : (name, .count n) ∈ as.members) (es : List Entry) :
    (name, .count (n + es.length)) ∈ (es.foldl accumulate as).members := by
  induction es generalizing as n with
  | nil => exact h
  | cons e es ih =>
    rw [List.length_cons, Nat.add_comm es.length 1, ← Nat.add_assoc]
    exact ih (List.mem_map_of_mem (f := fun m => (m.1, m.2.accumulate e)) h)

/-- A count that starts afresh counts all entries. -/
lemma count_mem_reset (h : (name, .count n) ∈ as.members) (es : List Entry) :
    (name, .count es.length) ∈ (es.foldl accumulate as.reset).members := by
  rw [← Nat.zero_add es.length]
  exact count_mem_accumulate (List.mem_map_of_mem (f := fun m => (m.1, m.2.reset)) h) es

end Aggregations

/-! ## Results -/

/-- All entries, or the error. -/
def Outcome.result (o : Outcome) : Except QueryError (List Entry) :=
  match o.error with
  | none => .ok o.entries
  | some e => .error e

lemma Outcome.result_eq_ok_iff {o : Outcome} {es : List Entry} :
    o.result = .ok es ↔ o = ⟨es, none⟩ := by
  obtain ⟨entries, error⟩ := o
  cases error with
  | none => simp [result]
  | some e => simp [result]

namespace Results

variable {d : Directory} {r : Results} {w : Workspace} {es : List Entry}

/-- The first entry is that of the outcome. -/
lemma first_of_outcome (hr : r.stream.Sound d w.service) (hready : w.service.Ready)
    (houtcome : r.stream.outcome w.snapshots d = ⟨es, none⟩) : (r.first w).1 = .ok es.head? := by
  rcases hnext : r.next w with ⟨answer, r', w'⟩
  obtain ⟨hanswer, -⟩ := next_answer hr hready hnext
  rw [houtcome] at hanswer
  rw [first, hnext, hanswer]
  cases es with
  | nil => rfl
  | cons e es => rfl

end Results

namespace Query

variable {q : Query} {w : Workspace} {d : Directory} {rs : List Entry}

lemma outcome_of_cached {snapshots : Snapshots} {entries : List Entry}
    (h : q.cached? snapshots = some entries) : q.outcome snapshots d = ⟨entries, none⟩ := by
  cases q with
  | empty => cases h
  | search tag source | staged tag stage below =>
    have hkept : snapshots.get? tag.id = some entries := h
    simp only [outcome, hkept]

section Ready

variable (hready : w.service.Ready) (hentries : w.service.directory.entries = d.entries)
  (hroom : w.service.directory.searchesRun + 1 < Text.maxSize)
include hready hentries hroom

lemma fold_outcome {β : Type} (f : β → Entry → β) (init : β) (q : Query) :
    ∃ w', (q.results w.snapshots).fold f init w =
      ((q.outcome w.snapshots d).entries.foldl f init, (q.outcome w.snapshots d).error, w') := by
  have hsound : (q.results w.snapshots).stream.Sound d w.service :=
    Stream.sound_stream hready hentries hroom q
  have houtcome : (q.results w.snapshots).stream.outcome w.snapshots d =
      q.outcome w.snapshots d := Stream.outcome_stream q
  rw [← houtcome]
  exact Results.foldWithin_outcome f init hsound hready (Nat.le_refl _)

/-- Fetching a query gives what it comes to. -/
theorem fetch_eq_outcome (q : Query) : (q.fetch w).1 = (q.outcome w.snapshots d).result := by
  rw [fetch]
  cases hcached : q.cached? w.snapshots with
  | some entries =>
    rw [outcome_of_cached hcached]
    rfl
  | none =>
    obtain ⟨w', hfold⟩ := fold_outcome hready hentries hroom (fun acc e => e :: acc) [] q
    rw [List.foldl_flip_cons_eq_append', List.append_nil] at hfold
    simp only [Results.toList, hfold, Outcome.result]
    cases (q.outcome w.snapshots d).error with
    | none => exact congrArg Except.ok (List.reverse_reverse _)
    | some e => rfl

variable (houtcome : q.outcome w.snapshots d = ⟨rs, none⟩)
include houtcome

omit hready hentries hroom in
lemma eq_of_cached {es : List Entry} (h : q.cached? w.snapshots = some es) : es = rs := by
  rw [outcome_of_cached h] at houtcome
  exact congrArg Outcome.entries houtcome

lemma count_of_outcome : (q.count w).1 = .ok rs.length := by
  rw [count]
  cases hcached : q.cached? w.snapshots with
  | some es => rw [eq_of_cached houtcome hcached]
  | none =>
    obtain ⟨w', hfold⟩ := fold_outcome hready hentries hroom (fun n _ => n + 1) 0 q
    simp only [hfold, houtcome, List.foldl_add_const, Nat.one_mul, Nat.zero_add]

/-- Asking whether there are no entries counts them. -/
lemma isEmpty_of_outcome : q.isEmpty w = (.ok rs.isEmpty, (q.count w).2) := by
  have hcount := count_of_outcome hready hentries hroom houtcome
  rcases hcounted : q.count w with ⟨counted, w'⟩
  obtain rfl : counted = .ok rs.length := by rw [← hcount, hcounted]
  cases q with
  | empty =>
    cases houtcome
    cases hcounted
    rfl
  | search tag source | staged tag stage below =>
    simp only [isEmpty, isKnownEmpty, hcounted, Bool.false_eq_true, if_false]
    cases rs <;> rfl

lemma one_of_outcome : (q.one w).1 = .ok rs.head? :=
  Results.first_of_outcome (Stream.sound_stream hready hentries hroom q) hready
    ((Stream.outcome_stream q).trans houtcome)

lemma get_of_outcome (hlength : rs.length ≤ Text.maxSize) (index : Nat) :
    (q.get index w).1 = .ok rs[index]? := by
  rw [get]
  cases hcached : q.cached? w.snapshots with
  | some es => rw [eq_of_cached houtcome hcached]
  | none =>
    have hsound : (q.stream w.snapshots).Sound d w.service :=
      Stream.sound_stream hready hentries hroom q
    have hwindow : (Stream.sliced (.single index) 0 (q.stream w.snapshots)).outcome w.snapshots d =
        ⟨rs[index]?.toList, none⟩ := by
      have hall : 0 + rs.length ≤ Text.maxSize := by omega
      rw [Stream.outcome, Stream.outcome_stream, houtcome, Outcome.cut, ite_self,
        Window.cut_single (Nat.zero_le index) hall, Nat.sub_zero]
    have hsliced : (Stream.sliced (.single index) 0 (q.stream w.snapshots)).Sound d w.service :=
      ⟨hsound.fits, hsound.serves⟩
    refine (Results.first_of_outcome (r := ⟨_, none⟩) hsliced hready hwindow).trans ?_
    cases rs[index]? <;> rfl

lemma aggregate_of_outcome (as : Aggregations) :
    (q.aggregate as w).1 = rs.foldl Aggregations.accumulate as.reset ∧
      (q.aggregate as w).2.1 = none := by
  obtain ⟨w', hfold⟩ := fold_outcome hready hentries hroom Aggregations.accumulate as.reset q
  rw [aggregate, hfold, houtcome]
  exact ⟨rfl, rfl⟩

end Ready

end Query

end DirectoryQuery
