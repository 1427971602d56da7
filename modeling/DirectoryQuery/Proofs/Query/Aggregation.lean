import DirectoryQuery.Proofs.Query.Comparison
import DirectoryQuery.Proofs.Query.Keeping

/-!
# Sweeps of aggregations

A sweep makes an aggregation forget what it took in and then hands it entries one by one.  What it
says afterwards is determined by the entries alone (`Aggregation.sweep_exact`): a count is their
number, and an extremum is the one value of theirs that bounds all of them.

That the extremum over entries is put together from the extrema of single entries makes no
difference.  An extremum is determined by which values there are (`Value.IsBest.unique`), since the
total order tells any two values apart; neither their order nor the way they are grouped matters.
-/

namespace DirectoryQuery

open Std

/-! ## Extrema are determined by the values -/

namespace Value

variable {r : Value → Value → Prop} {best best' : Option Value} {vs ws : List Value} {v m : Value}

/-- The chosen value is one of the values and bounds them all, and one was chosen if there are
any. -/
structure IsBest (r : Value → Value → Prop) (best : Option Value) (vs : List Value) : Prop where
  mem : ∀ m ∈ best, m ∈ vs
  bounds : Bounds r best vs

lemma atMost_antisymm (h : v.AtMost m) (k : m.AtMost v) : v = m :=
  LawfulEqCmp.eq_of_compare (OrientedCmp.isLE_antisymm h k)

lemma atLeast_antisymm (h : v.AtLeast m) (k : m.AtLeast v) : v = m :=
  atMost_antisymm (atMost_iff_atLeast.2 k) (atMost_iff_atLeast.2 h)

namespace IsBest

lemma eq_none_iff (h : IsBest r best vs) : best = none ↔ vs = [] := by
  constructor
  · rintro rfl
    refine List.eq_nil_iff_forall_not_mem.2 fun v hv => ?_
    obtain ⟨m, hm, -⟩ := h.bounds v hv
    exact Option.not_mem_none m hm
  · rintro rfl
    exact Option.eq_none_iff_forall_not_mem.2 fun m hm => absurd (h.mem m hm) List.not_mem_nil

variable (hantisymm : ∀ a b, r a b → r b a → a = b)
include hantisymm

/-- There is one value at most that bounds the values and is one of them. -/
lemma eq_some_iff (h : IsBest r best vs) : best = some m ↔ m ∈ vs ∧ ∀ v ∈ vs, r v m := by
  constructor
  · rintro rfl
    refine ⟨h.mem m rfl, fun v hv => ?_⟩
    obtain ⟨b, hb, hvb⟩ := h.bounds v hv
    rwa [Option.some.inj hb]
  · rintro ⟨hm, hbound⟩
    obtain ⟨b, hb, hmb⟩ := h.bounds m hm
    rw [hantisymm b m (hbound b (h.mem b hb)) hmb] at hb
    exact hb

/-- Only which values there are matters for the best of them. -/
lemma unique (h : IsBest r best vs) (k : IsBest r best' ws) (hsame : ∀ v, v ∈ vs ↔ v ∈ ws) :
    best = best' := by
  refine Option.ext fun m => ?_
  rw [h.eq_some_iff hantisymm, k.eq_some_iff hantisymm]
  simp only [hsame]

end IsBest

lemma mem_foldl {step : Option Value → Value → Option Value}
    (hstep : ∀ best v, step best v = best ∨ step best v = some v) (vs : List Value)
    (best : Option Value) : ∀ m ∈ vs.foldl step best, m ∈ best.toList ++ vs := by
  induction vs generalizing best with
  | nil => simp
  | cons v vs ih =>
    intro m hm
    have hmem := ih (step best v) m hm
    obtain hkeep | hnew := hstep best v
    · rw [hkeep] at hmem
      exact (List.mem_append.1 hmem).elim (List.mem_append_left _)
        fun h => List.mem_append_right _ (List.mem_cons_of_mem v h)
    · rw [hnew] at hmem
      exact List.mem_append_right _ hmem

lemma isBest_greatest? (vs : List Value) : IsBest AtMost (greatest? vs) vs := by
  refine ⟨mem_foldl (fun best v => ?_) vs none, bounds_greatest? vs⟩
  rcases best with - | b
  · exact .inr rfl
  · dsimp only
    split_ifs
    · exact .inl rfl
    · exact .inr rfl

lemma isBest_least? (vs : List Value) : IsBest AtLeast (least? vs) vs := by
  refine ⟨mem_foldl (fun best v => ?_) vs none, bounds_least? vs⟩
  rcases best with - | b
  · exact .inr rfl
  · dsimp only
    split_ifs
    · exact .inr rfl
    · exact .inl rfl

end Value

/-! ## Sweeps of one aggregation -/

namespace Aggregation

open Value

/-- The aggregation after it forgot what it took in and took in some entries. -/
def sweep (a : Aggregation) (es : List Entry) : Aggregation :=
  es.foldl accumulate a.reset

section Extremum

variable {r : Value → Value → Prop} (htrans : ∀ a b c, r a b → r b c → r a c)
  (hrefl : ∀ a, r a a) (hantisymm : ∀ a b, r a b → r b a → a = b)
  {pick : List Value → Option Value} (hpick : ∀ vs, IsBest r (pick vs) vs)
include htrans hrefl hantisymm hpick

/-- The best value so far, compared with the best one of an entry, is the best of all. -/
lemma pick_step (vs ws : List Value) :
    (match pick ws with | some v => pick ((pick vs).toList ++ [v]) | none => pick vs) =
      pick (vs ++ ws) := by
  refine IsBest.unique hantisymm ⟨fun m hm => ?_, ?_⟩ (hpick (vs ++ ws)) fun v => Iff.rfl
  · split at hm
    · rename_i v hv
      obtain hm | hm := List.mem_append.1 ((hpick _).mem m hm)
      · exact List.mem_append_left ws ((hpick vs).mem m (Option.mem_toList.1 hm))
      · rw [List.mem_singleton.1 hm]
        exact List.mem_append_right vs ((hpick ws).mem v hv)
    · exact List.mem_append_left ws ((hpick vs).mem m hm)
  · exact (hpick vs).bounds.extend htrans
      (bounds_step htrans hrefl (fun vs => (hpick vs).bounds) (pick vs) ws)

/-- Taking in entries is choosing from all their values at once. -/
lemma foldl_accumulate {extremum : Option Value → Aggregation} {name : String}
    (hstep : ∀ best e, (extremum best).accumulate e = extremum
      (match pick (e.get name) with | some v => pick (best.toList ++ [v]) | none => best))
    (es : List Entry) (vs : List Value) :
    es.foldl accumulate (extremum (pick vs)) =
      extremum (pick (vs ++ es.flatMap fun e => e.get name)) := by
  induction es generalizing vs with
  | nil => rw [List.flatMap_nil, List.append_nil, List.foldl_nil]
  | cons e es ih =>
    rw [List.foldl_cons, hstep, pick_step htrans hrefl hantisymm hpick, ih, List.flatMap_cons,
      List.append_assoc]

end Extremum

variable (name : String) (best : Option Value) (es : List Entry)

lemma sweep_count (n : Nat) : (count n).sweep es = .count es.length := by
  have hfold : ∀ n, es.foldl accumulate (.count n) = .count (n + es.length) := by
    induction es with
    | nil => exact fun n => rfl
    | cons e es ih =>
      intro n
      rw [List.foldl_cons, accumulate, ih, List.length_cons, Nat.add_assoc, Nat.add_comm 1]
  rw [sweep, reset, hfold, Nat.zero_add]

lemma sweep_max :
    (max name best).sweep es = .max name (greatest? (es.flatMap fun e => e.get name)) :=
  foldl_accumulate (fun _ _ _ => TransCmp.isLE_trans) atMost_self (fun _ _ => atMost_antisymm)
    isBest_greatest? (accumulate_max name) es []

lemma sweep_min :
    (min name best).sweep es = .min name (least? (es.flatMap fun e => e.get name)) :=
  foldl_accumulate (fun _ _ _ => TransCmp.isGE_trans) atLeast_self (fun _ _ => atLeast_antisymm)
    isBest_least? (accumulate_min name) es []

variable {name best es} {es' : List Entry}

lemma isBest_sweep_max :
    IsBest AtMost ((max name best).sweep es).result? (es.flatMap fun e => e.get name) := by
  rw [sweep_max]
  exact isBest_greatest? _

lemma isBest_sweep_min :
    IsBest AtLeast ((min name best).sweep es).result? (es.flatMap fun e => e.get name) := by
  rw [sweep_min]
  exact isBest_least? _

/-- Entries in another order have the same values. -/
lemma sweep_perm (a : Aggregation) (h : es.Perm es') : a.sweep es = a.sweep es' := by
  have hvalues (name : String) (v : Value) : v ∈ (es.flatMap fun e => e.get name) ↔
      v ∈ es'.flatMap fun e => e.get name := (h.flatMap_right _).mem_iff
  rcases a with n | ⟨name, best⟩ | ⟨name, best⟩
  · rw [sweep_count, sweep_count, h.length_eq]
  · rw [sweep_max, sweep_max, (isBest_greatest? _).unique (fun _ _ => atMost_antisymm)
      (isBest_greatest? _) (hvalues name)]
  · rw [sweep_min, sweep_min, (isBest_least? _).unique (fun _ _ => atLeast_antisymm)
      (isBest_least? _) (hvalues name)]

lemma reset_accumulate (a : Aggregation) (e : Entry) : (a.accumulate e).reset = a.reset := by
  rcases a with n | ⟨name, best⟩ | ⟨name, best⟩
  · rfl
  · rw [accumulate_max]
    rfl
  · rw [accumulate_min]
    rfl

end Aggregation

/-! ## Sweeps of several aggregations -/

namespace Aggregations

/-- The aggregations after they forgot what they took in and took in some entries. -/
def sweep (as : Aggregations) (es : List Entry) : Aggregations :=
  es.foldl accumulate as.reset

/-- The aggregations take in the same entries and do not see each other. -/
lemma sweep_eq (as : Aggregations) (es : List Entry) :
    as.sweep es = ⟨as.members.map fun m => (m.1, m.2.sweep es)⟩ := by
  have hfold : ∀ as : Aggregations, es.foldl accumulate as =
      ⟨as.members.map fun m => (m.1, es.foldl Aggregation.accumulate m.2)⟩ := by
    induction es with
    | nil => simp
    | cons e es ih => simp [ih, accumulate]
  simp [sweep, hfold, reset, Aggregation.sweep]

lemma result?_sweep (as : Aggregations) (es : List Entry) (name : String) :
    (as.sweep es).result? name =
      (as.members.find? fun m => m.1 == name).bind fun m => (m.2.sweep es).result? := by
  rw [sweep_eq, result?, List.find?_map, Option.bind_map]
  rfl

lemma reset_accumulate (as : Aggregations) (e : Entry) : (as.accumulate e).reset = as.reset := by
  simp [accumulate, reset, Aggregation.reset_accumulate]

/-- What was taken in is forgotten, however much it was. -/
lemma reset_foldl (as : Aggregations) (es : List Entry) :
    (es.foldl accumulate as).reset = as.reset := by
  induction es generalizing as with
  | nil => rfl
  | cons e es ih => rw [List.foldl_cons, ih, reset_accumulate]

lemma reset_reset (as : Aggregations) : as.reset.reset = as.reset := by
  have hreset (a : Aggregation) : a.reset.reset = a.reset := by
    rcases a with n | ⟨name, best⟩ | ⟨name, best⟩ <;> rfl
  simp [reset, hreset]

end Aggregations

/-! ## Sweeps over the results of a query -/

namespace Query

/-- Aggregating sweeps over the entries that fetching gives, or over those up to the error that it
ends with. -/
lemma aggregate_eq_sweep (q : Query) (as : Aggregations) (w : Workspace) :
    ∃ es, (q.aggregate as w).1 = as.sweep es ∧
      q.fetch w = (match (q.aggregate as w).2.1 with
        | none => .ok es
        | some e => .error e, (q.aggregate as w).2.2) := by
  rcases hcached : q.cached? w.snapshots with - | es
  · have haggregate : q.aggregate as w = (as.sweep (q.collect w).1.reverse, (q.collect w).2) :=
      fold_eq_collect Aggregations.accumulate as.reset
    refine ⟨_, congrArg Prod.fst haggregate, ?_⟩
    rw [haggregate]
    exact fetch_eq_collect hcached
  · obtain ⟨hfetch, -, -, -, haggregate⟩ := evaluations_of_cached hcached
    refine ⟨es, congrArg Prod.fst (haggregate as), ?_⟩
    rw [hfetch, haggregate]

/-- What an earlier sweep left behind makes no difference. -/
lemma aggregate_aggregate (q q' : Query) (as : Aggregations) (w w' : Workspace) :
    q'.aggregate (q.aggregate as w).1 w' = q'.aggregate as w' := by
  obtain ⟨es, hsweep, -⟩ := q.aggregate_eq_sweep as w
  rw [hsweep, aggregate, aggregate, Aggregations.sweep, Aggregations.reset_foldl,
    Aggregations.reset_reset]

end Query

/-! ## What a sweep says -/

namespace Aggregation

open Value

/-- After a sweep a count is the number of the entries.  A greatest or a least value is missing if
no entry has a value of the attribute, and otherwise it is the one value of theirs that bounds all
of them.  None of this depends on what was taken in before or on the order of the entries, and an
entry that holds the same values has the same computed extremum.  Several aggregations answer as
each of them would alone.  Over a query they sweep over what fetching gives, or over what came
before its error, and what an earlier sweep left behind, whatever it ended with, makes no
difference. -/
theorem sweep_exact (es : List Entry) (name : String) :
    (∀ n, ((count n).sweep es).result? = some (.int (Int64.ofNat es.length)) ∧
      (es.length ≤ Int64.maxValue.toInt → (Int64.ofNat es.length).toInt = es.length)) ∧
    (∀ best, (((max name best).sweep es).result? = none ↔ ∀ e ∈ es, e.get name = []) ∧
      ∀ m, ((max name best).sweep es).result? = some m ↔
        (∃ e ∈ es, m ∈ e.get name) ∧ ∀ e ∈ es, ∀ v ∈ e.get name, v.AtMost m) ∧
    (∀ best, (((min name best).sweep es).result? = none ↔ ∀ e ∈ es, e.get name = []) ∧
      ∀ m, ((min name best).sweep es).result? = some m ↔
        (∃ e ∈ es, m ∈ e.get name) ∧ ∀ e ∈ es, ∀ v ∈ e.get name, v.AtLeast m) ∧
    (∀ (a : Aggregation) es', es.Perm es' → a.sweep es = a.sweep es') ∧
    (∀ best (e : Entry) other, (∀ v, v ∈ e.get other ↔ ∃ o ∈ es, v ∈ o.get name) →
      Annotation.compute (.max other) e = .ofOption ((max name best).sweep es).result? ∧
      Annotation.compute (.min other) e = .ofOption ((min name best).sweep es).result?) ∧
    (∀ as : Aggregations,
      (as.sweep es).results = .ofPairs (as.members.map fun m => (m.1, (m.2.sweep es).result?)) ∧
      ∀ other, (as.sweep es).result? other =
        (as.members.find? fun m => m.1 == other).bind fun m => (m.2.sweep es).result?) ∧
    ∀ (q : Query) as w,
      (∃ found, (q.aggregate as w).1 = as.sweep found ∧
        q.fetch w = (match (q.aggregate as w).2.1 with
          | none => .ok found
          | some e => .error e, (q.aggregate as w).2.2)) ∧
      ∀ (q' : Query) w', q'.aggregate (q.aggregate as w).1 w' = q'.aggregate as w' := by
  have hextremum {r : Value → Value → Prop} (hantisymm : ∀ a b, r a b → r b a → a = b)
      {best : Option Value} (h : IsBest r best (es.flatMap fun e => e.get name)) :
      (best = none ↔ ∀ e ∈ es, e.get name = []) ∧
        ∀ m, best = some m ↔
          (∃ e ∈ es, m ∈ e.get name) ∧ ∀ e ∈ es, ∀ v ∈ e.get name, r v m := by
    refine ⟨h.eq_none_iff.trans List.flatMap_eq_nil_iff, fun m => ?_⟩
    rw [h.eq_some_iff hantisymm, List.mem_flatMap, List.forall_mem_flatMap]
  refine ⟨fun n => ⟨?_, fun hlength => ?_⟩,
    fun best => hextremum (fun _ _ => atMost_antisymm) isBest_sweep_max,
    fun best => hextremum (fun _ _ => atLeast_antisymm) isBest_sweep_min,
    fun a es' => sweep_perm a, fun best e other hvalues => ?_, fun as => ⟨?_, as.result?_sweep es⟩,
    fun q as w => ⟨q.aggregate_eq_sweep as w, fun q' w' => q.aggregate_aggregate q' as w w'⟩⟩
  · rw [sweep_count]
    rfl
  · have hmax : Int64.maxValue.toInt = 2 ^ 63 - 1 := by decide
    exact Int64.toInt_ofNat_of_lt (by omega)
  · have hsame : ∀ v, v ∈ e.get other ↔ v ∈ es.flatMap fun e => e.get name := by
      intro v
      rw [hvalues, List.mem_flatMap]
    constructor
    · exact congrArg Computed.ofOption
        ((isBest_greatest? _).unique (fun _ _ => atMost_antisymm) isBest_sweep_max hsame)
    · exact congrArg Computed.ofOption
        ((isBest_least? _).unique (fun _ _ => atLeast_antisymm) isBest_sweep_min hsame)
  · rw [as.sweep_eq, Aggregations.results, List.map_map]
    rfl

/-- The same number is there as text and as an integer, one entry has no value, and the
aggregations come from another sweep. -/
theorem sweep_exact_mixed :
    let ann := (Entry.named "uid=ann").insert "level" [.text "9", .int 10]
    let bob := Entry.named "uid=bob"
    let cyd := (Entry.named "uid=cyd").insert "Level" [.text "10", .text "9"]
    let all := (Entry.named "uid=all").insert "levels"
      [.text "9", .int 10, .text "10", .text "9"]
    [ann, bob, cyd].length ≤ Int64.maxValue.toInt ∧
      ((count 7).sweep [ann, bob, cyd]).result? = some (.int (Int64.ofNat 3)) ∧
      (Int64.ofNat 3).toInt = 3 ∧ [ann, bob, cyd].Perm [cyd, ann, bob] ∧
      (max "LEVEL" none).sweep [ann, bob, cyd] = (max "LEVEL" none).sweep [cyd, ann, bob] ∧
      (∀ v, v ∈ all.get "levels" ↔ ∃ o ∈ [ann, bob, cyd], v ∈ o.get "LEVEL") ∧
      Computed.ofOption ((max "LEVEL" (some (.bytes [0]))).sweep [ann, bob, cyd]).result? =
        .one (.text "10") ∧
      Computed.ofOption ((min "LEVEL" (some (.int 0))).sweep [ann, bob, cyd]).result? =
        .one (.text "9") := by
  intro ann bob cyd all
  have hlength : [ann, bob, cyd].length ≤ Int64.maxValue.toInt := by decide
  have hperm : [ann, bob, cyd].Perm [cyd, ann, bob] := by decide +kernel
  have hvalues : ∀ v, v ∈ all.get "levels" ↔ ∃ o ∈ [ann, bob, cyd], v ∈ o.get "LEVEL" := by
    have hall : all.get "levels" = [.text "9", .int 10, .text "10", .text "9"] := by decide +kernel
    have hann : ann.get "LEVEL" = [.text "9", .int 10] := by decide +kernel
    have hbob : bob.get "LEVEL" = [] := by decide +kernel
    have hcyd : cyd.get "LEVEL" = [.text "10", .text "9"] := by decide +kernel
    intro v
    simp only [hall, hann, hbob, hcyd, List.mem_cons, List.not_mem_nil, exists_eq_or_imp, or_false,
      exists_eq_left, false_or, or_assoc]
  obtain ⟨hcount, -, -, horder, hcomputed, -⟩ := sweep_exact [ann, bob, cyd] "LEVEL"
  obtain ⟨hnumber, hexact⟩ := hcount 7
  obtain ⟨hmax, -⟩ := hcomputed (some (.bytes [0])) all "levels" hvalues
  obtain ⟨-, hmin⟩ := hcomputed (some (.int 0)) all "levels" hvalues
  have hten : Annotation.compute (.max "levels") all = .one (.text "10") := by decide +kernel
  have hnine : Annotation.compute (.min "levels") all = .one (.text "9") := by decide +kernel
  exact ⟨hlength, hnumber, hexact hlength, hperm, horder _ _ hperm, hvalues, hmax.symm.trans hten,
    hmin.symm.trans hnine⟩

end Aggregation

end DirectoryQuery
