import DirectoryQuery.Filter.Matcher
import DirectoryQuery.Proofs.Query.Sorting
import DirectoryQuery.Query.Aggregation
import DirectoryQuery.Query.Annotation

/-!
# Comparisons and the order of values

Conditions compare values by `Value.looseCompare`; sorting and extrema use `Value.totalCompare`.
Where a comparison tells two values apart, the total order puts them the same way round, but for
two texts: a comparison takes these character by character, the total order by number as far as
they have one.  `Value.isContrary` tells which texts come out reversed, as `10` and `9` do, and no
other values do (`Value.totalCompare_of_looseCompare`).

What the total order says of two values is passed on to everything that uses it: to the first
values of sorted entries (`SortKey.head_of_compareBy`), to the extrema of some values
(`Value.bounds_greatest?`) and to those over entries (`Aggregation.exists_max`).
-/

namespace DirectoryQuery

open Std

namespace Value

variable {v o m : Value}

/-! ## The two comparisons -/

/-- The order by number.  What has no number comes last, all of it together. -/
def byNumber (v o : Value) : Ordering :=
  match v.number?, o.number? with
  | some m, some n => Ord.compare m n
  | some _, none => .lt
  | none, some _ => .gt
  | none, none => .eq

/-- Whether two values are texts of which one comes first by number and the other by character. -/
def isContrary (v o : Value) : Bool :=
  match v, o with
  | .text s, .text t => v.byNumber o != .eq && v.byNumber o == (Ord.compare s t).swap
  | _, _ => false

lemma totalCompare_eq_then (v o : Value) :
    v.totalCompare o = (v.byNumber o).then (v.compare o) := by
  rw [totalCompare, byNumber]
  cases v.number? <;> cases o.number? <;> rfl

/-- Where an order is no tie, what is put in front of it keeps it, turns it round or is a tie. -/
lemma then_eq_ite {first order : Ordering} (hne : order ≠ .eq) :
    first.then order = if first != .eq && first == order.swap then order.swap else order := by
  cases first <;> cases order <;> first | rfl | exact absurd rfl hne

lemma then_of_ne {order : Ordering} (hne : order ≠ .eq) (behind : Ordering) :
    order.then behind = order := by
  cases order <;> first | rfl | exact absurd rfl hne

/-- The total order reverses what a comparison says of contrary texts, and nothing else. -/
lemma totalCompare_of_looseCompare {order : Ordering} (h : v.looseCompare o = some order)
    (hne : order ≠ .eq) :
    v.totalCompare o = if v.isContrary o then order.swap else order := by
  rw [totalCompare_eq_then]
  cases v <;> cases o
  case text.text s t =>
    cases h
    exact then_eq_ite hne
  -- a number on either side: the comparison is the one by number
  case int.text m s =>
    obtain ⟨n, hn, rfl⟩ := Option.map_eq_some_iff.1 h
    have hnumber : byNumber (.int m) (.text s) = Ord.compare m n := by
      rw [byNumber, number?, number?, hn]
    rw [hnumber, then_of_ne hne]
    rfl
  case text.int s n =>
    obtain ⟨m, hm, rfl⟩ := Option.map_eq_some_iff.1 h
    have hnumber : byNumber (.text s) (.int n) = Ord.compare m n := by
      rw [byNumber, number?, number?, hm]
    rw [hnumber, then_of_ne hne]
    rfl
  case int.int m n =>
    cases h
    exact then_of_ne hne _
  -- no numbers: the comparison is the plain order
  case bool.bool => exact Option.some.inj h
  case bytes.bytes => exact Option.some.inj h
  all_goals cases h

/-! ## The lookups of comparison -/

/-- The value passes the test of a lookup that takes one value. -/
def Passes (lookup : Lookup) (v o : Value) : Prop :=
  ∀ field, ∃ test, Condition.singleTest? lookup field o = some test ∧ test v = true

lemma passes_gt_iff : v.Passes .gt o ↔ v.looseCompare o = some .gt := by
  simp [Passes, Condition.singleTest?, ordered, Option.any_eq_true]

lemma passes_lt_iff : v.Passes .lt o ↔ v.looseCompare o = some .lt := by
  simp [Passes, Condition.singleTest?, ordered, Option.any_eq_true]

/-- Contrary values are texts, one of them numeric, and a comparison tells them apart. -/
lemma passes_of_isContrary (h : v.isContrary o = true) :
    (v.Passes .gt o ∨ v.Passes .lt o) ∧
      ∃ s t, v = .text s ∧ o = .text t ∧ (numericText? s ≠ none ∨ numericText? t ≠ none) := by
  cases v <;> cases o
  case text.text s t =>
    rw [isContrary, Bool.and_eq_true, bne_iff_ne, beq_iff_eq] at h
    refine ⟨?_, s, t, rfl, rfl, ?_⟩
    · rw [passes_gt_iff, passes_lt_iff, looseCompare]
      cases hst : Ord.compare s t with
      | eq => exact absurd (h.2.trans (by rw [hst]; rfl)) h.1
      | lt => exact .inr rfl
      | gt => exact .inl rfl
    · by_contra hno
      obtain ⟨hs, ht⟩ := not_or.1 hno
      rw [not_not] at hs ht
      exact h.1 (by rw [byNumber, number?, number?, hs, ht])
  all_goals cases h

/-- A value that passes a comparison with another one stands on the same side of it in the total
order, if the two are not contrary texts, and otherwise on the other side. -/
lemma totalCompare_of_passes :
    (v.Passes .gt o → v.totalCompare o = if v.isContrary o then .lt else .gt) ∧
      (v.Passes .lt o → v.totalCompare o = if v.isContrary o then .gt else .lt) :=
  ⟨fun h => totalCompare_of_looseCompare (passes_gt_iff.1 h) (by decide),
    fun h => totalCompare_of_looseCompare (passes_lt_iff.1 h) (by decide)⟩

/-- Contrary values are told apart by a comparison, and put the other way round by the total
order. -/
lemma reversed_of_isContrary (h : v.isContrary o = true) :
    v.Passes .gt o ∧ v.totalCompare o = .lt ∨ v.Passes .lt o ∧ v.totalCompare o = .gt := by
  obtain hgt | hlt := (passes_of_isContrary h).1
  · exact .inl ⟨hgt, (totalCompare_of_passes.1 hgt).trans (if_pos h)⟩
  · exact .inr ⟨hlt, (totalCompare_of_passes.2 hlt).trans (if_pos h)⟩

/-- The comparisons and the total order agree on two values unless these are contrary. -/
lemma agrees_iff :
    (v.Passes .gt o → v.totalCompare o = .gt) ∧ (v.Passes .lt o → v.totalCompare o = .lt) ↔
      v.isContrary o = false := by
  constructor
  · rintro ⟨hgt, hlt⟩
    by_contra hno
    obtain ⟨hpasses, horder⟩ | ⟨hpasses, horder⟩ :=
      reversed_of_isContrary (eq_true_of_ne_false hno)
    · cases (hgt hpasses).symm.trans horder
    · cases (hlt hpasses).symm.trans horder
  · intro hno
    have horder := totalCompare_of_passes (v := v) (o := o)
    rw [hno] at horder
    exact horder

lemma isContrary_of_isLE (hle : (v.totalCompare o).isLE = true) (h : v.Passes .gt o) :
    v.isContrary o = true := by
  by_contra hno
  rw [totalCompare_of_passes.1 h, if_neg hno] at hle
  cases hle

lemma isContrary_of_isGE (hge : (v.totalCompare o).isGE = true) (h : v.Passes .lt o) :
    v.isContrary o = true := by
  by_contra hno
  rw [totalCompare_of_passes.2 h, if_neg hno] at hge
  cases hge

/-! ## Extrema -/

/-- Every value is related to the one that was chosen, and one was chosen if there are any. -/
def Bounds (r : Value → Value → Prop) (best : Option Value) (vs : List Value) : Prop :=
  ∀ v ∈ vs, ∃ m ∈ best, r v m

section Extrema

variable {r : Value → Value → Prop}

lemma bounds_one {v m : Value} (h : r v m) : Bounds r (some m) [v] := by
  intro b hb
  obtain rfl := List.mem_singleton.1 hb
  exact ⟨m, rfl, h⟩

lemma bounds_two {a v m : Value} (ha : r a m) (hv : r v m) : Bounds r (some m) [a, v] :=
  List.forall_mem_cons.2 ⟨⟨m, rfl, ha⟩, bounds_one hv⟩

lemma bounds_self (hrefl : ∀ a, r a a) (best : Option Value) : Bounds r best best.toList :=
  fun v hv => ⟨v, Option.mem_toList.1 hv, hrefl v⟩

variable (htrans : ∀ a b c, r a b → r b c → r a c)
include htrans

lemma Bounds.extend {best next : Option Value} {vs ws : List Value} (h : Bounds r best vs)
    (hnext : Bounds r next (best.toList ++ ws)) : Bounds r next (vs ++ ws) := by
  intro v hv
  rcases List.mem_append.1 hv with hv | hv
  · obtain ⟨b, hb, hvb⟩ := h v hv
    obtain ⟨m, hm, hbm⟩ := hnext b (List.mem_append_left ws (Option.mem_toList.2 hb))
    exact ⟨m, hm, htrans v b m hvb hbm⟩
  · exact hnext v (List.mem_append_right _ hv)

lemma bounds_foldl {step : Option Value → Value → Option Value} (hrefl : ∀ a, r a a)
    (hstep : ∀ best v, Bounds r (step best v) (best.toList ++ [v])) (vs : List Value)
    (best : Option Value) : Bounds r (vs.foldl step best) (best.toList ++ vs) := by
  induction vs generalizing best with
  | nil =>
    rw [List.append_nil]
    exact bounds_self hrefl best
  | cons v vs ih =>
    rw [List.append_cons]
    exact Bounds.extend htrans (hstep best v) (ih (step best v))

end Extrema

/-- The first value does not come behind the second one in the total order. -/
def AtMost (v m : Value) : Prop :=
  (v.totalCompare m).isLE = true

/-- The first value does not come before the second one in the total order. -/
def AtLeast (v m : Value) : Prop :=
  (v.totalCompare m).isGE = true

lemma atMost_self (v : Value) : v.AtMost v := by
  have hself : v.totalCompare v = .eq := ReflCmp.compare_self
  rw [AtMost, hself]
  rfl

lemma atLeast_self (v : Value) : v.AtLeast v := by
  have hself : v.totalCompare v = .eq := ReflCmp.compare_self
  rw [AtLeast, hself]
  rfl

lemma atMost_of_ne_gt (h : v.totalCompare o ≠ .gt) : v.AtMost o := by
  rwa [AtMost, Ordering.isLE_iff_ne_gt]

lemma atLeast_of_eq_gt (h : v.totalCompare o = .gt) : v.AtLeast o := by
  rw [AtLeast, h]
  rfl

lemma atMost_iff_atLeast : v.AtMost o ↔ o.AtLeast v :=
  OrientedCmp.isGE_iff_isLE.symm

/-- No value is behind the greatest one. -/
lemma bounds_greatest? (vs : List Value) : Bounds AtMost (greatest? vs) vs := by
  refine bounds_foldl (fun a b c => TransCmp.isLE_trans) atMost_self (fun best v => ?_) vs none
  cases best with
  | none => exact bounds_one (atMost_self v)
  | some a =>
    dsimp only
    split_ifs with hgt
    · exact bounds_two (atMost_self a) (atMost_iff_atLeast.2 (atLeast_of_eq_gt hgt))
    · exact bounds_two (atMost_of_ne_gt hgt) (atMost_self v)

/-- No value is before the least one. -/
lemma bounds_least? (vs : List Value) : Bounds AtLeast (least? vs) vs := by
  refine bounds_foldl (fun a b c => TransCmp.isGE_trans) atLeast_self (fun best v => ?_) vs none
  cases best with
  | none => exact bounds_one (atLeast_self v)
  | some a =>
    dsimp only
    split_ifs with hgt
    · exact bounds_two (atLeast_of_eq_gt hgt) (atLeast_self v)
    · exact bounds_two (atLeast_self a) (atMost_iff_atLeast.1 (atMost_of_ne_gt hgt))

end Value

namespace Aggregation

open Value (Bounds)

section Fold

variable {r : Value → Value → Prop} (htrans : ∀ a b c, r a b → r b c → r a c)
  (hrefl : ∀ a, r a a) {pick : List Value → Option Value} (hpick : ∀ vs, Bounds r (pick vs) vs)
include htrans hrefl hpick

/-- The extremum of an entry and the best value so far. -/
lemma bounds_step (best : Option Value) (vs : List Value) :
    Bounds r (match pick vs with | some v => pick (best.toList ++ [v]) | none => best)
      (best.toList ++ vs) := by
  have hvs := hpick vs
  cases hv : pick vs with
  | none =>
    have hnil : vs = [] := by
      refine List.eq_nil_iff_forall_not_mem.2 fun b hb => ?_
      obtain ⟨m, hm, -⟩ := hvs b hb
      rw [hv] at hm
      cases hm
    rw [hnil, List.append_nil]
    exact Value.bounds_self hrefl best
  | some v =>
    have hboth := hpick (best.toList ++ [v])
    refine List.forall_mem_append.2 ⟨(List.forall_mem_append.1 hboth).1, fun b hb => ?_⟩
    obtain ⟨_, hm, hbv⟩ := hvs b hb
    rw [hv] at hm
    obtain rfl := Option.some.inj hm
    obtain ⟨m, hm, hvm⟩ := hboth v (by simp)
    exact ⟨m, hm, htrans b v m hbv hvm⟩

/-- An extremum over entries bounds the values of every one of them. -/
lemma bounds_accumulate {extremum : Option Value → Aggregation} {name : String}
    (hstep : ∀ best e, (extremum best).accumulate e = extremum
      (match pick (e.get name) with | some v => pick (best.toList ++ [v]) | none => best))
    (es : List Entry) (best : Option Value) :
    ∃ best', es.foldl accumulate (extremum best) = extremum best' ∧
      Bounds r best' (best.toList ++ es.flatMap fun e => e.get name) := by
  induction es generalizing best with
  | nil => exact ⟨best, rfl, by simpa using Value.bounds_self hrefl best⟩
  | cons e es ih =>
    obtain ⟨best', hfold, hbounds⟩ := ih _
    rw [List.foldl_cons, hstep, hfold, List.flatMap_cons, ← List.append_assoc]
    exact ⟨best', rfl, (bounds_step htrans hrefl hpick best (e.get name)).extend htrans hbounds⟩

end Fold

lemma accumulate_max (name : String) (best : Option Value) (e : Entry) :
    (max name best).accumulate e = .max name
      (match Value.greatest? (e.get name) with
        | some v => Value.greatest? (best.toList ++ [v])
        | none => best) := by
  rw [accumulate]
  cases Value.greatest? (e.get name) <;> rfl

lemma accumulate_min (name : String) (best : Option Value) (e : Entry) :
    (min name best).accumulate e = .min name
      (match Value.least? (e.get name) with
        | some v => Value.least? (best.toList ++ [v])
        | none => best) := by
  rw [accumulate]
  cases Value.least? (e.get name) <;> rfl

variable {name : String} {es : List Entry} {e : Entry} {v : Value}

/-- No value of the entries is behind their greatest one. -/
lemma exists_max (he : e ∈ es) (hv : v ∈ e.get name) :
    ∃ m, (es.foldl accumulate (.max name none)).result? = some m ∧ v.AtMost m := by
  obtain ⟨best, hfold, hbounds⟩ := bounds_accumulate (fun a b c => TransCmp.isLE_trans)
    Value.atMost_self Value.bounds_greatest? (accumulate_max name) es none
  rw [hfold]
  exact hbounds v (List.mem_flatMap.2 ⟨e, he, hv⟩)

/-- No value of the entries is before their least one. -/
lemma exists_min (he : e ∈ es) (hv : v ∈ e.get name) :
    ∃ m, (es.foldl accumulate (.min name none)).result? = some m ∧ v.AtLeast m := by
  obtain ⟨best, hfold, hbounds⟩ := bounds_accumulate (fun a b c => TransCmp.isGE_trans)
    Value.atLeast_self Value.bounds_least? (accumulate_min name) es none
  rw [hfold]
  exact hbounds v (List.mem_flatMap.2 ⟨e, he, hv⟩)

end Aggregation

/-! ## Sorted entries -/

namespace SortKey

variable {k : SortKey} {keys : List SortKey} {a b : Entry} {v o : Value}

lemma isLE_of_isLE_then {first order : Ordering} (h : (first.then order).isLE = true) :
    first.isLE = true := by
  cases first <;> first | rfl | exact h

lemma isGE_of_isLE_swap_then {first order : Ordering}
    (h : (first.then order).swap.isLE = true) : first.isGE = true := by
  cases first <;> first | rfl | exact h

/-- The first values of sorted entries are in the order of the first key. -/
lemma head_of_compareBy (h : (compareBy (k :: keys) a b).isLE = true)
    (hv : v ∈ (a.get k.name).head?) (ho : o ∈ (b.get k.name).head?) :
    if k.descending then v.AtLeast o else v.AtMost o := by
  have hk : (k.compare a b).isLE = true := isLE_of_isLE_then h
  obtain ⟨vs, hvs⟩ := List.head?_eq_some_iff.1 hv
  obtain ⟨os, hos⟩ := List.head?_eq_some_iff.1 ho
  rw [compare, hvs, hos] at hk
  change (if k.descending then ((v.totalCompare o).then (compareEach vs os)).swap
    else (v.totalCompare o).then (compareEach vs os)).isLE = true at hk
  split_ifs at hk ⊢
  · exact isGE_of_isLE_swap_then hk
  · exact isLE_of_isLE_then hk

end SortKey

/-! ## Agreement -/

/-- Comparisons and the total order agree on two values exactly if these are not contrary, which two
texts can be.  So does whatever uses the total order: entries sorted by a key, extrema over entries,
and computed extrema.  Where one of these puts two values the other way round than a comparison,
they are contrary. -/
theorem Value.order_agrees (v o : Value) :
    ((v.Passes .gt o → v.totalCompare o = .gt) ∧ (v.Passes .lt o → v.totalCompare o = .lt) ↔
      v.isContrary o = false) ∧
    (v.isContrary o = true →
      (v.Passes .gt o ∧ v.totalCompare o = .lt ∨ v.Passes .lt o ∧ v.totalCompare o = .gt) ∧
      ∃ s t, v = .text s ∧ o = .text t ∧ (numericText? s ≠ none ∨ numericText? t ≠ none)) ∧
    (∀ k keys es, (SortKey.sort (k :: keys) es).Pairwise fun a b =>
      v ∈ (a.get k.name).head? → o ∈ (b.get k.name).head? →
        v.Passes (if k.descending then .lt else .gt) o → v.isContrary o = true) ∧
    (∀ name (es : List Entry), ∀ e ∈ es, v ∈ e.get name →
      (∃ m, (es.foldl Aggregation.accumulate (.max name none)).result? = some m ∧
        (v.Passes .gt m → v.isContrary m = true)) ∧
      ∃ m, (es.foldl Aggregation.accumulate (.min name none)).result? = some m ∧
        (v.Passes .lt m → v.isContrary m = true)) ∧
    ∀ name (e : Entry), v ∈ e.get name →
      (∃ m, ((.max name : Annotation).compute e).values = [m] ∧
        (v.Passes .gt m → v.isContrary m = true)) ∧
      ∃ m, ((.min name : Annotation).compute e).values = [m] ∧
        (v.Passes .lt m → v.isContrary m = true) := by
  refine ⟨agrees_iff, fun h => ⟨reversed_of_isContrary h, (passes_of_isContrary h).2⟩,
    fun k keys es => ?_, fun name es e he hv => ⟨?_, ?_⟩, fun name e hv => ⟨?_, ?_⟩⟩
  · refine (SortKey.pairwise_sort (k :: keys) es).imp fun hle hv ho hpasses => ?_
    have hheads := SortKey.head_of_compareBy hle hv ho
    split_ifs at hheads hpasses
    · exact isContrary_of_isGE hheads hpasses
    · exact isContrary_of_isLE hheads hpasses
  · obtain ⟨m, hm, hle⟩ := Aggregation.exists_max he hv
    exact ⟨m, hm, isContrary_of_isLE hle⟩
  · obtain ⟨m, hm, hge⟩ := Aggregation.exists_min he hv
    exact ⟨m, hm, isContrary_of_isGE hge⟩
  · obtain ⟨m, hm, hle⟩ := bounds_greatest? (e.get name) v hv
    exact ⟨m, by simp [Option.mem_def.1 hm, Annotation.max, Computed.ofOption, Computed.values],
      isContrary_of_isLE hle⟩
  · obtain ⟨m, hm, hge⟩ := bounds_least? (e.get name) v hv
    exact ⟨m, by simp [Option.mem_def.1 hm, Annotation.min, Computed.ofOption, Computed.values],
      isContrary_of_isGE hge⟩

/-- An integer against numeric text is compared by number throughout. -/
theorem Value.order_agrees_mixed : (int 10).totalCompare (text "9") = .gt :=
  ((Value.order_agrees (int 10) (text "9")).1.2 rfl).1 (passes_gt_iff.2 (by decide))

/-- Numeric texts are sorted by number and compared by character: `10` is less than `9` for the
lookup, and it is sorted behind it. -/
theorem Value.order_disagrees :
    (text "10").Passes .lt (text "9") ∧ (text "10").totalCompare (text "9") = .gt :=
  ⟨passes_lt_iff.2 (by decide), by decide⟩

end DirectoryQuery
