import DirectoryQuery.Proofs.Filter.Split
import Mathlib.Data.List.Perm.Basic

/-!
# Splits are exact

The factors of a filter are the parts of it that are reached through conjunctions alone and are no
conjunctions themselves.  A filter is true exactly when all its factors are, and its conditions are
those of its factors.

A split puts every factor where it belongs: a condition goes to its place, and any other factor is
pushed if all its conditions are and kept back otherwise (`Filter.placementOf`).  The parts of a
split have the factors that belong there, in their order, and no others (`sorts_split`).  All that
`Filter.split_exact` says about truth, conditions and places follows from that.

Truth is taken here under any assignment of truth values to conditions, so nothing is asked of the
conditions, not even that they compile.
-/

namespace DirectoryQuery

namespace Filter

/-! ## Truth under an assignment -/

mutual

/-- The truth value of a filter under an assignment to its conditions. -/
def truth (v : Condition → Bool) : Filter → Bool
  | .leaf c => v c
  | .all parts => allTrue v parts
  | .any parts => anyTrue v parts
  | .not part => !part.truth v

/-- Whether every one of several filters is true. -/
def allTrue (v : Condition → Bool) : List Filter → Bool
  | [] => true
  | f :: rest => f.truth v && allTrue v rest

/-- Whether one of several filters is true. -/
def anyTrue (v : Condition → Bool) : List Filter → Bool
  | [] => false
  | f :: rest => f.truth v || anyTrue v rest

end

variable (v : Condition → Bool) (place : Condition → Placement)

lemma allTrue_eq (fs : List Filter) : allTrue v fs = fs.all (truth v) := by
  induction fs with
  | nil => rfl
  | cons f fs ih => rw [allTrue, List.all_cons, ih]

/-! ## Factors -/

mutual

/-- The parts that are reached through conjunctions alone and are no conjunctions, from left to
right. -/
def factors : Filter → List Filter
  | .all parts => factorsOfEach parts
  | .leaf c => [.leaf c]
  | .any parts => [.any parts]
  | .not part => [.not part]

/-- The factors of several filters, from left to right. -/
def factorsOfEach : List Filter → List Filter
  | [] => []
  | f :: rest => f.factors ++ factorsOfEach rest

end

lemma factorsOfEach_eq (fs : List Filter) : factorsOfEach fs = fs.flatMap factors := by
  induction fs with
  | nil => rfl
  | cons f fs ih => rw [factorsOfEach, List.flatMap_cons, ih]

@[simp] lemma factors_leaf (c : Condition) : (leaf c).factors = [leaf c] := rfl

@[simp] lemma factors_any (parts : List Filter) : (any parts).factors = [any parts] := rfl

@[simp] lemma factors_not (part : Filter) : (Filter.not part).factors = [.not part] := rfl

lemma factors_all (parts : List Filter) : (all parts).factors = parts.flatMap factors := by
  rw [factors, factorsOfEach_eq]

/-- A filter is true when all its factors are. -/
lemma all_truth_factors (f : Filter) : f.factors.all (truth v) = f.truth v := by
  induction f with
  | all parts ih =>
    rw [factors_all, List.all_flatMap, truth, allTrue_eq]
    exact forall₂_all_eq (List.forall₂_same.2 ih)
  | _ => exact Bool.and_true _

lemma flatMap_factors (f : Filter) : f.factors.flatMap conditions = f.conditions := by
  induction f with
  | all parts ih =>
    rw [factors_all, List.flatMap_assoc, conditions_all]
    exact List.flatMap_congr ih
  | _ => exact List.flatMap_singleton _ _

/-- The factors of a conjunction are those of both sides, however flat the sides were. -/
lemma factors_and (f g : Filter) : (f.and g).factors = f.factors ++ g.factors := by
  have hside : ∀ h : Filter, h.conjuncts.flatMap factors = h.factors := by
    intro h
    cases h with
    | all parts => rw [conjuncts, factors_all]
    | _ => exact List.flatMap_singleton _ _
  rw [and_eq, factors_all, List.flatMap_append, hside, hside]

lemma factors_foldl_and (fs : List Filter) (f : Filter) :
    (fs.foldl Filter.and f).factors = f.factors ++ fs.flatMap factors := by
  induction fs generalizing f with
  | nil => rw [List.foldl_nil, List.flatMap_nil, List.append_nil]
  | cons g fs ih => rw [List.foldl_cons, ih, factors_and, List.flatMap_cons, List.append_assoc]

/-! ## Factors of filters that may be missing -/

/-- The factors of a filter, if there is one. -/
def factors? (f : Option Filter) : List Filter :=
  f.toList.flatMap factors

/-- The truth value of a filter, if there is one. -/
def truth? (f : Option Filter) : Bool :=
  f.all (truth v)

@[simp] lemma factors?_none : factors? none = [] := rfl

@[simp] lemma factors?_some (f : Filter) : factors? (some f) = f.factors :=
  List.flatMap_singleton _ _

lemma all_truth_factors? (f : Option Filter) : (factors? f).all (truth v) = truth? v f := by
  cases f with
  | none => rfl
  | some f => rw [factors?_some, all_truth_factors]; rfl

lemma flatMap_factors? (f : Option Filter) : (factors? f).flatMap conditions = conditions? f := by
  cases f with
  | none => rfl
  | some f => rw [factors?_some, flatMap_factors, conditions?_some]

lemma factors?_conjunction?_filterMap {α : Type} (part : α → Option Filter) (as : List α) :
    factors? (conjunction? (as.filterMap part)) = as.flatMap fun a => factors? (part a) := by
  have hlist : ∀ fs : List Filter, factors? (conjunction? fs) = fs.flatMap factors := by
    intro fs
    cases fs with
    | nil => rfl
    | cons f fs => rw [conjunction?, factors?_some, factors_foldl_and, List.flatMap_cons]
  rw [hlist, List.filterMap_eq_flatMap_toList, List.flatMap_assoc]
  rfl

/-! ## Where factors go -/

/-- Whether all conditions of a filter are pushed. -/
def isPushable (f : Filter) : Bool :=
  f.conditions.all fun c => place c == .pushed

/-- Where a factor goes.  Only a condition by itself can be pinned. -/
def placementOf : Filter → Placement
  | .leaf c => place c
  | f => if f.isPushable place then .pushed else .kept

lemma isPushable_iff {f : Filter} :
    f.isPushable place = true ↔ ∀ c ∈ f.conditions, place c = .pushed := by
  simp [isPushable]

lemma placementOf_eq_pushed_iff {f : Filter} :
    f.placementOf place = .pushed ↔ ∀ c ∈ f.conditions, place c = .pushed := by
  rw [← isPushable_iff]
  cases f with
  | leaf c => simp [placementOf, isPushable]
  | _ => simp [placementOf]

end Filter

namespace Split

open DirectoryQuery.Filter

variable {place : Condition → Placement}

/-- The parts of a split have the factors that belong there, in their order. -/
structure Sorts (s : Split) (place : Condition → Placement) (factors : List Filter) : Prop where
  pushed : factors? s.pushed = factors.filter (placementOf place · == .pushed)
  kept : factors? s.kept = factors.filter (placementOf place · == .kept)
  pinned : s.pinned.map leaf = factors.filter (placementOf place · == .pinned)

lemma sorts_whole {f : Filter} (hleaf : ∀ c, f ≠ leaf c) (hfactors : f.factors = [f]) :
    (whole f (f.isPushable place)).Sorts place f.factors := by
  have hplace : placementOf place f = if f.isPushable place then .pushed else .kept := by
    cases f with
    | leaf c => exact absurd rfl (hleaf c)
    | _ => rfl
  rw [hfactors]
  cases hpushable : f.isPushable place with
  | true =>
    rw [hpushable, if_pos rfl] at hplace
    constructor <;> simp [whole, hplace, hfactors]
  | false =>
    rw [hpushable, if_neg Bool.false_ne_true] at hplace
    constructor <;> simp [whole, hplace, hfactors]

lemma sorts_join {parts : List Filter} (h : ∀ f ∈ parts, (f.split place).Sorts place f.factors) :
    (join (parts.map (split place))).Sorts place (parts.flatMap factors) := by
  constructor
  · rw [join, factors?_conjunction?_filterMap, List.flatMap_map, List.filter_flatMap]
    exact List.flatMap_congr fun f hf => (h f hf).pushed
  · rw [join, factors?_conjunction?_filterMap, List.flatMap_map, List.filter_flatMap]
    exact List.flatMap_congr fun f hf => (h f hf).kept
  · rw [join, List.flatMap_map, List.map_flatMap, List.filter_flatMap]
    exact List.flatMap_congr fun f hf => (h f hf).pinned

lemma isPushedOnly_join (parts : List Split) :
    (join parts).isPushedOnly = parts.all Split.isPushedOnly := by
  rw [Bool.eq_iff_iff, isPushedOnly_iff, List.all_eq_true, join, conjunction?_eq_none_iff,
    List.filterMap_eq_nil_iff, List.flatMap_eq_nil_iff]
  simp only [isPushedOnly_iff, forall₂_and]

end Split

namespace Filter

open Split

variable {place : Condition → Placement}

lemma isPushable_all (parts : List Filter) :
    (all parts).isPushable place = parts.all (isPushable place) := by
  rw [isPushable, conditions_all, List.all_flatMap]
  rfl

lemma isPushable_any (parts : List Filter) :
    (any parts).isPushable place = parts.all (isPushable place) := by
  rw [isPushable, conditions_any, List.all_flatMap]
  rfl

/-- Nothing of a filter is held back exactly when all its conditions are pushed. -/
lemma isPushedOnly_split (f : Filter) : (f.split place).isPushedOnly = f.isPushable place := by
  have hwhole : ∀ g b, (whole g b).isPushedOnly = b := by
    intro g b
    cases b <;> rfl
  induction f with
  | leaf c =>
    rw [split, isPushable, conditions_leaf, List.all_cons, List.all_nil, Bool.and_true]
    cases place c <;> rfl
  | all parts ih =>
    rw [split, splitEach_eq, isPushedOnly_join, List.all_map, isPushable_all]
    exact forall₂_all_eq (List.forall₂_same.2 ih)
  | any parts ih =>
    rw [split, splitEach_eq, hwhole, List.all_map, isPushable_any]
    exact forall₂_all_eq (List.forall₂_same.2 ih)
  | not part ih => rw [split, hwhole, ih, isPushable, isPushable, conditions_not]

lemma split_any (parts : List Filter) :
    (any parts).split place = whole (any parts) ((any parts).isPushable place) := by
  rw [split, splitEach_eq, List.all_map, isPushable_any]
  exact congrArg _ (forall₂_all_eq (List.forall₂_same.2 fun f _ => isPushedOnly_split f))

lemma split_not (part : Filter) :
    (Filter.not part).split place = whole (.not part) ((Filter.not part).isPushable place) := by
  rw [split, isPushedOnly_split, isPushable, isPushable, conditions_not]

/-- A split puts every factor where it belongs. -/
theorem sorts_split (f : Filter) : (f.split place).Sorts place f.factors := by
  induction f with
  | leaf c =>
    unfold split
    cases hplace : place c <;> constructor <;> simp [placementOf, hplace]
  | all parts ih =>
    rw [split, splitEach_eq, factors_all]
    exact sorts_join ih
  | any parts ih =>
    rw [split_any]
    exact sorts_whole (by simp) rfl
  | not part ih =>
    rw [split_not]
    exact sorts_whole (by simp) rfl

lemma perm_filter_placement {α : Type} (p : α → Placement) (as : List α) :
    (as.filter (p · == .pushed) ++ as.filter (p · == .kept) ++ as.filter (p · == .pinned)).Perm
      as := by
  induction as with
  | nil => exact .refl _
  | cons a as ih =>
    cases ha : p a with
    | pushed => simpa [ha] using ih
    | kept =>
      simp only [List.filter_cons, ha, beq_iff_eq, reduceCtorEq, if_false, if_true,
        List.append_assoc, List.cons_append]
      exact List.perm_middle.trans (.cons a (by simpa using ih))
    | pinned =>
      simp only [List.filter_cons, ha, beq_iff_eq, reduceCtorEq, if_false, if_true]
      exact List.perm_middle.trans (.cons a ih)

/-- The parts of a split together have the factors of the filter, though in another order. -/
lemma perm_factors_split (place : Condition → Placement) (f : Filter) :
    (factors? (f.split place).pushed ++ factors? (f.split place).kept ++
      (f.split place).pinned.map leaf).Perm f.factors := by
  have hsorts : (f.split place).Sorts place f.factors := sorts_split f
  rw [hsorts.pushed, hsorts.kept, hsorts.pinned]
  exact perm_filter_placement _ f.factors

lemma truth_split (v : Condition → Bool) (f : Filter) :
    (truth? v (f.split place).pushed && truth? v (f.split place).kept &&
      (f.split place).pinned.all v) = f.truth v := by
  have hall := (perm_factors_split place f).all_eq (f := truth v)
  rwa [List.all_append, List.all_append, all_truth_factors?, all_truth_factors?, List.all_map,
    all_truth_factors] at hall

lemma perm_conditions_split (f : Filter) :
    (conditions? (f.split place).pushed ++ conditions? (f.split place).kept ++
      (f.split place).pinned).Perm f.conditions := by
  have hperm := (perm_factors_split place f).flatMap_right conditions
  rwa [List.flatMap_append, List.flatMap_append, flatMap_factors?, flatMap_factors?,
    List.flatMap_map, flatMap_factors, List.flatMap_congr fun c _ => conditions_leaf c,
    List.flatMap_singleton'] at hperm

/-- Under every assignment, a filter has the truth value of its parts together.  Only conditions of
the place that is pushed are in the pushed part, only pinned ones are pinned, and these are factors
of the filter.  No condition is lost or doubled.  What can be pushed is: a factor all of whose
conditions are pushed is in the pushed part and not in the one that is kept back. -/
theorem split_exact (place : Condition → Placement) (f : Filter) :
    let s := f.split place
    (∀ v, (truth? v s.pushed && truth? v s.kept && s.pinned.all v) = f.truth v) ∧
      (∀ c ∈ conditions? s.pushed, place c = .pushed) ∧
      (∀ c ∈ s.pinned, place c = .pinned ∧ leaf c ∈ f.factors) ∧
      (conditions? s.pushed ++ conditions? s.kept ++ s.pinned).Perm f.conditions ∧
      ∀ g ∈ f.factors, (∀ c ∈ g.conditions, place c = .pushed) →
        g ∈ factors? s.pushed ∧ g ∉ factors? s.kept := by
  intro s
  have hsorts : s.Sorts place f.factors := sorts_split f
  have hsplit : s.IsSplitOf place f.conditions := isSplitOf_split place f
  refine ⟨fun v => truth_split v f, fun c hc => (hsplit.pushed c hc).2, fun c hc => ?_,
    perm_conditions_split f, fun g hg hpushed => ?_⟩
  · have hmem : leaf c ∈ s.pinned.map leaf := List.mem_map_of_mem hc
    rw [hsorts.pinned] at hmem
    exact ⟨(hsplit.pinned c hc).2, List.mem_of_mem_filter hmem⟩
  · have hplace := (placementOf_eq_pushed_iff place).2 hpushed
    rw [hsorts.pushed, hsorts.kept]
    refine ⟨List.mem_filter.2 ⟨hg, by simp [hplace]⟩, fun hmem => ?_⟩
    have hkept := (List.mem_filter.1 hmem).2
    rw [hplace] at hkept
    cases hkept

end Filter

end DirectoryQuery
