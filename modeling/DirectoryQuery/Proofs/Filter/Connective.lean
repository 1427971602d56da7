import DirectoryQuery.Proofs.Filter.Induction

/-!
# Conjunctions, disjunctions and negations

A conjunction and a disjunction are put together in one way: the parts of both sides go under one
constructor, and a side of that kind gives up its own parts.  `Connective` is that construction, and
what is said of it holds of both.  It is associative, lists the conditions of both sides in order
and compiles to the verdicts of both, combined.

Filters are normal if every conjunction and disjunction has two parts at least and nothing stands
directly below a filter of its own kind.  Connectives and negation keep filters normal.
-/

namespace DirectoryQuery

namespace Filter

/-! ## Normal filters -/

/-- The parts of a conjunction. -/
def allParts? : Filter → Option (List Filter)
  | .all parts => some parts
  | _ => none

/-- The parts of a disjunction. -/
def anyParts? : Filter → Option (List Filter)
  | .any parts => some parts
  | _ => none

/-- What a negation negates. -/
def notPart? : Filter → Option Filter
  | .not part => some part
  | _ => none

mutual

/-- Whether every conjunction and disjunction has two parts at least, and no conjunction,
disjunction or negation stands directly below one of its own kind. -/
def isNormal : Filter → Bool
  | .leaf _ => true
  | .all parts => 2 ≤ parts.length && parts.all (·.allParts?.isNone) && areNormal parts
  | .any parts => 2 ≤ parts.length && parts.all (·.anyParts?.isNone) && areNormal parts
  | .not part => part.notPart?.isNone && part.isNormal

/-- Whether all of several filters are normal. -/
def areNormal : List Filter → Bool
  | [] => true
  | f :: rest => f.isNormal && areNormal rest

end

lemma areNormal_eq (fs : List Filter) : areNormal fs = fs.all isNormal := by
  induction fs with
  | nil => rfl
  | cons f fs ih => rw [areNormal, List.all_cons, ih]

lemma isNormal_all {parts : List Filter} :
    (all parts).isNormal = true ↔
      2 ≤ parts.length ∧ ∀ f ∈ parts, f.allParts? = none ∧ f.isNormal = true := by
  simp [isNormal, areNormal_eq, and_assoc, forall_and]

lemma isNormal_any {parts : List Filter} :
    (any parts).isNormal = true ↔
      2 ≤ parts.length ∧ ∀ f ∈ parts, f.anyParts? = none ∧ f.isNormal = true := by
  simp [isNormal, areNormal_eq, and_assoc, forall_and]

lemma isNormal_not {part : Filter} :
    (Filter.not part).isNormal = true ↔ part.notPart? = none ∧ part.isNormal = true := by
  simp [isNormal]

/-! ## Connectives -/

/-- A way to put filters together under one constructor. -/
structure Connective where
  /-- Puts filters under the constructor. -/
  wrap : List Filter → Filter
  /-- The parts of a filter under the constructor, none for other filters. -/
  parts? : Filter → Option (List Filter)
  /-- The verdict on a filter under the constructor from the verdicts on its parts. -/
  verdict : List Bool → Bool
  /-- The verdict from two verdicts. -/
  combine : Bool → Bool → Bool
  parts?_wrap (fs : List Filter) : parts? (wrap fs) = some fs
  eq_wrap {f : Filter} {fs : List Filter} (h : parts? f = some fs) : f = wrap fs
  conditions_wrap (fs : List Filter) : (wrap fs).conditions = fs.flatMap conditions
  compile_wrap (fs : List Filter) :
    (wrap fs).compile = (fs.mapM compile).map fun tests e => verdict (tests.map fun test => test e)
  isNormal_wrap (fs : List Filter) :
    (wrap fs).isNormal = true ↔ 2 ≤ fs.length ∧ ∀ f ∈ fs, parts? f = none ∧ f.isNormal = true
  verdict_one (b : Bool) : verdict [b] = b
  verdict_append (as bs : List Bool) : verdict (as ++ bs) = combine (verdict as) (verdict bs)

namespace Connective

variable (k : Connective) {f g h : Filter} {fs : List Filter}

/-- The filters that a filter gives up when it is put together with others: its own parts if it has
the constructor, and otherwise itself. -/
def taken (f : Filter) : List Filter :=
  (k.parts? f).getD [f]

/-- Puts two filters together. -/
def join (f g : Filter) : Filter :=
  k.wrap (k.taken f ++ k.taken g)

/-- Puts several filters together, if there is any. -/
def joinAll? : List Filter → Option Filter
  | [] => none
  | f :: rest => some (rest.foldl k.join f)

lemma taken_wrap (fs : List Filter) : k.taken (k.wrap fs) = fs := by
  rw [taken, k.parts?_wrap, Option.getD_some]

lemma taken_of_parts?_eq_none (h : k.parts? f = none) : k.taken f = [f] := by
  rw [taken, h, Option.getD_none]

/-- A filter has the constructor, or it gives up nothing but itself. -/
lemma taken_cases (f : Filter) :
    f = k.wrap (k.taken f) ∨ k.parts? f = none ∧ k.taken f = [f] := by
  rcases hparts : k.parts? f with - | fs
  · exact .inr ⟨rfl, k.taken_of_parts?_eq_none hparts⟩
  · left
    rw [taken, hparts, Option.getD_some, ← k.eq_wrap hparts]

lemma join_assoc (f g h : Filter) : k.join (k.join f g) h = k.join f (k.join g h) := by
  rw [join, join, join, join, k.taken_wrap, k.taken_wrap, List.append_assoc]

lemma foldl_join (fs parts : List Filter) :
    fs.foldl k.join (k.wrap parts) = k.wrap (parts ++ fs.flatMap k.taken) := by
  induction fs generalizing parts with
  | nil => rw [List.flatMap_nil, List.append_nil, List.foldl_nil]
  | cons f fs ih =>
    rw [List.foldl_cons, join, k.taken_wrap, ih, List.flatMap_cons, List.append_assoc]

lemma conditions_taken (f : Filter) : (k.taken f).flatMap conditions = f.conditions := by
  obtain hkind | ⟨-, htaken⟩ := k.taken_cases f
  · rw [← k.conditions_wrap, ← hkind]
  · rw [htaken, List.flatMap_singleton]

lemma conditions_join (f g : Filter) :
    (k.join f g).conditions = f.conditions ++ g.conditions := by
  rw [join, k.conditions_wrap, List.flatMap_append, k.conditions_taken, k.conditions_taken]

/-- A filter compiles as the parts that it gives up do together. -/
lemma compile_taken (f : Filter) :
    f.compile =
      ((k.taken f).mapM compile).map fun tests e => k.verdict (tests.map fun test => test e) := by
  obtain hkind | ⟨-, htaken⟩ := k.taken_cases f
  · rw [← k.compile_wrap, ← hkind]
  · rw [htaken, List.mapM_cons, List.mapM_nil]
    rcases f.compile with e | test
    · rfl
    · exact congrArg Except.ok (funext fun e => (k.verdict_one (test e)).symm)

lemma compile_join (f g : Filter) :
    (k.join f g).compile = (do
      let a ← f.compile
      let b ← g.compile
      pure fun e => k.combine (a e) (b e)) := by
  rw [join, k.compile_wrap, k.compile_taken f, k.compile_taken g, List.mapM_append]
  rcases (k.taken f).mapM compile with e | as
  · rfl
  · rcases (k.taken g).mapM compile with e | bs
    · rfl
    · refine congrArg Except.ok (funext fun e => ?_)
      exact (congrArg k.verdict List.map_append).trans (k.verdict_append _ _)

/-- The matcher of two filters put together takes the verdicts of both. -/
lemma ofFilter_join (f g : Filter) :
    Matcher.ofFilter (k.join f g) = (do
      let a ← Matcher.ofFilter f
      let b ← Matcher.ofFilter g
      pure ⟨k.join a.filter b.filter, fun e => k.combine (a.accepts e) (b.accepts e)⟩) := by
  unfold Matcher.ofFilter
  rw [k.compile_join]
  rcases f.compile with e | a
  · rfl
  · rcases g.compile with e | b <;> rfl

/-! ### Normal form -/

/-- What a normal filter gives up are normal filters of other kinds. -/
lemma taken_of_isNormal (hf : f.isNormal = true) :
    1 ≤ (k.taken f).length ∧ ∀ p ∈ k.taken f, k.parts? p = none ∧ p.isNormal = true := by
  obtain hkind | ⟨hother, htaken⟩ := k.taken_cases f
  · rw [hkind] at hf
    obtain ⟨hlength, hparts⟩ := (k.isNormal_wrap _).1 hf
    exact ⟨by omega, hparts⟩
  · rw [htaken]
    exact ⟨Nat.le_refl 1, List.forall_mem_singleton.2 ⟨hother, hf⟩⟩

lemma isNormal_join (hf : f.isNormal = true) (hg : g.isNormal = true) :
    (k.join f g).isNormal = true := by
  obtain ⟨hlength, hparts⟩ := k.taken_of_isNormal hf
  obtain ⟨hlength', hparts'⟩ := k.taken_of_isNormal hg
  refine (k.isNormal_wrap _).2 ⟨?_, List.forall_mem_append.2 ⟨hparts, hparts'⟩⟩
  rw [List.length_append]
  omega

lemma isNormal_joinAll? (hfs : ∀ f ∈ fs, f.isNormal = true) :
    ∀ g ∈ k.joinAll? fs, g.isNormal = true := by
  have hfold : ∀ rest : List Filter, (∀ g ∈ rest, g.isNormal = true) → ∀ f : Filter,
      f.isNormal = true → (rest.foldl k.join f).isNormal = true := by
    intro rest hrest
    induction rest with
    | nil => exact fun f hf => hf
    | cons g rest ih =>
      obtain ⟨hg, hrest⟩ := List.forall_mem_cons.1 hrest
      exact fun f hf => ih hrest _ (k.isNormal_join hf hg)
  rcases fs with - | ⟨f, rest⟩
  · exact fun g hg => absurd hg (Option.not_mem_none g)
  · obtain ⟨hf, hrest⟩ := List.forall_mem_cons.1 hfs
    intro g hg
    rw [← Option.some.inj hg]
    exact hfold rest hrest f hf

/-- The parts of a normal filter, put together one by one, give the filter. -/
lemma joinAll?_of_isNormal (h : (k.wrap fs).isNormal = true) :
    k.joinAll? fs = some (k.wrap fs) := by
  obtain ⟨hlength, hparts⟩ := (k.isNormal_wrap fs).1 h
  have htaken : ∀ f ∈ fs, k.taken f = [f] := fun f hf =>
    k.taken_of_parts?_eq_none (hparts f hf).1
  have hflat : fs.flatMap k.taken = fs := by
    rw [List.flatMap_congr htaken, List.flatMap_singleton']
  obtain ⟨f, g, rest, rfl⟩ : ∃ f g rest, fs = f :: g :: rest := by
    match fs, hlength with
    | f :: g :: rest, _ => exact ⟨f, g, rest, rfl⟩
  rw [List.flatMap_cons, List.flatMap_cons, ← List.append_assoc] at hflat
  rw [joinAll?, List.foldl_cons, join, k.foldl_join, hflat]

/-- Conjunction. -/
def conj : Connective where
  wrap := .all
  parts? := allParts?
  verdict verdicts := verdicts.all id
  combine a b := a && b
  parts?_wrap _ := rfl
  eq_wrap {f} fs h := by
    cases f <;> cases h
    rfl
  conditions_wrap := conditions_all
  compile_wrap fs := by simp [compile_all, List.all_map]
  isNormal_wrap _ := isNormal_all
  verdict_one := Bool.and_true
  verdict_append _ _ := List.all_append

/-- Disjunction. -/
def disj : Connective where
  wrap := .any
  parts? := anyParts?
  verdict verdicts := verdicts.any id
  combine a b := a || b
  parts?_wrap _ := rfl
  eq_wrap {f} fs h := by
    cases f <;> cases h
    rfl
  conditions_wrap := conditions_any
  compile_wrap fs := by simp [compile_any, List.any_map]
  isNormal_wrap _ := isNormal_any
  verdict_one := Bool.or_false
  verdict_append _ _ := List.any_append

end Connective

variable {f g : Filter} {fs : List Filter}

lemma and_eq_join : Filter.and = Connective.conj.join := by
  funext f g
  cases f <;> cases g <;> rfl

lemma or_eq_join : Filter.or = Connective.disj.join := by
  funext f g
  cases f <;> cases g <;> rfl

lemma conjunction?_eq_joinAll? (fs : List Filter) :
    conjunction? fs = Connective.conj.joinAll? fs := by
  rcases fs with - | ⟨f, rest⟩
  · rfl
  · rw [conjunction?, Connective.joinAll?, and_eq_join]

lemma disjunction?_eq_joinAll? (fs : List Filter) :
    disjunction? fs = Connective.disj.joinAll? fs := by
  rcases fs with - | ⟨f, rest⟩
  · rfl
  · rw [disjunction?, Connective.joinAll?, or_eq_join]

/-! ## Negation -/

lemma eq_not {part : Filter} (h : f.notPart? = some part) : f = .not part := by
  cases f <;> cases h
  rfl

/-- Only a negation gives something back when it is negated. -/
lemma negate_of_notPart? (h : f.notPart? = none) : f.negate = .not f := by
  cases f with
  | not part => cases h
  | _ => rfl

lemma isNormal_negate (hf : f.isNormal = true) : f.negate.isNormal = true := by
  rcases hpart : f.notPart? with - | part
  · rw [negate_of_notPart? hpart]
    exact isNormal_not.2 ⟨hpart, hf⟩
  · obtain rfl := eq_not hpart
    exact (isNormal_not.1 hf).2

lemma negate_negate (hf : f.isNormal = true) : f.negate.negate = f := by
  rcases hpart : f.notPart? with - | part
  · rw [negate_of_notPart? hpart]
    rfl
  · obtain rfl := eq_not hpart
    exact negate_of_notPart? (isNormal_not.1 hf).1

lemma compile_negate (f : Filter) : f.negate.compile = f.compile.map fun test e => !test e := by
  rcases hpart : f.notPart? with - | part
  · rw [negate_of_notPart? hpart, compile_not]
  · obtain rfl := eq_not hpart
    rw [compile_not, negate]
    rcases part.compile with e | test
    · rfl
    · exact congrArg Except.ok (funext fun e => (Bool.not_not (test e)).symm)

lemma ofFilter_negate (f : Filter) :
    Matcher.ofFilter f.negate = (do
      let a ← Matcher.ofFilter f
      pure ⟨a.filter.negate, fun e => !a.accepts e⟩) := by
  unfold Matcher.ofFilter
  rw [compile_negate]
  rcases f.compile with e | test <;> rfl

end Filter

end DirectoryQuery
