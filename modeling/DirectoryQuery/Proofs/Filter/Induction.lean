import DirectoryQuery.Filter.Matcher
import DirectoryQuery.Filter.Render
import Mathlib.Data.List.Forall2
import Mathlib.Tactic.Lemma

/-!
# Filters, part by part

Filters hold lists of filters, so the induction that Lean derives for them is about two types at
once.  `Filter.induction` is the one for filters alone: a conjunction or a disjunction may assume
the claim for each of its parts.

Compiling and writing go through the parts in order and stop at the first fault.  Both are
therefore decided by the conditions: a filter compiles exactly when each of its conditions does
(`compiles_iff`), and what it then accepts is computed from what its parts accept (`accepts_all`,
`accepts_any`, `accepts_not`).

Of a condition, the lookup decides what happens.  Most lookups take one value (`Lookup.takesOne`),
and those are all compiled and written in the same way.
-/

namespace DirectoryQuery

/-! ## Lists of computations that may fail -/

section Traverse

variable {α β γ ε : Type}

lemma map_eq_ok_iff {x : Except ε α} {f : α → β} {b : β} :
    x.map f = .ok b ↔ ∃ a, x = .ok a ∧ f a = b := by
  cases x <;> simp [Except.map]

lemma bind_eq_ok_iff {x : Except ε α} {f : α → Except ε β} {b : β} :
    x >>= f = .ok b ↔ ∃ a, x = .ok a ∧ f a = .ok b := by
  cases x <;> simp [bind, Except.bind]

lemma map_eq_error_iff {x : Except ε α} {f : α → β} {e : ε} :
    x.map f = .error e ↔ x = .error e := by
  cases x <;> simp [Except.map]

lemma exists_map_ok {x : Except ε α} {f : α → β} :
    (∃ b, x.map f = .ok b) ↔ ∃ a, x = .ok a := by
  cases x <;> simp [Except.map]

lemma toOption_eq_some_iff {x : Except ε α} {a : α} : x.toOption = some a ↔ x = .ok a := by
  cases x <;> simp [Except.toOption]

lemma mapM_eq_some_iff {f : α → Option β} {as : List α} {bs : List β} :
    as.mapM f = some bs ↔ List.Forall₂ (fun a b => f a = some b) as bs := by
  induction as generalizing bs with
  | nil => cases bs <;> simp
  | cons a as ih =>
    rw [List.mapM_cons]
    cases bs <;> cases ha : f a <;> cases hs : as.mapM f <;> simp [← ih, ha, hs]

lemma mapM_eq_ok_iff {f : α → Except ε β} {as : List α} {bs : List β} :
    as.mapM f = .ok bs ↔ List.Forall₂ (fun a b => f a = .ok b) as bs := by
  induction as generalizing bs with
  | nil => cases bs <;> simp [pure, Except.pure]
  | cons a as ih =>
    rw [List.mapM_cons]
    cases ha : f a with
    | error e => cases bs <;> simp [bind, Except.bind, ha]
    | ok b =>
      cases hs : as.mapM f with
      | error e => cases bs <;> simp [bind, Except.bind, ha, ← ih, hs]
      | ok more => cases bs <;> simp [bind, Except.bind, pure, Except.pure, ha, ← ih, hs]

lemma mapM_ok_iff {f : α → Except ε β} {as : List α} :
    (∃ bs, as.mapM f = .ok bs) ↔ ∀ a ∈ as, ∃ b, f a = .ok b := by
  simp only [mapM_eq_ok_iff]
  induction as with
  | nil => simp
  | cons a as ih =>
    rw [List.forall_mem_cons, ← ih]
    constructor
    · rintro ⟨_ | ⟨b, bs⟩, h⟩
      · cases h
      · obtain ⟨hb, hbs⟩ := List.forall₂_cons.1 h
        exact ⟨⟨b, hb⟩, bs, hbs⟩
    · rintro ⟨⟨b, hb⟩, bs, hbs⟩
      exact ⟨b :: bs, .cons hb hbs⟩

/-- Two traversals fail alike when they fail alike at every element. -/
lemma mapM_eq_error_congr {f : α → Except ε β} {g : α → Except ε γ} {as : List α}
    (h : ∀ a ∈ as, ∀ e, f a = .error e ↔ g a = .error e) (e : ε) :
    as.mapM f = .error e ↔ as.mapM g = .error e := by
  induction as with
  | nil => simp [pure, Except.pure]
  | cons a as ih =>
    have ih := ih fun b hb => h b (List.mem_cons_of_mem a hb)
    have ha := h a List.mem_cons_self
    rw [List.mapM_cons, List.mapM_cons]
    cases hf : f a with
    | error e' =>
      have hg := (ha e').1 hf
      simp [hg, bind, Except.bind]
    | ok b =>
      cases hg : g a with
      | error e' =>
        have hf' := (ha e').2 hg
        rw [hf] at hf'
        cases hf'
      | ok c =>
        cases hfs : as.mapM f <;> cases hgs : as.mapM g <;>
          simp_all [bind, Except.bind, pure, Except.pure]

lemma forall₂_all_eq {f : α → Bool} {g : β → Bool} {as : List α} {bs : List β}
    (h : List.Forall₂ (fun a b => f a = g b) as bs) : as.all f = bs.all g := by
  induction h with
  | nil => rfl
  | cons hab _ ih => rw [List.all_cons, List.all_cons, hab, ih]

lemma forall₂_any_eq {f : α → Bool} {g : β → Bool} {as : List α} {bs : List β}
    (h : List.Forall₂ (fun a b => f a = g b) as bs) : as.any f = bs.any g := by
  induction h with
  | nil => rfl
  | cons hab _ ih => rw [List.any_cons, List.any_cons, hab, ih]

end Traverse

/-! ## Conditions -/

/-- Whether the lookup relates the attribute to one value. -/
def Lookup.takesOne : Lookup → Bool
  | .present | .isNull | .oneOf => false
  | _ => true

lemma Lookup.eq_of_not_takesOne {lookup : Lookup} (h : ¬ lookup.takesOne = true) :
    lookup = .present ∨ lookup = .isNull ∨ lookup = .oneOf := by
  revert h
  cases lookup <;> decide

lemma Operand.values_of_single? {o : Operand} {v : Value} (h : o.single? = some v) :
    o.values = [v] := by
  cases o <;> cases h
  rfl

namespace Condition

variable {c : Condition} {lookup : Lookup} (h : c.lookupKind = .ok lookup)
include h

lemma compile_of_takesOne (hone : lookup.takesOne = true) :
    c.compile =
      match c.operand.single? with
      | none => .error (.unexpectedList c.field lookup.name)
      | some v =>
        match singleTest? lookup c.field v with
        | none => .error (.unsupportedLookup lookup.name)
        | some test => .ok (someValue c.field test) := by
  rw [compile, h]
  cases lookup <;> first | rfl | cases hone

lemma render_of_takesOne (hone : lookup.takesOne = true) :
    c.render =
      match c.operand.single? with
      | none => .error (.unexpectedList c.field lookup.name)
      | some v =>
        match Filter.stars? lookup with
        | none => .error (.unsupportedLookup lookup.name)
        | some (before, after) => .ok (Filter.renderItem c.field before v after) := by
  rw [render, h]
  cases lookup <;> first | rfl | cases hone

end Condition

namespace Filter

/-! ## Induction -/

/-- Induction on filters alone: a filter with parts may assume the claim for each of them. -/
@[elab_as_elim, induction_eliminator]
theorem induction {motive : Filter → Prop} (leaf : ∀ c, motive (.leaf c))
    (all : ∀ parts, (∀ f ∈ parts, motive f) → motive (.all parts))
    (any : ∀ parts, (∀ f ∈ parts, motive f) → motive (.any parts))
    (not : ∀ part, motive part → motive (.not part)) : ∀ f, motive f
  | .leaf c => leaf c
  | .all parts => all parts fun f _ => induction leaf all any not f
  | .any parts => any parts fun f _ => induction leaf all any not f
  | .not part => not part (induction leaf all any not part)

lemma compileEach_eq (fs : List Filter) : compileEach fs = fs.mapM compile := by
  induction fs with
  | nil => rfl
  | cons f fs ih => rw [compileEach, List.mapM_cons, ih]

lemma renderEach_eq (fs : List Filter) : renderEach fs = fs.mapM render := by
  induction fs with
  | nil => rfl
  | cons f fs ih => rw [renderEach, List.mapM_cons, ih]

@[simp] lemma conditions_leaf (c : Condition) : (leaf c).conditions = [c] := rfl

@[simp] lemma conditions_all (parts : List Filter) :
    (all parts).conditions = parts.flatMap conditions := by
  rw [conditions, conditionsOfEach_eq]

@[simp] lemma conditions_any (parts : List Filter) :
    (any parts).conditions = parts.flatMap conditions := by
  rw [conditions, conditionsOfEach_eq]

@[simp] lemma conditions_not (part : Filter) : (Filter.not part).conditions = part.conditions := rfl

lemma forall_conditions_all {p : Condition → Prop} {parts : List Filter} :
    (∀ c ∈ (all parts).conditions, p c) ↔ ∀ f ∈ parts, ∀ c ∈ f.conditions, p c := by
  rw [conditions_all, List.forall_mem_flatMap]

lemma forall_conditions_any {p : Condition → Prop} {parts : List Filter} :
    (∀ c ∈ (any parts).conditions, p c) ↔ ∀ f ∈ parts, ∀ c ∈ f.conditions, p c := by
  rw [conditions_any, List.forall_mem_flatMap]

/-! ## What a filter accepts -/

/-- Whether the filter can be compiled. -/
def Compiles (f : Filter) : Prop :=
  ∃ test, f.compile = .ok test

/-- The verdict of the compiled filter on an entry.  A filter that does not compile accepts
nothing. -/
def accepts (f : Filter) (e : Entry) : Bool :=
  match f.compile with
  | .ok test => test e
  | .error _ => false

lemma accepts_of_compile {f : Filter} {test : Entry → Bool} (h : f.compile = .ok test)
    (e : Entry) : f.accepts e = test e := by
  rw [accepts, h]

lemma compile_all (parts : List Filter) :
    (all parts).compile = (parts.mapM compile).map fun tests e => tests.all fun test => test e := by
  rw [compile, compileEach_eq]
  cases parts.mapM compile <;> rfl

lemma compile_any (parts : List Filter) :
    (any parts).compile = (parts.mapM compile).map fun tests e => tests.any fun test => test e := by
  rw [compile, compileEach_eq]
  cases parts.mapM compile <;> rfl

lemma compile_not (part : Filter) :
    (Filter.not part).compile = part.compile.map fun test e => !test e := by
  rw [compile]
  cases part.compile <;> rfl

lemma render_all (parts : List Filter) :
    (all parts).render = (parts.mapM render).map fun texts => "(&" ++ String.join texts ++ ")" := by
  rw [render, renderEach_eq]
  cases parts.mapM render <;> rfl

lemma render_any (parts : List Filter) :
    (any parts).render = (parts.mapM render).map fun texts => "(|" ++ String.join texts ++ ")" := by
  rw [render, renderEach_eq]
  cases parts.mapM render <;> rfl

lemma render_not (part : Filter) :
    (Filter.not part).render = part.render.map fun text => "(!" ++ text ++ ")" := by
  rw [render]
  cases part.render <;> rfl

@[simp] lemma compiles_all {parts : List Filter} :
    (all parts).Compiles ↔ ∀ f ∈ parts, f.Compiles := by
  rw [Compiles, compile_all, exists_map_ok, mapM_ok_iff]
  rfl

@[simp] lemma compiles_any {parts : List Filter} :
    (any parts).Compiles ↔ ∀ f ∈ parts, f.Compiles := by
  rw [Compiles, compile_any, exists_map_ok, mapM_ok_iff]
  rfl

@[simp] lemma compiles_not {part : Filter} : (Filter.not part).Compiles ↔ part.Compiles := by
  rw [Compiles, compile_not, exists_map_ok]
  rfl

/-- A filter compiles exactly when each of its conditions does. -/
lemma compiles_iff {f : Filter} : f.Compiles ↔ ∀ c ∈ f.conditions, (leaf c).Compiles := by
  induction f with
  | leaf c => simp
  | all parts ih =>
    rw [compiles_all, forall_conditions_all]
    exact forall₂_congr ih
  | any parts ih =>
    rw [compiles_any, forall_conditions_any]
    exact forall₂_congr ih
  | not part ih => rw [compiles_not, conditions_not, ih]

/-- The parts of a compiled list are tests for what the parts accept. -/
lemma forall₂_accepts {parts : List Filter} {tests : List (Entry → Bool)}
    (h : parts.mapM compile = .ok tests) (e : Entry) :
    List.Forall₂ (fun f test => f.accepts e = test e) parts tests :=
  (mapM_eq_ok_iff.1 h).imp fun _ _ hf => accepts_of_compile hf e

lemma accepts_all {parts : List Filter} (h : (all parts).Compiles) (e : Entry) :
    (all parts).accepts e = parts.all fun f => f.accepts e := by
  obtain ⟨tests, htests⟩ := mapM_ok_iff.2 (compiles_all.1 h)
  rw [accepts, compile_all, htests]
  exact (forall₂_all_eq (forall₂_accepts htests e)).symm

lemma accepts_any {parts : List Filter} (h : (any parts).Compiles) (e : Entry) :
    (any parts).accepts e = parts.any fun f => f.accepts e := by
  obtain ⟨tests, htests⟩ := mapM_ok_iff.2 (compiles_any.1 h)
  rw [accepts, compile_any, htests]
  exact (forall₂_any_eq (forall₂_accepts htests e)).symm

lemma accepts_not {part : Filter} (h : part.Compiles) (e : Entry) :
    (Filter.not part).accepts e = !part.accepts e := by
  obtain ⟨test, htest⟩ := h
  rw [accepts, compile_not, htest, accepts_of_compile htest]
  rfl

end Filter

end DirectoryQuery
