import DirectoryQuery.Filter.Split
import DirectoryQuery.Proofs.Entry.Identity
import DirectoryQuery.Proofs.Filter.Connective

/-!
# The parts of a filter are the filter

A filter that was split accepts an entry exactly when all its parts do (`Filter.accepts_split`), and
each part holds conditions of the filter that belong there (`Filter.isSplitOf_split`).  A part may
be missing, so what is said of filters is said here of filters that may be missing: a missing one
has no conditions and accepts everything.

Pinned conditions are decided by the name of the entry alone.  What they amount to together accepts
the same entries as they do (`Pin.accepts_resolve`).
-/

namespace DirectoryQuery

namespace Filter

/-! ## Conjunctions -/

/-- The filters that a conjunction takes over from a filter. -/
def conjuncts : Filter → List Filter
  | .all parts => parts
  | f => [f]

lemma and_eq (f g : Filter) : f.and g = .all (f.conjuncts ++ g.conjuncts) := by
  cases f <;> cases g <;> rfl

lemma conditions_and (f g : Filter) : (f.and g).conditions = f.conditions ++ g.conditions := by
  rw [and_eq_join, Connective.conj.conditions_join]

lemma conditions_foldl_and (fs : List Filter) (f : Filter) :
    (fs.foldl Filter.and f).conditions = f.conditions ++ fs.flatMap conditions := by
  induction fs generalizing f with
  | nil => simp
  | cons g fs ih => rw [List.foldl_cons, ih, conditions_and, List.flatMap_cons, List.append_assoc]

lemma compile_and {f g : Filter} {a b : Entry → Bool} (ha : f.compile = .ok a)
    (hb : g.compile = .ok b) : (f.and g).compile = .ok fun e => a e && b e := by
  rw [and_eq_join, Connective.conj.compile_join, ha, hb]
  rfl

lemma compiles_and {f g : Filter} (hf : f.Compiles) (hg : g.Compiles) : (f.and g).Compiles := by
  obtain ⟨a, ha⟩ := hf
  obtain ⟨b, hb⟩ := hg
  exact ⟨_, compile_and ha hb⟩

lemma accepts_and {f g : Filter} (hf : f.Compiles) (hg : g.Compiles) (e : Entry) :
    (f.and g).accepts e = (f.accepts e && g.accepts e) := by
  obtain ⟨a, ha⟩ := hf
  obtain ⟨b, hb⟩ := hg
  rw [accepts_of_compile (compile_and ha hb), accepts_of_compile ha, accepts_of_compile hb]

lemma accepts_foldl_and {fs : List Filter} {f : Filter} (hf : f.Compiles)
    (hfs : ∀ g ∈ fs, g.Compiles) (e : Entry) :
    (fs.foldl Filter.and f).accepts e = (f.accepts e && fs.all fun g => g.accepts e) := by
  induction fs generalizing f with
  | nil => simp
  | cons g fs ih =>
    obtain ⟨hg, hfs⟩ := List.forall_mem_cons.1 hfs
    rw [List.foldl_cons, ih (compiles_and hf hg) hfs, accepts_and hf hg, List.all_cons,
      Bool.and_assoc]

lemma conditions_negate (f : Filter) : f.negate.conditions = f.conditions := by
  cases f <;> rfl

lemma compiles_negate {f : Filter} (h : f.Compiles) : f.negate.Compiles := by
  rw [Compiles, compile_negate, exists_map_ok]
  exact h

lemma accepts_negate {f : Filter} (h : f.Compiles) (e : Entry) :
    f.negate.accepts e = !f.accepts e := by
  obtain ⟨test, htest⟩ := h
  rw [accepts, compile_negate, accepts, htest]
  rfl

/-! ## Filters that may be missing -/

/-- The conditions of a filter, if there is one. -/
def conditions? (f : Option Filter) : List Condition :=
  f.toList.flatMap conditions

/-- The verdict of a filter, if there is one. -/
def accepts? (f : Option Filter) (e : Entry) : Bool :=
  f.all fun f => f.accepts e

@[simp] lemma conditions?_none : conditions? none = [] := rfl

@[simp] lemma conditions?_some (f : Filter) : conditions? (some f) = f.conditions := by
  simp [conditions?]

@[simp] lemma accepts?_none (e : Entry) : accepts? none e = true := rfl

@[simp] lemma accepts?_some (f : Filter) (e : Entry) : accepts? (some f) e = f.accepts e := rfl

lemma conjunction?_eq_none_iff {fs : List Filter} : conjunction? fs = none ↔ fs = [] := by
  cases fs <;> simp [conjunction?]

lemma conditions?_conjunction? (fs : List Filter) :
    conditions? (conjunction? fs) = fs.flatMap conditions := by
  cases fs with
  | nil => rfl
  | cons f fs => rw [conjunction?, conditions?_some, conditions_foldl_and, List.flatMap_cons]

lemma accepts?_conjunction? {fs : List Filter} (h : ∀ f ∈ fs, f.Compiles) (e : Entry) :
    accepts? (conjunction? fs) e = fs.all fun f => f.accepts e := by
  cases fs with
  | nil => rfl
  | cons f fs =>
    obtain ⟨hf, hfs⟩ := List.forall_mem_cons.1 h
    rw [conjunction?, accepts?_some, accepts_foldl_and hf hfs, List.all_cons]

lemma conditions?_conjunction?_filterMap {α : Type} (part : α → Option Filter) (as : List α) :
    conditions? (conjunction? (as.filterMap part)) = as.flatMap fun a => conditions? (part a) := by
  rw [conditions?_conjunction?, List.filterMap_eq_flatMap_toList, List.flatMap_assoc]
  rfl

lemma accepts?_conjunction?_filterMap {α : Type} {part : α → Option Filter} {as : List α}
    (h : ∀ a ∈ as, ∀ c ∈ conditions? (part a), (leaf c).Compiles) (e : Entry) :
    accepts? (conjunction? (as.filterMap part)) e = as.all fun a => accepts? (part a) e := by
  rw [accepts?_conjunction?, List.all_filterMap]
  · refine forall₂_all_eq (List.forall₂_same.2 ?_)
    intro a _
    cases part a <;> rfl
  · intro f hf
    obtain ⟨a, ha, hpart⟩ := List.mem_filterMap.1 hf
    have hconditions := h a ha
    rw [hpart, conditions?_some] at hconditions
    exact compiles_iff.2 hconditions

lemma conditions?_and? (f g : Option Filter) :
    conditions? (and? f g) = conditions? f ++ conditions? g := by
  cases f <;> cases g <;> simp [and?, conditions_and]

lemma forall_conditions?_and? {p : Condition → Prop} {f g : Option Filter} :
    (∀ c ∈ conditions? (and? f g), p c) ↔
      (∀ c ∈ conditions? f, p c) ∧ ∀ c ∈ conditions? g, p c := by
  rw [conditions?_and?, List.forall_mem_append]

lemma accepts?_and? {f g : Option Filter} (hf : ∀ c ∈ conditions? f, (leaf c).Compiles)
    (hg : ∀ c ∈ conditions? g, (leaf c).Compiles) (e : Entry) :
    accepts? (and? f g) e = (accepts? f e && accepts? g e) := by
  match f, g with
  | none, g => rfl
  | some f, none => simp [and?]
  | some f, some g =>
    rw [conditions?_some] at hf hg
    exact accepts_and (compiles_iff.2 hf) (compiles_iff.2 hg) e

end Filter

/-! ## Splits -/

namespace Split

open DirectoryQuery.Filter

/-- Whether all parts accept an entry. -/
def accepts (s : Split) (e : Entry) : Bool :=
  accepts? s.pushed e && accepts? s.kept e && s.pinned.all fun c => (leaf c).accepts e

/-- The parts hold these conditions, each where it belongs.  A whole filter may be kept back for the
sake of some of its conditions, so any of them can be in the part that is kept. -/
structure IsSplitOf (s : Split) (place : Condition → Placement) (conditions : List Condition) :
    Prop where
  pushed : ∀ c ∈ conditions? s.pushed, c ∈ conditions ∧ place c = .pushed
  kept : ∀ c ∈ conditions? s.kept, c ∈ conditions
  pinned : ∀ c ∈ s.pinned, c ∈ conditions ∧ place c = .pinned
  isPushedOnly : s.isPushedOnly = true → ∀ c ∈ conditions, place c = .pushed

lemma isSplitOf_whole {f : Filter} {place : Condition → Placement} {isPushed : Bool}
    (h : isPushed = true → ∀ c ∈ f.conditions, place c = .pushed) :
    (whole f isPushed).IsSplitOf place f.conditions := by
  cases isPushed with
  | true =>
    have hpushed := h rfl
    refine ⟨fun c hc => ?_, by simp [whole], by simp [whole], fun _ => hpushed⟩
    have hmem : c ∈ f.conditions := by simpa [whole] using hc
    exact ⟨hmem, hpushed c hmem⟩
  | false => constructor <;> simp [whole, Split.isPushedOnly]

lemma accepts_whole (f : Filter) (isPushed : Bool) (e : Entry) :
    (whole f isPushed).accepts e = f.accepts e := by
  cases isPushed <;> simp [whole, accepts]

lemma isPushedOnly_iff {s : Split} : s.isPushedOnly = true ↔ s.kept = none ∧ s.pinned = [] := by
  rw [Split.isPushedOnly, Bool.and_eq_true, Option.isNone_iff_eq_none, List.isEmpty_iff]

lemma isSplitOf_join {parts : List Filter} {place : Condition → Placement}
    (h : ∀ f ∈ parts, (f.split place).IsSplitOf place f.conditions) :
    (join (parts.map (split place))).IsSplitOf place (parts.flatMap conditions) := by
  refine ⟨fun c hc => ?_, fun c hc => ?_, fun c hc => ?_, fun honly c hc => ?_⟩
  · rw [join, conditions?_conjunction?_filterMap, List.flatMap_map] at hc
    obtain ⟨f, hf, hc⟩ := List.mem_flatMap.1 hc
    obtain ⟨hmem, hplace⟩ := (h f hf).pushed c hc
    exact ⟨List.mem_flatMap.2 ⟨f, hf, hmem⟩, hplace⟩
  · rw [join, conditions?_conjunction?_filterMap, List.flatMap_map] at hc
    obtain ⟨f, hf, hc⟩ := List.mem_flatMap.1 hc
    exact List.mem_flatMap.2 ⟨f, hf, (h f hf).kept c hc⟩
  · rw [join, List.flatMap_map] at hc
    obtain ⟨f, hf, hc⟩ := List.mem_flatMap.1 hc
    obtain ⟨hmem, hplace⟩ := (h f hf).pinned c hc
    exact ⟨List.mem_flatMap.2 ⟨f, hf, hmem⟩, hplace⟩
  · obtain ⟨f, hf, hc⟩ := List.mem_flatMap.1 hc
    refine (h f hf).isPushedOnly (isPushedOnly_iff.2 ?_) c hc
    obtain ⟨hkept, hpinned⟩ := isPushedOnly_iff.1 honly
    have hpart : f.split place ∈ parts.map (split place) := List.mem_map_of_mem hf
    refine ⟨?_, List.flatMap_eq_nil_iff.1 hpinned _ hpart⟩
    exact List.filterMap_eq_nil_iff.1 (conjunction?_eq_none_iff.1 hkept) _ hpart

lemma accepts_join {parts : List Split}
    (hpushed : ∀ s ∈ parts, ∀ c ∈ conditions? s.pushed, (leaf c).Compiles)
    (hkept : ∀ s ∈ parts, ∀ c ∈ conditions? s.kept, (leaf c).Compiles) (e : Entry) :
    (join parts).accepts e = parts.all fun s => s.accepts e := by
  rw [accepts, join, accepts?_conjunction?_filterMap hpushed, accepts?_conjunction?_filterMap hkept,
    List.all_flatMap, Bool.eq_iff_iff]
  simp only [Bool.and_eq_true, List.all_eq_true, accepts]
  constructor
  · rintro ⟨⟨hpushed, hkept⟩, hpinned⟩ s hs
    exact ⟨⟨hpushed s hs, hkept s hs⟩, hpinned s hs⟩
  · intro h
    exact ⟨⟨fun s hs => (h s hs).1.1, fun s hs => (h s hs).1.2⟩, fun s hs => (h s hs).2⟩

end Split

namespace Filter

open Split

variable (place : Condition → Placement)

/-- The parts of a split hold the conditions of the filter, each where it belongs. -/
theorem isSplitOf_split (f : Filter) : (f.split place).IsSplitOf place f.conditions := by
  induction f with
  | leaf c =>
    unfold split
    cases hplace : place c with
    | pushed => constructor <;> simp [hplace]
    | kept => constructor <;> simp [Split.isPushedOnly]
    | pinned => constructor <;> simp [hplace, Split.isPushedOnly]
  | all parts ih =>
    rw [split, splitEach_eq, conditions_all]
    exact isSplitOf_join ih
  | any parts ih =>
    rw [split, splitEach_eq]
    apply isSplitOf_whole
    intro hpushed
    rw [forall_conditions_any]
    intro f hf
    have honly := List.all_eq_true.1 hpushed _ (List.mem_map_of_mem hf)
    exact (ih f hf).isPushedOnly honly
  | not part ih =>
    unfold split
    exact isSplitOf_whole ih.isPushedOnly

/-- A filter accepts what all its parts accept. -/
theorem accepts_split {f : Filter} (h : f.Compiles) (e : Entry) :
    (f.split place).accepts e = f.accepts e := by
  induction f with
  | leaf c =>
    unfold split
    cases place c <;> simp [Split.accepts]
  | all parts ih =>
    have hparts := compiles_all.1 h
    rw [split, splitEach_eq, accepts_join, accepts_all h, List.all_map]
    · exact forall₂_all_eq (List.forall₂_same.2 fun f hf => ih f hf (hparts f hf))
    · intro s hs c hc
      obtain ⟨f, hf, rfl⟩ := List.mem_map.1 hs
      exact compiles_iff.1 (hparts f hf) c ((isSplitOf_split place f).pushed c hc).1
    · intro s hs c hc
      obtain ⟨f, hf, rfl⟩ := List.mem_map.1 hs
      exact compiles_iff.1 (hparts f hf) c ((isSplitOf_split place f).kept c hc)
  | any parts ih => rw [split, accepts_whole]
  | not part ih => rw [split, accepts_whole]

end Filter

/-! ## Placement in a query to a directory -/

/-- A pinned condition equates the name of the entry with a text. -/
lemma eq_of_pinned {c : Condition} (h : directoryPlacement c = .pinned) :
    isIdentity c.field = true ∧ c.lookupKind = .ok .exact ∧ ∃ dn, c.operand = .one (.text dn) := by
  rw [directoryPlacement] at h
  split at h
  · rename_i hid
    split at h
    · rename_i dn hlookup hoperand
      refine ⟨hid, ?_, dn, hoperand⟩
      rw [Condition.lookupKind, hlookup]
    · cases h
  · split at h <;> cases h

/-- A pushed condition is no comparison. -/
lemma not_isComparison_of_pushed {c : Condition} (h : directoryPlacement c = .pushed) :
    (Lookup.ofName? c.lookupName).any Lookup.isComparison = false := by
  rw [directoryPlacement] at h
  split at h
  · split at h <;> cases h
  · split at h
    · cases h
    · rename_i hcompare
      exact eq_false_of_ne_true hcompare

/-! ## Pinned conditions -/

namespace Pin

open DirectoryQuery.Filter

lemma compile_equality {c : Condition} {dn : String}
    (hlookup : c.lookupKind = .ok .exact ∨ c.lookupKind = .ok .iexact)
    (hoperand : c.operand = .one (.text dn)) :
    (leaf c).compile = .ok (Condition.someValue c.field
      (Condition.equalityTest c.field (.text dn))) := by
  unfold compile
  obtain hlookup | hlookup := hlookup
  · rw [c.compile_of_takesOne hlookup rfl, hoperand]
    rfl
  · rw [c.compile_of_takesOne hlookup rfl, hoperand]
    rfl

/-- A pinned condition needs no check. -/
lemma compiles_of_pinned {c : Condition} (h : directoryPlacement c = .pinned) :
    (leaf c).Compiles := by
  obtain ⟨-, hlookup, dn, hoperand⟩ := eq_of_pinned h
  exact ⟨_, compile_equality (.inl hlookup) hoperand⟩

/-- Equality of the name with a text is decided by comparing names. -/
lemma accepts_identity {c : Condition} {e : Entry} {dn : String} (he : e.Built)
    (hid : isIdentity c.field = true)
    (hlookup : c.lookupKind = .ok .exact ∨ c.lookupKind = .ok .iexact)
    (hoperand : c.operand = .one (.text dn)) :
    (leaf c).accepts e = DistinguishedName.same e.dn dn := by
  rw [accepts_of_compile (compile_equality hlookup hoperand), Condition.someValue,
    he.get_identity hid, Condition.equalityTest, hid]
  exact Bool.or_false _

/-- Whether an entry is what the pinned conditions name. -/
def accepts (pin : Pin) (e : Entry) : Bool :=
  match pin with
  | .unpinned => true
  | .entry dn checks => DistinguishedName.same e.dn dn && accepts? checks e
  | .conflict => false

lemma accepts_check {e : Entry} (he : e.Built) (dn : String) :
    (check dn).accepts e = DistinguishedName.same e.dn dn :=
  accepts_identity he (show isIdentity identityAttribute = true by decide) (.inr rfl) rfl

lemma compiles_check (dn : String) : (check dn).Compiles :=
  ⟨_, rfl⟩

/-- The names that pinned conditions ask for. -/
def names (pinned : List Condition) : List String :=
  pinned.filterMap fun c => c.operand.single?.bind Value.asText?

variable {pinned : List Condition} (h : ∀ c ∈ pinned, directoryPlacement c = .pinned)
include h

lemma exists_of_mem_names {dn : String} (hdn : dn ∈ names pinned) :
    ∃ c ∈ pinned, c.operand = .one (.text dn) := by
  obtain ⟨c, hc, hname⟩ := List.mem_filterMap.1 hdn
  obtain ⟨-, -, dn', hoperand⟩ := eq_of_pinned (h c hc)
  rw [hoperand] at hname
  obtain rfl := Option.some.inj hname
  exact ⟨c, hc, hoperand⟩

lemma all_names {e : Entry} (he : e.Built) :
    (names pinned).all (DistinguishedName.same e.dn) =
      pinned.all fun c => (leaf c).accepts e := by
  rw [names, List.all_filterMap]
  refine forall₂_all_eq (List.forall₂_same.2 ?_)
  intro c hc
  obtain ⟨hid, hlookup, dn, hoperand⟩ := eq_of_pinned (h c hc)
  rw [accepts_identity he hid (.inl hlookup) hoperand, hoperand]
  rfl

/-- What pinned conditions amount to accepts the same entries as they do. -/
theorem accepts_resolve {e : Entry} (he : e.Built) :
    (resolve pinned).accepts e = pinned.all fun c => (leaf c).accepts e := by
  rw [← all_names h he, resolve, ← names]
  cases names pinned with
  | nil => rfl
  | cons first others =>
    simp only [List.all_cons]
    cases hfirst : DistinguishedName.same e.dn first with
    | false =>
      split
      · rw [accepts, hfirst, Bool.false_and, Bool.false_and]
      · rw [accepts, Bool.false_and]
    | true =>
      have hswap : ∀ dn, DistinguishedName.same first dn = DistinguishedName.same e.dn dn := by
        intro dn
        rw [Bool.eq_iff_iff]
        constructor
        · exact DistinguishedName.same_trans hfirst
        · rw [DistinguishedName.same_comm] at hfirst
          exact DistinguishedName.same_trans hfirst
      simp only [hswap, Bool.true_and]
      split
      · rename_i hothers
        have hchecks : ∀ f ∈ others.map check, f.Compiles := by simp [compiles_check]
        rw [accepts, hfirst, hothers, accepts?_conjunction? hchecks, List.all_map, Bool.true_and,
          ← hothers]
        exact forall₂_all_eq (List.forall₂_same.2 fun dn _ => accepts_check he dn)
      · rename_i hothers
        rw [accepts, eq_false_of_ne_true hothers]

/-- A pinned name comes from a condition, and what is left to check can be compiled. -/
lemma entry_of_resolve {dn : String} {checks : Option Filter}
    (hentry : resolve pinned = .entry dn checks) :
    (∃ c ∈ pinned, c.operand = .one (.text dn)) ∧
      ∀ c ∈ conditions? checks, (leaf c).Compiles := by
  unfold resolve at hentry
  split at hentry
  · cases hentry
  · rename_i first others hnames
    split at hentry
    · obtain ⟨rfl, rfl⟩ := Pin.entry.inj hentry
      refine ⟨exists_of_mem_names h (by rw [names, hnames]; exact List.mem_cons_self), ?_⟩
      intro c hc
      rw [conditions?_conjunction?, List.flatMap_map] at hc
      obtain ⟨other, -, hc⟩ := List.mem_flatMap.1 hc
      exact compiles_iff.1 (compiles_check other) c hc
    · cases hentry

end Pin

/-- A filter accepts what its parts for a directory accept, the pinned ones reconciled. -/
theorem Filter.accepts_splitForDirectory {f : Filter} (h : f.Compiles) {e : Entry} (he : e.Built) :
    f.accepts e = (accepts? f.splitForDirectory.pushed e && accepts? f.splitForDirectory.kept e &&
      (Pin.resolve f.splitForDirectory.pinned).accepts e) := by
  have hpinned : ∀ c ∈ f.splitForDirectory.pinned, directoryPlacement c = .pinned :=
    fun c hc => ((isSplitOf_split directoryPlacement f).pinned c hc).2
  rw [Pin.accepts_resolve hpinned he]
  exact (accepts_split directoryPlacement h e).symm

end DirectoryQuery
