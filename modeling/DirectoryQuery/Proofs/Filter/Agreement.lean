import DirectoryQuery.Proofs.SearchFilter.RoundTrip

/-!
# Two evaluators, one verdict

A filter can be evaluated in two places: compiled into a test on entries, or written for a
directory, read there and matched.  Both fail alike, and where they succeed they give the same
verdict (`Filter.render_agrees_with_compile`), for filters without comparisons that stay away from
the entry's own name and its object class.

The argument is about conditions; filters follow part by part.  Both sides compare values in lower
case, and a value folds to the same characters as the bytes that a directory stores for it
(`foldBytes_toBytes`).  The one difference is equality between an integer and a text, which a
compiled filter decides by number and a directory by its characters; `Condition.IsUnmixed` sets
such pairs aside.
-/

namespace DirectoryQuery

/-! ## Values -/

lemma foldBytes_toBytes (v : Value) : foldBytes v.toBytes = v.folded := by
  cases v with
  | bytes b => simp [foldBytes, Value.folded, Value.toText]
  | bool b => simp only [foldBytes, Value.toBytes, Text.decodeLossy_bytesOf, Value.folded]
  | int n => simp only [foldBytes, Value.toBytes, Text.decodeLossy_bytesOf, Value.folded]
  | text s => simp only [foldBytes, Value.toBytes, Text.decodeLossy_bytesOf, Value.folded]

/-- Whether one of the values is an integer and the other a text. -/
def Value.isMixed : Value → Value → Bool
  | .int _, .text _ | .text _, .int _ => true
  | _, _ => false

lemma Value.matchesIgnoringCase_eq {v w : Value} (h : v.isMixed w = false) :
    v.matchesIgnoringCase w = (foldBytes v.toBytes == foldBytes w.toBytes) := by
  rw [foldBytes_toBytes, foldBytes_toBytes]
  cases v <;> cases w <;> first | rfl | cases h

/-! ## Patterns -/

section Pattern

variable (v : Value) (s : List Char)

lemma Pattern.holds_initial :
    Pattern.holds ⟨some v.toBytes, [], none⟩ s = Text.beginsWith v.folded s := by
  rw [Pattern.holds, Text.beginsWith]
  simp only [foldBytes_toBytes]
  cases Text.dropPiece? v.folded s <;> rfl

lemma Pattern.holds_middle :
    Pattern.holds ⟨none, [v.toBytes], none⟩ s = Text.hasPiece v.folded s := by
  rw [Pattern.holds, Text.hasPiece]
  simp only [Option.bind_some, Pattern.afterMiddle?, foldBytes_toBytes]
  cases Text.afterFirst? v.folded s <;> rfl

lemma Pattern.holds_final :
    Pattern.holds ⟨none, [], some v.toBytes⟩ s = Text.endsWith v.folded s := by
  unfold Pattern.holds
  simp only [Option.bind_some, Pattern.afterMiddle?, foldBytes_toBytes]

end Pattern

/-! ## Conditions -/

namespace Condition

/-- Whether the lookup of the condition is a comparison. -/
def isComparison (c : Condition) : Bool :=
  (Lookup.ofName? c.lookupName).any Lookup.isComparison

/-- Whether the lookup of the condition is an equality, with one value or with several. -/
def isEquality (c : Condition) : Bool :=
  (Lookup.ofName? c.lookupName).any fun l => l == .exact || l == .iexact || l == .oneOf

/-- No value of the entry meets an operand as an integer meets a text. -/
def IsUnmixed (c : Condition) (e : Entry) : Prop :=
  c.isEquality = true → ∀ v ∈ e.get c.field, ∀ w ∈ c.operand.values, v.isMixed w = false

lemma lookupKind_eq_ok_iff {c : Condition} {lookup : Lookup} :
    c.lookupKind = .ok lookup ↔ Lookup.ofName? c.lookupName = some lookup := by
  unfold lookupKind
  cases Lookup.ofName? c.lookupName <;> simp

/-- A lookup of one value that is no comparison can be compiled and written. -/
lemma exists_stars_of_takesOne {lookup : Lookup} (hone : lookup.takesOne = true)
    (h : lookup.isComparison = false) (field : String) (v : Value) :
    ∃ before after test, Filter.stars? lookup = some (before, after) ∧
      singleTest? lookup field v = some test := by
  cases lookup <;> first
    | exact ⟨_, _, _, rfl, rfl⟩
    | exact absurd hone (by decide)
    | exact absurd h (by decide)

lemma error_alike {α β : Type} {a e : FilterError} :
    (.error a : Except FilterError α) = .error e ↔
      (.error a : Except FilterError β) = .error e := by
  rw [Except.error.injEq, Except.error.injEq]

lemma ok_alike {α β : Type} {a : α} {b : β} {e : FilterError} :
    (.ok a : Except FilterError α) = .error e ↔ (.ok b : Except FilterError β) = .error e := by
  constructor <;> intro h <;> cases h

/-- Without a comparison, a condition can be written exactly when it can be compiled. -/
lemma render_eq_error_iff {c : Condition} (h : c.isComparison = false) (e : FilterError) :
    c.render = .error e ↔ c.compile = .error e := by
  cases hlookup : c.lookupKind with
  | error e' =>
    rw [render, compile, hlookup]
    exact error_alike
  | ok lookup =>
    rw [isComparison, lookupKind_eq_ok_iff.1 hlookup, Option.any_some] at h
    by_cases hone : lookup.takesOne = true
    · rw [c.render_of_takesOne hlookup hone, c.compile_of_takesOne hlookup hone]
      cases c.operand.single? with
      | none => exact error_alike
      | some v =>
        obtain ⟨before, after, test, hstars, htest⟩ := exists_stars_of_takesOne hone h c.field v
        simp only [hstars, htest]
        exact ok_alike
    · rw [render, compile, hlookup]
      obtain rfl | rfl | rfl := Lookup.eq_of_not_takesOne hone
      · exact ok_alike
      · exact ok_alike
      · simp only [bind, Except.bind]
        cases c.operand.values with
        | nil => exact error_alike
        | cons v vs =>
          cases vs with
          | nil => exact ok_alike
          | cons w vs => exact ok_alike

/-- A condition that compiles and is no comparison is written and read as what it asks for. -/
lemma exists_parse {c : Condition} (hname : IsPlainName c.field) (hcompare : c.isComparison = false)
    {test : Entry → Bool} (h : c.compile = .ok test) :
    ∃ text, c.render = .ok text ∧ SearchFilter.parse text = .ok c.asked := by
  cases hrender : c.render with
  | error e =>
    rw [(render_eq_error_iff hcompare e).1 hrender] at h
    cases h
  | ok text =>
    exact ⟨text, rfl, SearchFilter.parse_of_readsAs (readsAs_render_condition hname hrender)⟩

/-! ## Verdicts -/

lemma equalityTest_of_not_identity {field : String} (h : isIdentity field = false) (v : Value) :
    equalityTest field v = fun u => u.matchesIgnoringCase v := by
  rw [equalityTest, h]

lemma any_any_comm {α β : Type} (as : List α) (bs : List β) (p : α → β → Bool) :
    (as.any fun a => bs.any (p a)) = bs.any fun b => as.any fun a => p a b := by
  rw [Bool.eq_iff_iff]
  simp only [List.any_eq_true]
  constructor
  · rintro ⟨a, ha, b, hb, hab⟩
    exact ⟨b, hb, a, ha, hab⟩
  · rintro ⟨b, hb, a, ha, hab⟩
    exact ⟨a, ha, b, hb, hab⟩

/-- Where an equality looks, both sides compare folded characters. -/
lemma any_equal {field : String} {vs : List Value} {e : Entry}
    (h : ∀ u ∈ e.get field, ∀ v ∈ vs, u.isMixed v = false) :
    (vs.any fun v => (SearchFilter.equal field v.toBytes).holds e) =
      someValue field (fun u => vs.any u.matchesIgnoringCase) e := by
  rw [someValue, any_any_comm]
  refine forall₂_any_eq (List.forall₂_same.2 ?_)
  intro v hv
  unfold SearchFilter.holds
  refine forall₂_any_eq (List.forall₂_same.2 ?_)
  intro u hu
  exact (Value.matchesIgnoringCase_eq (h u hu v hv)).symm

section Verdict

variable {field : String} (hclass : Text.sameName field classAttribute = false)

include hclass in
lemma holds_present (e : Entry) : (SearchFilter.present field).holds e = e.has field := by
  rw [SearchFilter.holds, hclass, Bool.false_or]

include hclass in
lemma holds_presence (e : Entry) (present : Bool) :
    (SearchFilter.presence field present).holds e = (e.has field == present) := by
  cases present with
  | true =>
    rw [SearchFilter.presence, if_pos rfl, holds_present hclass]
    cases e.has field <;> rfl
  | false =>
    rw [SearchFilter.presence, if_neg Bool.false_ne_true, SearchFilter.holds, holds_present hclass]
    cases e.has field <;> rfl

/-- Every text begins and ends with nothing. -/
lemma has_eq_someValue {test : ValueTest} (h : ∀ u, test u = true) (e : Entry) :
    e.has field = someValue field test e := by
  rw [Entry.has, someValue]
  cases e.get field with
  | nil => rfl
  | cons u us => rw [List.any_cons, h u]; rfl

lemma folded_eq_nil {v : Value} (h : v.toBytes = []) : v.folded = [] := by
  rw [← foldBytes_toBytes, h]
  rfl

lemma hasPiece_nil (s : List Char) : Text.hasPiece [] s = true := by
  cases s <;> rfl

lemma holds_pattern {pieces : Pattern} {test : ValueTest}
    (h : ∀ u : Value, pieces.holds (foldBytes u.toBytes) = test u) (e : Entry) :
    (SearchFilter.pattern field pieces).holds e = someValue field test e := by
  rw [SearchFilter.holds, someValue]
  exact forall₂_any_eq (List.forall₂_same.2 fun u _ => h u)

include hclass in
/-- A lookup of one value has the same verdict on both sides. -/
lemma holds_asked_of_takesOne (hid : isIdentity field = false) {lookup : Lookup} {v : Value}
    {test : ValueTest} {e : Entry} (hcompare : lookup.isComparison = false)
    (htest : singleTest? lookup field v = some test)
    (hmix : lookup = .exact ∨ lookup = .iexact →
      ∀ u ∈ e.get field, ∀ w ∈ [v], u.isMixed w = false) :
    (lookup.asked field v.toBytes).holds e = someValue field test e := by
  cases lookup <;> cases htest
  case exact | iexact =>
    have hequal := any_equal (hmix (by decide))
    simp only [List.any_cons, List.any_nil, Bool.or_false] at hequal
    rw [equalityTest_of_not_identity hid]
    exact hequal
  case contains | icontains | search =>
    refine holds_pattern ?_ e
    intro u
    rw [foldBytes_toBytes, pieceTest]
    by_cases hnil : v.toBytes = []
    · rw [if_pos hnil, folded_eq_nil hnil]
      exact (hasPiece_nil u.folded).symm
    · rw [if_neg hnil, Pattern.holds_middle]
  case startsWith | istartsWith =>
    by_cases hnil : v.toBytes = []
    · rw [Lookup.asked, if_pos hnil, holds_present hclass, pieceTest, folded_eq_nil hnil]
      exact has_eq_someValue (fun u => rfl) e
    · rw [Lookup.asked, if_neg hnil]
      refine holds_pattern ?_ e
      intro u
      rw [foldBytes_toBytes, pieceTest, Pattern.holds_initial]
  case endsWith | iendsWith =>
    by_cases hnil : v.toBytes = []
    · rw [Lookup.asked, if_pos hnil, holds_present hclass, pieceTest, folded_eq_nil hnil]
      exact has_eq_someValue (fun u => rfl) e
    · rw [Lookup.asked, if_neg hnil]
      refine holds_pattern ?_ e
      intro u
      rw [foldBytes_toBytes, pieceTest, Pattern.holds_final]
  all_goals exact absurd hcompare (by decide)

end Verdict

/-- What a condition asks for holds of an entry exactly when the compiled condition accepts it. -/
lemma holds_asked {c : Condition} (hclass : Text.sameName c.field classAttribute = false)
    (hid : isIdentity c.field = false) (hcompare : c.isComparison = false) {e : Entry}
    (hmix : c.IsUnmixed e) {test : Entry → Bool} (h : c.compile = .ok test) :
    c.asked.holds e = test e := by
  cases hlookup : c.lookupKind with
  | error e' =>
    rw [compile, hlookup] at h
    cases h
  | ok lookup =>
    rw [isComparison, lookupKind_eq_ok_iff.1 hlookup, Option.any_some] at hcompare
    rw [IsUnmixed, isEquality, lookupKind_eq_ok_iff.1 hlookup, Option.any_some] at hmix
    by_cases hone : lookup.takesOne = true
    · rw [c.compile_of_takesOne hlookup hone] at h
      cases hv : c.operand.single? with
      | none =>
        rw [hv] at h
        cases h
      | some v =>
        have hvalues := Operand.values_of_single? hv
        obtain ⟨before, after, valueTest, _, htest⟩ :=
          exists_stars_of_takesOne hone hcompare c.field v
        simp only [hv, htest] at h
        cases h
        rw [c.asked_of_takesOne hlookup hone hvalues]
        refine holds_asked_of_takesOne hclass hid hcompare htest ?_
        rintro (rfl | rfl)
        · exact hvalues ▸ hmix rfl
        · exact hvalues ▸ hmix rfl
    · rw [compile, hlookup] at h
      rw [asked, hlookup]
      obtain rfl | rfl | rfl := Lookup.eq_of_not_takesOne hone
      · cases h
        exact holds_presence hclass e _
      · cases h
        rw [holds_presence hclass]
        have hnot : ∀ a b : Bool, (a == !b) = !(a == b) := by decide
        exact hnot _ _
      · have hchoice := any_equal (hmix rfl)
        simp only [bind, Except.bind] at h
        cases hvs : c.operand.values with
        | nil =>
          rw [hvs] at h
          cases h
        | cons v vs =>
          rw [hvs] at h hchoice
          cases vs with
          | nil =>
            cases h
            simp only [List.any_cons, List.any_nil, Bool.or_false] at hchoice ⊢
            exact hchoice
          | cons w vs =>
            cases h
            rw [← hchoice]
            simp only [SearchFilter.holds, SearchFilter.anyHolds_eq, List.any_map]
            rfl

end Condition

namespace Filter

/-! ## Filters -/

/-- The verdicts on the conditions decide the verdict on the filter. -/
lemma holds_asked {f : Filter} (hcompiles : f.Compiles) {e : Entry}
    (h : ∀ c ∈ f.conditions, c.asked.holds e = (leaf c).accepts e) :
    f.asked.holds e = f.accepts e := by
  induction f with
  | leaf c => exact h c (by simp)
  | all parts ih =>
    rw [forall_conditions_all] at h
    rw [accepts_all hcompiles, asked, askedOfEach_eq, SearchFilter.holds, SearchFilter.allHold_eq,
      List.all_map]
    have hparts := compiles_all.1 hcompiles
    exact forall₂_all_eq (List.forall₂_same.2 fun f hf => ih f hf (hparts f hf) (h f hf))
  | any parts ih =>
    rw [forall_conditions_any] at h
    rw [accepts_any hcompiles, asked, askedOfEach_eq, SearchFilter.holds, SearchFilter.anyHolds_eq,
      List.any_map]
    have hparts := compiles_any.1 hcompiles
    exact forall₂_any_eq (List.forall₂_same.2 fun f hf => ih f hf (hparts f hf) (h f hf))
  | not part ih =>
    have hpart := compiles_not.1 hcompiles
    rw [accepts_not hpart, asked, SearchFilter.holds, ih hpart h]

/-- Without comparisons, a filter fails to be written exactly as it fails to compile. -/
lemma render_eq_error_iff {f : Filter} (h : ∀ c ∈ f.conditions, c.isComparison = false)
    (e : FilterError) : f.render = .error e ↔ f.compile = .error e := by
  induction f generalizing e with
  | leaf c => exact Condition.render_eq_error_iff (h c (by simp)) e
  | all parts ih =>
    rw [forall_conditions_all] at h
    rw [render_all, compile_all, map_eq_error_iff, map_eq_error_iff]
    exact mapM_eq_error_congr (fun f hf => ih f hf (h f hf)) e
  | any parts ih =>
    rw [forall_conditions_any] at h
    rw [render_any, compile_any, map_eq_error_iff, map_eq_error_iff]
    exact mapM_eq_error_congr (fun f hf => ih f hf (h f hf)) e
  | not part ih =>
    rw [render_not, compile_not, map_eq_error_iff, map_eq_error_iff]
    exact ih h e

lemma exists_render_iff {f : Filter} (h : ∀ c ∈ f.conditions, c.isComparison = false) :
    (∃ text, f.render = .ok text) ↔ f.Compiles := by
  have herror := render_eq_error_iff h
  unfold Compiles
  cases hrender : f.render with
  | error e => simp [(herror e).1 hrender]
  | ok text =>
    cases hcompile : f.compile with
    | error e =>
      rw [(herror e).2 hcompile] at hrender
      cases hrender
    | ok test => simp

/-- What is written for a filter and what it compiles to fail alike and, where both succeed, accept
the same entries. -/
theorem render_agrees_with_compile {f : Filter}
    (hnames : ∀ c ∈ f.conditions, IsPlainName c.field)
    (hid : ∀ c ∈ f.conditions, isIdentity c.field = false)
    (hcompare : ∀ c ∈ f.conditions, c.isComparison = false) :
    ((∃ text, f.render = .ok text) ↔ ∃ test, f.compile = .ok test) ∧
      (∀ err, f.render = .error err ↔ f.compile = .error err) ∧
      ∀ text test, f.render = .ok text → f.compile = .ok test →
        ∃ sf, SearchFilter.parse text = .ok sf ∧
          ∀ e, (∀ c ∈ f.conditions,
            Text.sameName c.field classAttribute = false ∧ c.IsUnmixed e) →
              sf.holds e = test e := by
  refine ⟨exists_render_iff hcompare, render_eq_error_iff hcompare, ?_⟩
  intro text test hrender hcompile
  refine ⟨f.asked, SearchFilter.parse_of_readsAs (readsAs_render hnames hrender), fun e he => ?_⟩
  rw [← accepts_of_compile hcompile e]
  refine holds_asked ⟨test, hcompile⟩ ?_
  intro c hc
  obtain ⟨testOf, htest⟩ := compiles_iff.1 ⟨test, hcompile⟩ c hc
  rw [accepts_of_compile htest]
  exact Condition.holds_asked (he c hc).1 (hid c hc) (hcompare c hc) (he c hc).2 htest

/-- A star in an operand is a character and no pattern, wherever the filter is evaluated. -/
theorem render_agrees_with_compile_star :
    ∃ sf, SearchFilter.parse "(!(cn=a\\2A*))" = .ok sf ∧
      sf.holds ((Entry.named "uid=x").insert "cn" [.text "A*b"]) = false := by
  let c : Condition := ⟨"cn", some "startswith", .one (.text "a*")⟩
  obtain ⟨test, htest⟩ : ∃ test, (Filter.not (leaf c)).compile = .ok test := ⟨_, rfl⟩
  have hplain : ∀ c' ∈ (Filter.not (leaf c)).conditions, IsPlainName c'.field :=
    List.forall_mem_singleton.2 (by decide)
  have hagrees := render_agrees_with_compile (f := .not (leaf c)) hplain
    (by simp [c]; decide) (by simp [c]; decide)
  obtain ⟨sf, hsf, hholds⟩ := hagrees.2.2 _ test rfl htest
  refine ⟨sf, hsf, ?_⟩
  rw [hholds _ (by simp [c, Condition.IsUnmixed]; decide)]
  cases htest
  decide

end Filter

end DirectoryQuery
