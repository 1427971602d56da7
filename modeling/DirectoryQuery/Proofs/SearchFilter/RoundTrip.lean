import DirectoryQuery.Proofs.Filter.Induction
import DirectoryQuery.Proofs.SearchFilter.Reading

/-!
# Written filters are read back

A filter tree asks a directory for a search filter of the same shape (`Filter.asked`): the tree of
connectives stays as it is, and each condition becomes the test that its lookup stands for.  What
is written for the tree is read back as exactly that search filter (`parse_render`).

In particular an operand never leaves its place.  An outline keeps of an operand no more than
whether it is truthy, how many values it has and which of them are empty, and of a search filter
everything but the bytes.  Trees with the same outline are read back with the same outline,
whatever else their operands hold.
-/

namespace DirectoryQuery

open SearchFilter (code enclosed ReadsAs)

/-! ## What a filter asks for -/

/-- The test that a lookup of one value stands for.  Nothing begins or ends with an empty value
that is not there, so such a lookup asks for presence. -/
def Lookup.asked (lookup : Lookup) (name : String) (bytes : List UInt8) : SearchFilter :=
  match lookup with
  | .contains | .icontains | .search =>
    .pattern name ⟨none, if bytes = [] then [] else [bytes], none⟩
  | .startsWith | .istartsWith =>
    if bytes = [] then .present name else .pattern name ⟨some bytes, [], none⟩
  | .endsWith | .iendsWith =>
    if bytes = [] then .present name else .pattern name ⟨none, [], some bytes⟩
  | _ => .equal name bytes

/-- The test for presence, or the one for absence. -/
def SearchFilter.presence (name : String) (present : Bool) : SearchFilter :=
  if present then .present name else .not (.present name)

/-- The search filter that a condition asks for.  A condition that cannot be written asks for
nothing that could hold. -/
def Condition.asked (c : Condition) : SearchFilter :=
  match c.lookupKind with
  | .error _ => .any []
  | .ok .present => .presence c.field c.operand.isTruthy
  | .ok .isNull => .presence c.field (!c.operand.isTruthy)
  | .ok lookup =>
    match lookup, c.operand.values with
    | .oneOf, [v] => .equal c.field v.toBytes
    | .oneOf, vs => .any (vs.map fun v => .equal c.field v.toBytes)
    | _, [v] => lookup.asked c.field v.toBytes
    | _, _ => .any []

namespace Filter

mutual

/-- The search filter that a filter asks for, connective by connective. -/
def asked : Filter → SearchFilter
  | .leaf c => c.asked
  | .all parts => .all (askedOfEach parts)
  | .any parts => .any (askedOfEach parts)
  | .not part => .not part.asked

/-- The search filters that several filters ask for. -/
def askedOfEach : List Filter → List SearchFilter
  | [] => []
  | f :: rest => f.asked :: askedOfEach rest

end

lemma askedOfEach_eq (fs : List Filter) : askedOfEach fs = fs.map asked := by
  induction fs with
  | nil => rfl
  | cons f fs ih => rw [askedOfEach, List.map_cons, ih]

end Filter

/-! ## The bytes of a written filter -/

lemma Text.bytesOf_append (s t : String) :
    Text.bytesOf (s ++ t) = Text.bytesOf s ++ Text.bytesOf t := by
  rw [Text.bytesOf, String.toList_append, Text.encode_append]
  rfl

lemma Text.bytesOf_join (texts : List String) :
    Text.bytesOf (String.join texts) = (texts.map Text.bytesOf).flatten := by
  induction texts with
  | nil => rfl
  | cons s texts ih => rw [String.join_cons, Text.bytesOf_append, ih]; rfl

lemma bytesOf_enclosed (s : String) :
    Text.bytesOf ("(" ++ s ++ ")") = enclosed (Text.bytesOf s) := by
  rw [Text.bytesOf_append, Text.bytesOf_append, List.append_assoc]
  rfl

/-- A mark behind the opening parenthesis stands before the rest. -/
lemma bytesOf_marked {opening : String} {mark : Char} (hopening : opening.toList = ['(', mark])
    (hmark : mark.toNat < 0x80) (rest : String) :
    Text.bytesOf (opening ++ rest ++ ")") = enclosed (code mark :: Text.bytesOf rest) := by
  have h : opening ++ rest ++ ")" = "(" ++ (String.singleton mark ++ rest) ++ ")" :=
    String.toList_inj.1 (by simp [hopening])
  rw [h, bytesOf_enclosed, Text.bytesOf, String.toList_append, String.toList_singleton,
    List.singleton_append, SearchFilter.encode_cons_ascii hmark]
  rfl

lemma bytesOf_renderItem (name before : String) (v : Value) (after : String) :
    Text.bytesOf (Filter.renderItem name before v after) =
      enclosed (Text.bytesOf name ++ code '=' ::
        (Text.bytesOf before ++ (Text.bytesOf (Filter.escapeValue v) ++ Text.bytesOf after))) := by
  have h : Filter.renderItem name before v after =
      "(" ++ (name ++ ("=" ++ (before ++ (Filter.escapeValue v ++ after)))) ++ ")" := by
    simp only [Filter.renderItem, String.append_assoc]
  rw [h, bytesOf_enclosed]
  simp only [Text.bytesOf_append]
  rfl

/-! ## Conditions -/

/-- Between its stars, every operand asks for the test that its lookup stands for. -/
lemma ofValue?_asked {lookup : Lookup} {before after : String}
    (h : Filter.stars? lookup = some (before, after)) (name : String) (v : Value) :
    SearchFilter.ofValue? name
        (Text.bytesOf before ++ (Text.bytesOf (Filter.escapeValue v) ++ Text.bytesOf after)) =
      some (lookup.asked name v.toBytes) := by
  have hnone : Text.bytesOf "" = [] := rfl
  have hstar : Text.bytesOf "*" = [code '*'] := rfl
  cases lookup <;> cases h
  case exact | iexact =>
    rw [hnone, List.nil_append, List.append_nil]
    exact SearchFilter.ofValue?_exact name v
  case contains | icontains | search =>
    rw [hstar, List.singleton_append]
    exact SearchFilter.ofValue?_contains name v
  case startsWith | istartsWith =>
    rw [hnone, hstar, List.nil_append]
    exact SearchFilter.ofValue?_startsWith name v
  case endsWith | iendsWith =>
    rw [hnone, hstar, List.append_nil, List.singleton_append]
    exact SearchFilter.ofValue?_endsWith name v

section Condition

variable {name : String} (hname : IsPlainName name)
include hname

/-- Every item reads as the test that its lookup stands for. -/
lemma readsAs_renderItem {lookup : Lookup} {before after : String}
    (h : Filter.stars? lookup = some (before, after)) (v : Value) :
    ReadsAs (Text.bytesOf (Filter.renderItem name before v after))
      (lookup.asked name v.toBytes) := by
  have hstars : (before = "" ∨ before = "*") ∧ (after = "" ∨ after = "*") := by
    cases lookup <;> cases h <;> decide
  have hplain : ∀ c, isFilterMark c = true → code c ≠ code '*' →
      code c ∉ Text.bytesOf before ++
        (Text.bytesOf (Filter.escapeValue v) ++ Text.bytesOf after) := by
    intro c hc hne hmem
    have hside : ∀ s, s = "" ∨ s = "*" → code c ∉ Text.bytesOf s := by
      rintro s (rfl | rfl) hs
      · cases hs
      · exact hne (List.mem_singleton.1 hs)
    rcases List.mem_append.1 hmem with hmem | hmem
    · exact hside before hstars.1 hmem
    rcases List.mem_append.1 hmem with hmem | hmem
    · exact SearchFilter.not_mem_escapeValue hc v hmem
    · exact hside after hstars.2 hmem
  rw [bytesOf_renderItem]
  refine SearchFilter.readsAs_item hname (hplain '(' (by decide) (by decide))
    (hplain ')' (by decide) (by decide)) (ofValue?_asked h name v)

lemma readsAs_renderPresence (present : Bool) :
    ReadsAs (Text.bytesOf (Filter.renderPresence name present)) (.presence name present) := by
  have hitem : ReadsAs (Text.bytesOf ("(" ++ (name ++ "=*") ++ ")")) (.present name) := by
    rw [bytesOf_enclosed, Text.bytesOf_append]
    exact SearchFilter.readsAs_item hname (by decide) (by decide) rfl
  have hpresent : Filter.renderPresence name true = "(" ++ (name ++ "=*") ++ ")" :=
    String.toList_inj.1 (by simp [Filter.renderPresence])
  have habsent : Filter.renderPresence name false =
      "(!" ++ ("(" ++ (name ++ "=*") ++ ")") ++ ")" :=
    String.toList_inj.1 (by simp [Filter.renderPresence])
  cases present with
  | true =>
    rw [hpresent]
    exact hitem
  | false =>
    rw [habsent, bytesOf_marked (show "(!".toList = ['(', '!'] from rfl) (by decide)]
    exact SearchFilter.readsAs_not hitem

/-- Several equalities are read as their disjunction. -/
lemma readsAs_renderChoice (vs : List Value) :
    ReadsAs
      (Text.bytesOf
        ("(|" ++ String.join (vs.map fun v => Filter.renderItem name "" v "") ++ ")"))
      (.any (vs.map fun v => .equal name v.toBytes)) := by
  have hitems : List.Forall₂ ReadsAs
      ((vs.map fun v => Filter.renderItem name "" v "").map Text.bytesOf)
      (vs.map fun v => .equal name v.toBytes) := by
    simp only [List.forall₂_map_left_iff, List.forall₂_map_right_iff, List.forall₂_same]
    intro v _
    have hexact : Filter.stars? .exact = some ("", "") := rfl
    exact readsAs_renderItem hname hexact v
  rw [bytesOf_marked (show "(|".toList = ['(', '|'] from rfl) (by decide), Text.bytesOf_join]
  exact SearchFilter.readsAs_any hitems

end Condition

lemma Condition.asked_of_takesOne {c : Condition} {lookup : Lookup}
    (h : c.lookupKind = .ok lookup) (hone : lookup.takesOne = true) {v : Value}
    (hv : c.operand.values = [v]) : c.asked = lookup.asked c.field v.toBytes := by
  rw [asked, h, hv]
  cases lookup <;> first | rfl | cases hone

/-- A condition is read as the test that it asks for. -/
lemma readsAs_render_condition {c : Condition} (hname : IsPlainName c.field) {text : String}
    (h : c.render = .ok text) : ReadsAs (Text.bytesOf text) c.asked := by
  cases hlookup : c.lookupKind with
  | error e =>
    rw [Condition.render, hlookup] at h
    cases h
  | ok lookup =>
    by_cases hone : lookup.takesOne = true
    · rw [c.render_of_takesOne hlookup hone] at h
      cases hv : c.operand.single? with
      | none =>
        rw [hv] at h
        cases h
      | some v =>
        cases hstars : Filter.stars? lookup with
        | none =>
          simp only [hv, hstars] at h
          cases h
        | some stars =>
          obtain ⟨before, after⟩ := stars
          simp only [hv, hstars] at h
          cases h
          rw [c.asked_of_takesOne hlookup hone (Operand.values_of_single? hv)]
          exact readsAs_renderItem hname hstars v
    · rw [Condition.render, hlookup] at h
      rw [Condition.asked, hlookup]
      obtain rfl | rfl | rfl := Lookup.eq_of_not_takesOne hone
      · cases h
        exact readsAs_renderPresence hname _
      · cases h
        exact readsAs_renderPresence hname _
      · simp only [bind, Except.bind] at h
        cases hvs : c.operand.values with
        | nil =>
          rw [hvs] at h
          cases h
        | cons v vs =>
          rw [hvs] at h
          cases vs with
          | nil =>
            cases h
            have hexact : Filter.stars? .exact = some ("", "") := rfl
            exact readsAs_renderItem hname hexact v
          | cons w vs =>
            cases h
            exact readsAs_renderChoice hname (v :: w :: vs)

/-! ## Filters -/

/-- What is written for several filters is read as what they ask for. -/
lemma forall₂_readsAs {parts : List Filter} {texts : List String}
    (ih : ∀ f ∈ parts, ∀ text, f.render = .ok text → ReadsAs (Text.bytesOf text) f.asked)
    (h : parts.mapM Filter.render = .ok texts) :
    List.Forall₂ ReadsAs (texts.map Text.bytesOf) (parts.map Filter.asked) := by
  rw [mapM_eq_ok_iff] at h
  rw [List.forall₂_map_left_iff, List.forall₂_map_right_iff]
  induction h with
  | nil => exact .nil
  | @cons f text parts texts hf _ hrest =>
    refine .cons (ih f List.mem_cons_self text hf) (hrest ?_)
    exact fun g hg => ih g (List.mem_cons_of_mem f hg)

/-- A filter whose names are plain is read as what it asks for. -/
lemma readsAs_render {f : Filter} (hnames : ∀ c ∈ f.conditions, IsPlainName c.field)
    {text : String} (h : f.render = .ok text) : ReadsAs (Text.bytesOf text) f.asked := by
  induction f generalizing text with
  | leaf c => exact readsAs_render_condition (hnames c (by simp)) h
  | all parts ih =>
    rw [Filter.forall_conditions_all] at hnames
    rw [Filter.render_all, map_eq_ok_iff] at h
    obtain ⟨texts, htexts, rfl⟩ := h
    have hparts := forall₂_readsAs (fun f hf text => ih f hf (hnames f hf)) htexts
    rw [Filter.asked, Filter.askedOfEach_eq,
      bytesOf_marked (show "(&".toList = ['(', '&'] from rfl) (by decide), Text.bytesOf_join]
    exact SearchFilter.readsAs_all hparts
  | any parts ih =>
    rw [Filter.forall_conditions_any] at hnames
    rw [Filter.render_any, map_eq_ok_iff] at h
    obtain ⟨texts, htexts, rfl⟩ := h
    have hparts := forall₂_readsAs (fun f hf text => ih f hf (hnames f hf)) htexts
    rw [Filter.asked, Filter.askedOfEach_eq,
      bytesOf_marked (show "(|".toList = ['(', '|'] from rfl) (by decide), Text.bytesOf_join]
    exact SearchFilter.readsAs_any hparts
  | not part ih =>
    rw [Filter.render_not, map_eq_ok_iff] at h
    obtain ⟨text, htext, rfl⟩ := h
    rw [Filter.asked, bytesOf_marked (show "(!".toList = ['(', '!'] from rfl) (by decide)]
    exact SearchFilter.readsAs_not (ih hnames htext)

/-! ## Outlines -/

/-- A value that is empty or truthy exactly when the given one is. -/
def Value.outline (v : Value) : Value :=
  if v.toBytes = [] then .text "" else .bool v.isTruthy

def Operand.outline : Operand → Operand
  | .one v => .one v.outline
  | .many vs => .many (vs.map Value.outline)

def Condition.outline (c : Condition) : Condition :=
  { c with operand := c.operand.outline }

/-- The pattern with its pieces emptied. -/
def Pattern.outline (p : Pattern) : Pattern where
  initial := p.initial.map fun _ => []
  middle := p.middle.map fun _ => []
  final := p.final.map fun _ => []

mutual

/-- The filter with its operands reduced to their outlines. -/
def Filter.outline : Filter → Filter
  | .leaf c => .leaf c.outline
  | .all parts => .all (Filter.outlineEach parts)
  | .any parts => .any (Filter.outlineEach parts)
  | .not part => .not part.outline

def Filter.outlineEach : List Filter → List Filter
  | [] => []
  | f :: rest => f.outline :: Filter.outlineEach rest

end

mutual

/-- The search filter with its bytes dropped. -/
def SearchFilter.outline : SearchFilter → SearchFilter
  | .all parts => .all (SearchFilter.outlineEach parts)
  | .any parts => .any (SearchFilter.outlineEach parts)
  | .not part => .not part.outline
  | .present name => .present name
  | .equal name _ => .equal name []
  | .pattern name pieces => .pattern name pieces.outline

def SearchFilter.outlineEach : List SearchFilter → List SearchFilter
  | [] => []
  | f :: rest => f.outline :: SearchFilter.outlineEach rest

end

lemma Filter.outlineEach_eq (fs : List Filter) : outlineEach fs = fs.map outline := by
  induction fs with
  | nil => rfl
  | cons f fs ih => rw [outlineEach, List.map_cons, ih]

lemma SearchFilter.outlineEach_eq (fs : List SearchFilter) : outlineEach fs = fs.map outline := by
  induction fs with
  | nil => rfl
  | cons f fs ih => rw [outlineEach, List.map_cons, ih]

lemma Value.isTruthy_of_toBytes_eq_nil {v : Value} (h : v.toBytes = []) : v.isTruthy = false := by
  cases v with
  | bool b => cases b <;> exact absurd h (by decide)
  | int n =>
    have hs : toString n.toInt = "" :=
      String.toList_eq_nil_iff.1 (Text.encode_eq_nil_iff.1 h)
    rw [Int.toString_eq_repr, Int.repr_eq_if] at hs
    split at hs
    · exact absurd hs Nat.repr_ne_empty
    · have hlength := congrArg String.length hs
      rw [String.length_append] at hlength
      exact absurd hlength (by rw [show "-".length = 1 from rfl, String.length_empty]; omega)
  | text s =>
    have hs : s = "" := String.toList_eq_nil_iff.1 (Text.encode_eq_nil_iff.1 h)
    simp [isTruthy, hs]
  | bytes b => simp_all [isTruthy]

lemma Value.isTruthy_outline (v : Value) : v.outline.isTruthy = v.isTruthy := by
  unfold outline
  split
  case isTrue h => rw [isTruthy_of_toBytes_eq_nil h]; rfl
  case isFalse h => rfl

lemma Value.toBytes_outline_eq_nil {v : Value} : v.outline.toBytes = [] ↔ v.toBytes = [] := by
  unfold outline
  by_cases h : v.toBytes = []
  · simp only [h, if_true, iff_true]
    rfl
  · simp only [h, if_false, iff_false]
    cases v.isTruthy <;> decide

lemma Operand.values_outline (o : Operand) : o.outline.values = o.values.map Value.outline := by
  cases o <;> rfl

lemma Operand.isTruthy_outline (o : Operand) : o.outline.isTruthy = o.isTruthy := by
  cases o with
  | one v => exact v.isTruthy_outline
  | many vs => simp [outline, isTruthy]

lemma Lookup.outline_asked (lookup : Lookup) (name : String) {bytes bytes' : List UInt8}
    (h : bytes' = [] ↔ bytes = []) :
    (lookup.asked name bytes').outline = (lookup.asked name bytes).outline := by
  cases lookup <;> simp only [asked, h] <;> first | rfl | (split <;> rfl)

lemma Condition.outline_asked (c : Condition) : c.outline.asked.outline = c.asked.outline := by
  have hlookup : c.outline.lookupKind = c.lookupKind := rfl
  have hfield : c.outline.field = c.field := rfl
  have htruthy : c.outline.operand.isTruthy = c.operand.isTruthy := c.operand.isTruthy_outline
  have hvalues : c.outline.operand.values = c.operand.values.map Value.outline :=
    c.operand.values_outline
  rw [asked, asked, hlookup, hfield, htruthy, hvalues]
  cases c.lookupKind with
  | error e => rfl
  | ok lookup =>
    by_cases hone : lookup.takesOne = true
    · match c.operand.values with
      | [] => cases lookup <;> rfl
      | [v] =>
        have hv := lookup.outline_asked c.field v.toBytes_outline_eq_nil
        cases lookup <;> first | exact hv | cases hone
      | v :: w :: vs => cases lookup <;> first | rfl | cases hone
    · obtain rfl | rfl | rfl := Lookup.eq_of_not_takesOne hone
      · rfl
      · rfl
      · match c.operand.values with
        | [] => rfl
        | [v] => rfl
        | v :: w :: vs =>
          simp [SearchFilter.outline, SearchFilter.outlineEach_eq]

lemma Filter.outline_asked (f : Filter) : f.outline.asked.outline = f.asked.outline := by
  induction f with
  | leaf c => exact c.outline_asked
  | all parts ih =>
    rw [outline, asked, asked, outlineEach_eq, askedOfEach_eq, askedOfEach_eq]
    simp only [SearchFilter.outline, SearchFilter.outlineEach_eq, List.map_map]
    exact congrArg SearchFilter.all (List.map_congr_left ih)
  | any parts ih =>
    rw [outline, asked, asked, outlineEach_eq, askedOfEach_eq, askedOfEach_eq]
    simp only [SearchFilter.outline, SearchFilter.outlineEach_eq, List.map_map]
    exact congrArg SearchFilter.any (List.map_congr_left ih)
  | not part ih =>
    rw [outline, asked, asked, SearchFilter.outline, SearchFilter.outline, ih]

/-- Filters with the same outline name the same attributes. -/
lemma Filter.fields_outline (f : Filter) :
    f.outline.conditions.map Condition.field = f.conditions.map Condition.field := by
  induction f with
  | leaf c => rfl
  | all parts ih =>
    rw [outline, outlineEach_eq, conditions_all, conditions_all, List.map_flatMap,
      List.map_flatMap, List.flatMap_map]
    exact List.flatMap_congr ih
  | any parts ih =>
    rw [outline, outlineEach_eq, conditions_any, conditions_any, List.map_flatMap,
      List.map_flatMap, List.flatMap_map]
    exact List.flatMap_congr ih
  | not part ih => exact ih

lemma Filter.plain_of_outline_eq {f g : Filter} (h : g.outline = f.outline)
    (hnames : ∀ c ∈ f.conditions, IsPlainName c.field) :
    ∀ c ∈ g.conditions, IsPlainName c.field := by
  have hfields : g.conditions.map Condition.field = f.conditions.map Condition.field := by
    rw [← g.fields_outline, h, f.fields_outline]
  have hf : ∀ name ∈ f.conditions.map Condition.field, IsPlainName name := by
    simpa using hnames
  intro c hc
  exact hf c.field (hfields ▸ List.mem_map_of_mem hc)

/-- Whatever is written for a filter is read back as the search filter that it asks for, and a
filter that differs in what its operands hold is read back with the same outline. -/
theorem parse_render {f : Filter} (hnames : ∀ c ∈ f.conditions, IsPlainName c.field)
    {text : String} (h : f.render = .ok text) :
    SearchFilter.parse text = .ok f.asked ∧
      ∀ (g : Filter) (text' : String), g.outline = f.outline → g.render = .ok text' →
        ∃ sf, SearchFilter.parse text' = .ok sf ∧ sf.outline = f.asked.outline := by
  refine ⟨SearchFilter.parse_of_readsAs (readsAs_render hnames h), fun g text' hg h' => ?_⟩
  have hnames' := Filter.plain_of_outline_eq hg hnames
  refine ⟨g.asked, SearchFilter.parse_of_readsAs (readsAs_render hnames' h'), ?_⟩
  rw [← g.outline_asked, hg, f.outline_asked]

/-- An operand that would close the filter and open another one stays a value. -/
theorem parse_render_parenthesis :
    SearchFilter.parse "(cn=\\29\\28uid=\\2A)" = .ok (.equal "cn" (Text.bytesOf ")(uid=*")) :=
  (parse_render (f := .leaf ⟨"cn", none, .one (.text ")(uid=*")⟩)
    (List.forall_mem_singleton.2 (by decide)) rfl).1

end DirectoryQuery
