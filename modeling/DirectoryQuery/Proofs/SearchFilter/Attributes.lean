import DirectoryQuery.Proofs.SearchFilter.Grammar
import DirectoryQuery.Proofs.SearchFilter.RoundTrip

/-!
# The attributes that a search filter tests

Operands are escaped where they are written; the name of an attribute is written as it is.  What a
directory tests for a condition is therefore a matter of the name alone: the attribute is the
condition's own for every operand and every lookup, if no equals sign and no parenthesis is in its
name, and otherwise it is another one (`attributes_of_render`).

A tested attribute stands in the text between a parenthesis and an equals sign (`Derives.opens`).
In what is written for a condition nothing else stands there than its name, however many items that
makes (`Condition.eq_of_opens`).
-/

namespace DirectoryQuery

namespace Text

lemma mem_of_mem_trimChars {s : List Char} {c : Char} (h : c ∈ trimChars s) : c ∈ s :=
  List.dropWhile_subset _ (List.mem_reverse.1 (List.dropWhile_subset _ (List.mem_reverse.1 h)))

lemma mem_dropWhile_of_not {α : Type} {p : α → Bool} {s : List α} {a : α} (h : a ∈ s)
    (ha : p a = false) : a ∈ s.dropWhile p := by
  rw [← List.takeWhile_append_dropWhile (p := p) (l := s)] at h
  rcases List.mem_append.1 h with h | h
  · exact absurd (List.mem_takeWhile_imp h) (by simp [ha])
  · exact h

/-- Trimming drops blanks only. -/
lemma mem_trimChars {s : List Char} {c : Char} (h : c ∈ s) (hc : isBlank c = false) :
    c ∈ trimChars s :=
  List.mem_reverse.2 (mem_dropWhile_of_not (List.mem_reverse.2 (mem_dropWhile_of_not h hc)) hc)

end Text

namespace SearchFilter

/-! ## Tested attributes -/

mutual

/-- The attributes that a search filter tests, from left to right. -/
def attributes : SearchFilter → List String
  | .all parts => attributesOfEach parts
  | .any parts => attributesOfEach parts
  | .not part => part.attributes
  | .present name => [name]
  | .equal name _ => [name]
  | .pattern name _ => [name]

/-- The attributes that several search filters test. -/
def attributesOfEach : List SearchFilter → List String
  | [] => []
  | f :: rest => f.attributes ++ attributesOfEach rest

end

section Congruence

variable {e e' : Entry}

mutual

/-- Of an entry, a search filter sees the tested attributes alone. -/
lemma holds_congr : ∀ f : SearchFilter, (∀ name ∈ f.attributes, e.get name = e'.get name) →
    f.holds e = f.holds e'
  | .all parts, h => allHold_congr parts h
  | .any parts, h => anyHolds_congr parts h
  | .not part, h => congrArg (!·) (holds_congr part h)
  | .present name, h => by
    simp only [holds, Entry.has, h name (List.mem_singleton_self _)]
  | .equal name value, h => by
    simp only [holds, h name (List.mem_singleton_self _)]
  | .pattern name pieces, h => by
    simp only [holds, h name (List.mem_singleton_self _)]

lemma allHold_congr : ∀ fs : List SearchFilter,
    (∀ name ∈ attributesOfEach fs, e.get name = e'.get name) → allHold e fs = allHold e' fs
  | [], _ => rfl
  | f :: fs, h => by
    obtain ⟨hf, hfs⟩ := List.forall_mem_append.1 h
    rw [allHold, allHold, holds_congr f hf, allHold_congr fs hfs]

lemma anyHolds_congr : ∀ fs : List SearchFilter,
    (∀ name ∈ attributesOfEach fs, e.get name = e'.get name) → anyHolds e fs = anyHolds e' fs
  | [], _ => rfl
  | f :: fs, h => by
    obtain ⟨hf, hfs⟩ := List.forall_mem_append.1 h
    rw [anyHolds, anyHolds, holds_congr f hf, anyHolds_congr fs hfs]

end

end Congruence

/-! ## Where names stand -/

/-- The bytes stand somewhere between an opening parenthesis and an equals sign. -/
def Opens (raw attr : List UInt8) : Prop :=
  code '(' :: (attr ++ [code '=']) <:+: raw

section Opens

variable {raw attr name : List UInt8}

lemma opens_open_iff :
    Opens (code '(' :: raw) attr ↔ attr ++ [code '='] <+: raw ∨ Opens raw attr := by
  rw [Opens, List.infix_cons_iff, List.cons_prefix_cons]
  simp [Opens]

lemma opens_append_iff {s : List UInt8} (h : code '(' ∉ s) :
    Opens (s ++ raw) attr ↔ Opens raw attr := by
  induction s with
  | nil => rfl
  | cons b s ih =>
    obtain ⟨hb, hs⟩ := not_or.1 (mt List.mem_cons.2 h)
    rw [List.cons_append, Opens, List.infix_cons_iff, List.cons_prefix_cons, ← ih hs]
    simp [Opens, hb]

lemma not_opens {s : List UInt8} (h : code '(' ∉ s) : ¬ Opens s attr :=
  fun hopens => h (hopens.subset List.mem_cons_self)

/-- A name ends where the first byte stands that no name holds. -/
lemma name_eq_and_equals (hattr : ∀ b ∈ attr, isNameByte b = true)
    (hname : ∀ b ∈ name, isNameByte b = true) {b : UInt8} (hb : isNameByte b = false)
    (h : attr ++ [code '='] <+: name ++ b :: raw) : attr = name ∧ b = code '=' := by
  obtain ⟨rest, hrest⟩ := h
  rw [List.append_assoc, List.singleton_append] at hrest
  have htake := congrArg (List.takeWhile isNameByte) hrest
  rw [List.takeWhile_append_of_pos hattr, List.takeWhile_cons_of_neg (by decide),
    List.takeWhile_append_of_pos hname, List.takeWhile_cons_of_neg (by simp [hb]),
    List.append_nil, List.append_nil] at htake
  subst htake
  exact ⟨rfl, (List.cons.inj (List.append_cancel_left hrest)).1.symm⟩

/-- An item opens its own name, and leaves the rest to what follows it. -/
lemma eq_or_opens_of_item (hattr : ∀ b ∈ attr, isNameByte b = true)
    (hname : ∀ b ∈ name, isNameByte b = true) {value : List UInt8} (hvalue : code '(' ∉ value)
    (h : Opens (enclosed (name ++ code '=' :: value) ++ raw) attr) :
    attr = name ∨ Opens raw attr := by
  rw [enclosed_append, opens_open_iff, List.append_assoc, List.cons_append] at h
  rcases h with h | h
  · exact .inl (name_eq_and_equals hattr hname (by decide) h).1
  · have hfree : code '(' ∉ name ++ code '=' :: (value ++ [code ')']) := by
      have hopen : code '(' ∉ name := fun hmem => absurd (hname _ hmem) (by decide)
      have hmarks : code '(' ≠ code '=' ∧ code '(' ≠ code ')' := by decide
      simp [hopen, hvalue, hmarks]
    have hsplit : name ++ code '=' :: (value ++ code ')' :: raw) =
        name ++ code '=' :: (value ++ [code ')']) ++ raw := by simp
    rw [hsplit, opens_append_iff hfree] at h
    exact .inr h

/-- Items of one name open nothing else, one behind the other. -/
lemma eq_of_opens_items (hattr : ∀ b ∈ attr, isNameByte b = true)
    (hname : ∀ b ∈ name, isNameByte b = true) {values : List (List UInt8)}
    (hvalues : ∀ value ∈ values, code '(' ∉ value) (hraw : code '(' ∉ raw)
    (h : Opens ((values.map fun value => enclosed (name ++ code '=' :: value)).flatten ++ raw)
      attr) : attr = name := by
  induction values with
  | nil => exact absurd h (not_opens hraw)
  | cons value values ih =>
    obtain ⟨hvalue, hvalues⟩ := List.forall_mem_cons.1 hvalues
    rw [List.map_cons, List.flatten_cons, List.append_assoc] at h
    exact (eq_or_opens_of_item hattr hname hvalue h).elim id (ih hvalues)

end Opens

/-! ## What derivations test -/

section Derivation

variable {rule : UInt8 → UInt8 → UInt8 → Prop}

lemma DerivesValue.attributes_eq {name : String} {raw : List UInt8} {f : SearchFilter}
    (h : DerivesValue rule name raw f) : f.attributes = [name] := by
  cases h <;> rfl

lemma Opens.of_infix {part raw attr : List UInt8} (h : Opens part attr) (hpart : part <:+: raw) :
    Opens raw attr :=
  h.trans hpart

lemma infix_enclosed_cons (b : UInt8) (raw : List UInt8) : raw <:+: enclosed (b :: raw) :=
  ⟨[code '(', b], [code ')'], by simp [enclosed]⟩

mutual

/-- A tested attribute stands in the bytes between a parenthesis and an equals sign. -/
lemma Derives.opens {raw : List UInt8} {f : SearchFilter} :
    Derives rule raw f → ∀ name ∈ f.attributes,
      ∃ attr, (∀ b ∈ attr, isNameByte b = true) ∧ attributeName attr = name ∧ Opens raw attr
  | .all h, name, hname => by
    obtain ⟨attr, hattr, rfl, hopens⟩ := h.opens name hname
    exact ⟨attr, hattr, rfl, hopens.of_infix (infix_enclosed_cons ..)⟩
  | .any h, name, hname => by
    obtain ⟨attr, hattr, rfl, hopens⟩ := h.opens name hname
    exact ⟨attr, hattr, rfl, hopens.of_infix (infix_enclosed_cons ..)⟩
  | .not h, name, hname => by
    obtain ⟨attr, hattr, rfl, hopens⟩ := h.opens name hname
    exact ⟨attr, hattr, rfl, hopens.of_infix (infix_enclosed_cons ..)⟩
  | @Derives.item _ attr value f hattr _ h, name, hname => by
    rw [h.attributes_eq, List.mem_singleton] at hname
    exact ⟨attr, hattr.free, hname.symm, [], value ++ [code ')'], by simp [enclosed]⟩

lemma DerivesEach.opens {raw : List UInt8} {fs : List SearchFilter} :
    DerivesEach rule raw fs → ∀ name ∈ attributesOfEach fs,
      ∃ attr, (∀ b ∈ attr, isNameByte b = true) ∧ attributeName attr = name ∧ Opens raw attr
  | .nil, _, hname => absurd hname List.not_mem_nil
  | .cons h hs, name, hname => by
    rcases List.mem_append.1 hname with hname | hname
    · obtain ⟨attr, hattr, rfl, hopens⟩ := h.opens name hname
      exact ⟨attr, hattr, rfl, hopens.of_infix (List.prefix_append ..).isInfix⟩
    · obtain ⟨attr, hattr, rfl, hopens⟩ := hs.opens name hname
      exact ⟨attr, hattr, rfl, hopens.of_infix (List.suffix_append ..).isInfix⟩

end

lemma equals_mem_of_mem_enclosed {b : UInt8} {raw : List UInt8} (hb : b ≠ code '=')
    (h : code '=' ∈ enclosed (b :: raw)) : code '=' ∈ raw := by
  have hmarks : code '=' ≠ code '(' ∧ code '=' ≠ code ')' := by decide
  simpa [enclosed, hmarks, hb.symm] using h

mutual

/-- Wherever an equals sign stands something is tested. -/
lemma Derives.attributes_ne_nil {raw : List UInt8} {f : SearchFilter} :
    Derives rule raw f → code '=' ∈ raw → f.attributes ≠ []
  | .all h, hmem => h.attributes_ne_nil (equals_mem_of_mem_enclosed (by decide) hmem)
  | .any h, hmem => h.attributes_ne_nil (equals_mem_of_mem_enclosed (by decide) hmem)
  | .not h, hmem => h.attributes_ne_nil (equals_mem_of_mem_enclosed (by decide) hmem)
  | .item _ _ h, _ => by
    rw [h.attributes_eq]
    exact List.cons_ne_nil _ _

lemma DerivesEach.attributes_ne_nil {raw : List UInt8} {fs : List SearchFilter} :
    DerivesEach rule raw fs → code '=' ∈ raw → attributesOfEach fs ≠ []
  | .nil, hmem => absurd hmem List.not_mem_nil
  | .cons h hs, hmem => by
    rw [attributesOfEach, Ne, List.append_eq_nil_iff, not_and_or]
    exact (List.mem_append.1 hmem).imp h.attributes_ne_nil hs.attributes_ne_nil

end

/-- No mark is in the name that name bytes stand for, text or no text. -/
lemma not_mem_attributeName {attr : List UInt8} (h : ∀ b ∈ attr, isNameByte b = true) {c : Char}
    (hc : c = '=' ∨ c = '(' ∨ c = ')') : c ∉ (attributeName attr).toList := by
  intro hmem
  rw [attributeName, String.toList_ofList] at hmem
  have hascii : c.toNat ≠ 0 ∧ c.toNat < 0x80 := by
    rcases hc with rfl | rfl | rfl <;> decide
  obtain ⟨b, hb, heq⟩ := Text.exists_byte_of_mem_decodeLossy (Text.mem_of_mem_trimChars hmem)
    hascii.1 hascii.2
  have hcode : b = code c := UInt8.toNat_inj.1 (heq.trans (toNat_code hascii.2).symm)
  refine absurd (h b hb) ?_
  rw [hcode]
  rcases hc with rfl | rfl | rfl <;> decide

end Derivation

end SearchFilter

/-! ## Written conditions -/

open SearchFilter (code enclosed Opens isNameByte)

namespace Condition

variable {c : Condition} {text : String}

/-- The three forms in which conditions are written. -/
lemma render_cases (h : c.render = .ok text) :
    (∃ lookup before after v, Filter.stars? lookup = some (before, after) ∧
        text = Filter.renderItem c.field before v after) ∨
      (∃ present, text = Filter.renderPresence c.field present) ∨
      ∃ v vs, text =
        "(|" ++ String.join ((v :: vs).map fun v => Filter.renderItem c.field "" v "") ++ ")" := by
  cases hlookup : c.lookupKind with
  | error e =>
    rw [render, hlookup] at h
    cases h
  | ok lookup =>
    by_cases hone : lookup.takesOne = true
    · rw [c.render_of_takesOne hlookup hone] at h
      split at h
      · cases h
      rename_i v _
      split at h
      · cases h
      rename_i before after hstars
      exact .inl ⟨lookup, before, after, v, hstars, (Except.ok.inj h).symm⟩
    · rw [render, hlookup] at h
      obtain rfl | rfl | rfl := Lookup.eq_of_not_takesOne hone
      · exact .inr (.inl ⟨_, (Except.ok.inj h).symm⟩)
      · exact .inr (.inl ⟨_, (Except.ok.inj h).symm⟩)
      · simp only [bind, Except.bind] at h
        split at h
        · cases h
        · exact .inl ⟨.exact, "", "", _, rfl, (Except.ok.inj h).symm⟩
        · rename_i hnil _
          obtain ⟨v, vs, hvs⟩ := List.exists_cons_of_ne_nil hnil
          rw [hvs] at h
          exact .inr (.inr ⟨v, vs, (Except.ok.inj h).symm⟩)

/-- The items of one name for several values, one behind the other. -/
def items (name : String) (values : List (List UInt8)) : List UInt8 :=
  (values.map fun value => enclosed (Text.bytesOf name ++ code '=' :: value)).flatten

/-- The bytes are items of one name in whose values nothing opens: one item by itself, or items in
parentheses behind a mark. -/
inductive HoldsItems (name : String) : List UInt8 → Prop where
  | item {value : List UInt8} (hvalue : code '(' ∉ value) :
    HoldsItems name (enclosed (Text.bytesOf name ++ code '=' :: value))
  | marked {mark : UInt8} {value : List UInt8} {values : List (List UInt8)}
    (hmark : isNameByte mark = true) (hvalues : ∀ v ∈ value :: values, code '(' ∉ v) :
    HoldsItems name (enclosed (mark :: items name (value :: values)))

lemma exists_value_of_renderItem (name : String) {lookup : Lookup} {before after : String}
    (h : Filter.stars? lookup = some (before, after)) (v : Value) :
    ∃ value, code '(' ∉ value ∧ Text.bytesOf (Filter.renderItem name before v after) =
      enclosed (Text.bytesOf name ++ code '=' :: value) := by
  refine ⟨_, ?_, bytesOf_renderItem name before v after⟩
  have hvalue := SearchFilter.not_mem_escapeValue (c := '(') (by decide) v
  have hstars : code '(' ∉ Text.bytesOf before ∧ code '(' ∉ Text.bytesOf after := by
    cases lookup <;> cases h <;> decide
  simp [hvalue, hstars]

lemma exists_values_of_renderItems (name : String) (vs : List Value) :
    ∃ values, values.length = vs.length ∧ (∀ value ∈ values, code '(' ∉ value) ∧
      Text.bytesOf (String.join (vs.map fun v => Filter.renderItem name "" v "")) =
        items name values := by
  induction vs with
  | nil => exact ⟨[], rfl, by simp, rfl⟩
  | cons v vs ih =>
    obtain ⟨values, hlength, hvalues, hitems⟩ := ih
    have hexact : Filter.stars? .exact = some ("", "") := rfl
    obtain ⟨value, hvalue, hitem⟩ := exists_value_of_renderItem name hexact v
    refine ⟨value :: values, congrArg (· + 1) hlength, List.forall_mem_cons.2 ⟨hvalue, hvalues⟩, ?_⟩
    rw [List.map_cons, String.join_cons, Text.bytesOf_append, hitem, hitems]
    rfl

/-- What is written for a condition holds items of its name. -/
lemma holdsItems_of_render (h : c.render = .ok text) : HoldsItems c.field (Text.bytesOf text) := by
  obtain ⟨lookup, before, after, v, hstars, rfl⟩ | ⟨present, rfl⟩ | ⟨v, vs, rfl⟩ := render_cases h
  · obtain ⟨value, hvalue, hbytes⟩ := exists_value_of_renderItem c.field hstars v
    rw [hbytes]
    exact .item hvalue
  · have hitem : Text.bytesOf ("(" ++ (c.field ++ "=*") ++ ")") =
        enclosed (Text.bytesOf c.field ++ code '=' :: [code '*']) := by
      rw [bytesOf_enclosed, Text.bytesOf_append]
      rfl
    cases present with
    | true =>
      have htext : Filter.renderPresence c.field true = "(" ++ (c.field ++ "=*") ++ ")" :=
        String.toList_inj.1 (by simp [Filter.renderPresence])
      rw [htext, hitem]
      exact .item (by decide)
    | false =>
      have htext : Filter.renderPresence c.field false =
          "(!" ++ ("(" ++ (c.field ++ "=*") ++ ")") ++ ")" :=
        String.toList_inj.1 (by simp [Filter.renderPresence])
      rw [htext, bytesOf_marked (show "(!".toList = ['(', '!'] from rfl) (by decide), hitem]
      have hmark : isNameByte (code '!') = true := by decide
      have hvalues : ∀ v ∈ [[code '*']], code '(' ∉ v := by decide
      simpa [items] using HoldsItems.marked hmark hvalues
  · obtain ⟨values, hlength, hvalues, hitems⟩ := exists_values_of_renderItems c.field (v :: vs)
    obtain ⟨value, values, rfl⟩ := List.exists_cons_of_length_eq_add_one hlength
    rw [bytesOf_marked (show "(|".toList = ['(', '|'] from rfl) (by decide), hitems]
    exact .marked (by decide) hvalues

lemma equals_mem_of_holdsItems {name : String} {raw : List UInt8} (h : HoldsItems name raw) :
    code '=' ∈ raw := by
  cases h <;> simp [items, enclosed]

/-- Where a name is free of marks nothing else is opened. -/
lemma eq_of_opens {name : String} (hname : ∀ b ∈ Text.bytesOf name, isNameByte b = true)
    {raw attr : List UInt8} (hattr : ∀ b ∈ attr, isNameByte b = true) (h : HoldsItems name raw)
    (hopens : Opens raw attr) : attr = Text.bytesOf name := by
  cases h with
  | @item value hvalue =>
    exact SearchFilter.eq_of_opens_items hattr hname (List.forall_mem_singleton.2 hvalue)
      List.not_mem_nil (by simpa using hopens)
  | @marked mark value values hmark hvalues =>
    rw [enclosed, SearchFilter.opens_open_iff] at hopens
    have hopen : code '(' ∉ [mark] := by
      intro hmem
      rw [← List.mem_singleton.1 hmem] at hmark
      exact absurd hmark (by decide)
    rcases hopens with hstart | hopens
    · -- between the two parentheses no equals sign stands
      have hmarks := SearchFilter.name_eq_and_equals hattr (List.forall_mem_singleton.2 hmark)
        (b := code '(') (by decide) hstart
      exact absurd hmarks.2 (by decide)
    · have hitems := (SearchFilter.opens_append_iff (s := [mark]) hopen).1 hopens
      exact SearchFilter.eq_of_opens_items hattr hname hvalues (by decide) hitems

end Condition

/-! ## What written conditions test -/

section Read

variable {c : Condition} {text : String} (h : c.render = .ok text) {f : SearchFilter}
  (hf : SearchFilter.parse text = .ok f)
include h hf

lemma attributes_ne_nil_of_render : f.attributes ≠ [] :=
  (SearchFilter.parse_eq_ok_iff.1 hf).attributes_ne_nil
    (Condition.equals_mem_of_holdsItems (Condition.holdsItems_of_render h))

/-- Without marks in its name a condition is read as tests of its own attribute. -/
lemma eq_trim_of_mem_attributes
    (hfree : ∀ mark ∈ c.field.toList, mark ≠ '=' ∧ mark ≠ '(' ∧ mark ≠ ')') :
    ∀ name ∈ f.attributes, name = Text.trim c.field := by
  intro name hname
  obtain ⟨attr, hattr, rfl, hopens⟩ := (SearchFilter.parse_eq_ok_iff.1 hf).opens name hname
  have hbytes : ∀ b ∈ Text.bytesOf c.field, isNameByte b = true :=
    fun b => SearchFilter.isNameByte_of_mem hfree
  have hown := Condition.eq_of_opens hbytes hattr (Condition.holdsItems_of_render h) hopens
  rw [hown, SearchFilter.attributeName, Text.decodeLossy_bytesOf]
  rfl

/-- No tested attribute has a mark in its name, so none is the one of a name with marks. -/
lemma not_mem_field_of_attributes (hown : ∀ name ∈ f.attributes, name = Text.trim c.field)
    {mark : Char} (hmark : mark = '=' ∨ mark = '(' ∨ mark = ')') : mark ∉ c.field.toList := by
  intro hmem
  obtain ⟨name, hname⟩ := List.exists_mem_of_ne_nil _ (attributes_ne_nil_of_render h hf)
  obtain ⟨attr, hattr, rfl, -⟩ := (SearchFilter.parse_eq_ok_iff.1 hf).opens name hname
  have hblank : Text.isBlank mark = false := by
    rcases hmark with rfl | rfl | rfl <;> decide
  refine SearchFilter.not_mem_attributeName hattr hmark ?_
  rw [hown _ hname, Text.toList_trim]
  exact Text.mem_trimChars hmem hblank

end Read

/-- What is written for a condition tests something, whatever the operand holds.  It tests the
condition's own attribute and no other exactly if no mark is in the name, which is written as it
is. -/
theorem attributes_of_render {c : Condition} {text : String} (h : c.render = .ok text)
    {f : SearchFilter} (hf : SearchFilter.parse text = .ok f) :
    f.attributes ≠ [] ∧
      ((∀ name ∈ f.attributes, name = Text.trim c.field) ↔
        ∀ mark ∈ c.field.toList, mark ≠ '=' ∧ mark ≠ '(' ∧ mark ≠ ')') := by
  refine ⟨attributes_ne_nil_of_render h hf, fun hown mark hmem => ?_,
    eq_trim_of_mem_attributes h hf⟩
  have hnot := fun hmark => not_mem_field_of_attributes h hf hown hmark hmem
  exact ⟨fun heq => hnot (.inl heq), fun heq => hnot (.inr (.inl heq)),
    fun heq => hnot (.inr (.inr heq))⟩

/-- An operand that looks like a filter does not change what is tested. -/
theorem attributes_of_render_parenthesis :
    ∃ f, SearchFilter.parse "(cn=\\29\\28uid=\\2A)" = .ok f ∧
      ∀ name ∈ f.attributes, name = "cn" := by
  have hread := readsAs_render (f := .leaf ⟨"cn", none, .one (.text ")(uid=*")⟩)
    (List.forall_mem_singleton.2 (by decide)) rfl
  have hparse := SearchFilter.parse_of_readsAs hread
  have hown := attributes_of_render (c := ⟨"cn", none, .one (.text ")(uid=*")⟩) rfl hparse
  have hfree : ∀ mark ∈ "cn".toList, mark ≠ '=' ∧ mark ≠ '(' ∧ mark ≠ ')' := by simp
  exact ⟨_, hparse, hown.2.2 hfree⟩

/-- A name with parentheses and an equals sign makes a condition into others: asked for one
attribute, the directory tests two that are named otherwise. -/
theorem attributes_of_smuggled :
    ∃ c text f, Condition.parse "uid=x)(cn__in" (.many [.text "a", .text "b"]) = .ok c ∧
      c.render = .ok text ∧ SearchFilter.parse text = .ok f ∧
      f.attributes = ["uid", "cn", "uid", "cn"] ∧
      ¬ ∀ name ∈ f.attributes, name = Text.trim c.field := by
  have hread : SearchFilter.ReadsAs (Text.bytesOf "(|(uid=x)(cn=a)(uid=x)(cn=b))")
      (.any [.equal "uid" (Text.bytesOf "x"), .equal "cn" (Text.bytesOf "a"),
        .equal "uid" (Text.bytesOf "x"), .equal "cn" (Text.bytesOf "b")]) :=
    readsAs_render (f := .any [.leaf ⟨"uid", none, .one (.text "x")⟩,
      .leaf ⟨"cn", none, .one (.text "a")⟩, .leaf ⟨"uid", none, .one (.text "x")⟩,
      .leaf ⟨"cn", none, .one (.text "b")⟩]) (by decide) rfl
  refine ⟨⟨"uid=x)(cn", some "in", .many [.text "a", .text "b"]⟩, _, _, rfl, rfl,
    SearchFilter.parse_of_readsAs hread, rfl, ?_⟩
  exact fun h => absurd (h "uid" List.mem_cons_self) (by decide)

/-- Without marks in its name a condition says of an entry what its own attribute says. -/
theorem holds_congr_of_render {c : Condition} {text : String} (h : c.render = .ok text)
    {f : SearchFilter} (hf : SearchFilter.parse text = .ok f)
    (hfree : ∀ mark ∈ c.field.toList, mark ≠ '=' ∧ mark ≠ '(' ∧ mark ≠ ')') {e e' : Entry}
    (hsame : e.get (Text.trim c.field) = e'.get (Text.trim c.field)) : f.holds e = f.holds e' := by
  refine SearchFilter.holds_congr f fun name hname => ?_
  rw [eq_trim_of_mem_attributes h hf hfree name hname, hsame]

end DirectoryQuery
