import DirectoryQuery.Proofs.SearchFilter.Escape
import Mathlib.Data.List.Forall2

/-!
# What the reader makes of written filters

`ReadsAs input f` says that the reader takes the bytes `input` for the filter `f`, whatever follows
them and however many steps it may take beyond their number.  There is one lemma for each form in
which a filter is written: an item (`readsAs_item`), a negation (`readsAs_not`), and a conjunction
or a disjunction (`readsAs_all`, `readsAs_any`).  None of them asks how the parts were written.

The value of an item is the one place where an operand stands.  `ofValue?_exact` and the three
lemmas behind it read a value that was escaped, with stars on either side or none.
-/

namespace DirectoryQuery

/-- A name of an attribute that can stand in a search filter as it is. -/
structure IsPlainName (name : String) : Prop where
  nonempty : name ≠ ""
  trimmed : Text.trim name = name
  free : ∀ c ∈ name.toList, c ≠ '=' ∧ c ≠ '(' ∧ c ≠ ')'
  start : ∀ c ∈ name.toList.head?, c ≠ '&' ∧ c ≠ '|' ∧ c ≠ '!'

lemma isPlainName_iff {name : String} :
    IsPlainName name ↔ name ≠ "" ∧ Text.trim name = name ∧
      name.toList.all (fun c => c != '=' && c != '(' && c != ')') = true ∧
      name.toList.head?.all (fun c => c != '&' && c != '|' && c != '!') = true := by
  simp only [List.all_eq_true, Option.all_eq_true, Bool.and_eq_true, bne_iff_ne, and_assoc]
  exact ⟨fun h => ⟨h.nonempty, h.trimmed, h.free, h.start⟩, fun h => ⟨h.1, h.2.1, h.2.2.1, h.2.2.2⟩⟩

instance (name : String) : Decidable (IsPlainName name) :=
  decidable_of_iff' _ isPlainName_iff

namespace Text

variable {α : Type} [BEq α] [LawfulBEq α]

lemma splitAtEach_of_not_mem {separator : α} {s : List α} (h : separator ∉ s) :
    splitAtEach separator s = [s] := by
  induction s with
  | nil => rfl
  | cons c s ih =>
    obtain ⟨hc, hs⟩ := not_or.1 (mt List.mem_cons.2 h)
    rw [splitAtEach, ih hs]
    simp [Ne.symm hc]

lemma splitAtEach_append_cons {separator : α} {s : List α} (h : separator ∉ s) (t : List α) :
    splitAtEach separator (s ++ separator :: t) = s :: splitAtEach separator t := by
  induction s with
  | nil =>
    rw [List.nil_append, splitAtEach]
    cases ht : splitAtEach separator t with
    | nil => exact absurd ht (splitAtEach_ne_nil separator t)
    | cons part parts => simp
  | cons c s ih =>
    obtain ⟨hc, hs⟩ := not_or.1 (mt List.mem_cons.2 h)
    rw [List.cons_append, splitAtEach, ih hs]
    simp [Ne.symm hc]

end Text

namespace SearchFilter

/-! ## Values -/

section Value

variable (name : String) (v : Value)

lemma star_not_mem_escapeValue : code '*' ∉ Text.bytesOf (Filter.escapeValue v) :=
  not_mem_escapeValue (by decide) v

/-- A value without stars asks for equality. -/
lemma ofValue?_exact :
    ofValue? name (Text.bytesOf (Filter.escapeValue v)) = some (.equal name v.toBytes) := by
  have hstar := star_not_mem_escapeValue v
  have hne : Text.bytesOf (Filter.escapeValue v) ≠ [code '*'] := by
    intro h
    rw [h] at hstar
    exact hstar (List.mem_singleton_self _)
  rw [ofValue?, if_neg hne, Text.splitAtEach_of_not_mem hstar, List.mapM_cons,
    unescape?_escapeValue]
  rfl

lemma nonEmpty?_of_ne {piece : List UInt8} (h : piece ≠ []) : nonEmpty? piece = some piece := by
  cases piece with
  | nil => exact absurd rfl h
  | cons b piece => rfl

/-- A star behind the value asks for a beginning; without a value it asks for presence. -/
lemma ofValue?_startsWith :
    ofValue? name (Text.bytesOf (Filter.escapeValue v) ++ [code '*']) =
      some (if v.toBytes = [] then .present name
        else .pattern name ⟨some v.toBytes, [], none⟩) := by
  have hstar := star_not_mem_escapeValue v
  have hread := unescape?_escapeValue v
  have hnil := bytesOf_escapeValue_eq_nil (v := v)
  generalize Text.bytesOf (Filter.escapeValue v) = value at *
  by_cases h : v.toBytes = []
  · rw [hnil.2 h, if_pos h, List.nil_append, ofValue?, if_pos rfl]
  · have hvalue : value ++ [code '*'] ≠ [code '*'] := by
      intro heq
      exact h (hnil.1 (List.append_left_eq_self.1 heq))
    rw [ofValue?, if_neg hvalue, Text.splitAtEach_append_cons hstar, List.mapM_cons, hread,
      if_neg h]
    change some (SearchFilter.pattern name ⟨nonEmpty? v.toBytes, [], none⟩) = _
    rw [nonEmpty?_of_ne h]

/-- A star before the value asks for an end; without a value it asks for presence. -/
lemma ofValue?_endsWith :
    ofValue? name (code '*' :: Text.bytesOf (Filter.escapeValue v)) =
      some (if v.toBytes = [] then .present name
        else .pattern name ⟨none, [], some v.toBytes⟩) := by
  have hstar := star_not_mem_escapeValue v
  have hread := unescape?_escapeValue v
  have hnil := bytesOf_escapeValue_eq_nil (v := v)
  generalize Text.bytesOf (Filter.escapeValue v) = value at *
  by_cases h : v.toBytes = []
  · rw [hnil.2 h, if_pos h, ofValue?, if_pos rfl]
  · have hvalue : code '*' :: value ≠ [code '*'] := by
      intro heq
      exact h (hnil.1 (List.cons.inj heq).2)
    have hsplit : Text.splitAtEach (code '*') (code '*' :: value) = [[], value] := by
      rw [← List.nil_append (code '*' :: value), Text.splitAtEach_append_cons List.not_mem_nil,
        Text.splitAtEach_of_not_mem hstar]
    rw [ofValue?, if_neg hvalue, hsplit, List.mapM_cons, List.mapM_cons, hread, if_neg h]
    change some (SearchFilter.pattern name ⟨none, [], nonEmpty? v.toBytes⟩) = _
    rw [nonEmpty?_of_ne h]

/-- Stars on both sides ask for a piece, and for nothing but a value if the piece is empty. -/
lemma ofValue?_contains :
    ofValue? name (code '*' :: (Text.bytesOf (Filter.escapeValue v) ++ [code '*'])) =
      some (.pattern name ⟨none, if v.toBytes = [] then [] else [v.toBytes], none⟩) := by
  have hstar := star_not_mem_escapeValue v
  have hread := unescape?_escapeValue v
  generalize Text.bytesOf (Filter.escapeValue v) = value at *
  have hvalue : code '*' :: (value ++ [code '*']) ≠ [code '*'] := by simp
  have hsplit : Text.splitAtEach (code '*') (code '*' :: (value ++ [code '*'])) =
      [[], value, []] := by
    rw [← List.nil_append (code '*' :: _), Text.splitAtEach_append_cons List.not_mem_nil,
      Text.splitAtEach_append_cons hstar]
    rfl
  rw [ofValue?, if_neg hvalue, hsplit, List.mapM_cons, List.mapM_cons, hread]
  change some (SearchFilter.pattern name ⟨none, [v.toBytes].filterMap nonEmpty?, none⟩) = _
  by_cases h : v.toBytes = []
  · rw [if_pos h, h]
    rfl
  · rw [if_neg h, List.filterMap_cons_some (nonEmpty?_of_ne h)]
    rfl

end Value

/-! ## Items -/

lemma expect_code (c : Char) (rest : List UInt8) : expect c (code c :: rest) = .ok rest := by
  rw [expect, if_pos rfl]

/-- Bytes that can stand in the name of an attribute of an item, at whose beginning nothing is taken
for a group or a negation. -/
structure IsAttribute (attr : List UInt8) : Prop where
  free : ∀ b ∈ attr, isNameByte b = true
  start : ∀ b ∈ attr.head?, b ≠ code '&' ∧ b ≠ code '|' ∧ b ≠ code '!'
  nonblank : Text.trimChars (Text.decodeLossy attr) ≠ []

/-- The name that the bytes of an attribute stand for. -/
def attributeName (attr : List UInt8) : String :=
  String.ofList (Text.trimChars (Text.decodeLossy attr))

section Item

variable {attr value : List UInt8} {f : SearchFilter} (hattr : IsAttribute attr)
  (hvalues : ∀ b ∈ value, isValueByte b = true)
  (hvalue : ofValue? (attributeName attr) value = some f)
include hattr hvalues hvalue

/-- An item is read as its attribute and what its value asks for. -/
lemma readItem_eq (rest : List UInt8) :
    readItem (attr ++ code '=' :: (value ++ code ')' :: rest)) = .ok (f, code ')' :: rest) := by
  have hne : (Text.trimChars (Text.decodeLossy attr)).isEmpty = false :=
    List.isEmpty_eq_false_iff.2 hattr.nonblank
  have hequals : ¬ isNameByte (code '=') = true := by decide
  have hclose : ¬ isValueByte (code ')') = true := by decide
  rw [readItem, List.takeWhile_append_of_pos hattr.free, List.dropWhile_append_of_pos hattr.free,
    List.takeWhile_cons_of_neg hequals, List.dropWhile_cons_of_neg hequals, List.append_nil, hne]
  simp only [Bool.false_eq_true, if_false, expect_code, bind, Except.bind]
  rw [List.takeWhile_append_of_pos hvalues, List.dropWhile_append_of_pos hvalues,
    List.takeWhile_cons_of_neg hclose, List.dropWhile_cons_of_neg hclose, List.append_nil]
  rw [attributeName] at hvalue
  simp only [hvalue]
  rfl

end Item

/-- A name without the marks of a filter consists of bytes that can stand in a name. -/
lemma isNameByte_of_mem {name : String} (hfree : ∀ c ∈ name.toList, c ≠ '=' ∧ c ≠ '(' ∧ c ≠ ')')
    {b : UInt8} (hb : b ∈ Text.bytesOf name) : isNameByte b = true := by
  have hne : ∀ c : Char, c.toNat < 0x80 → c ∉ name.toList → b ≠ code c := by
    rintro c hc hmem rfl
    exact hmem ((code_mem_encode_iff hc).1 hb)
  simp only [isNameByte, Bool.and_eq_true, bne_iff_ne]
  refine ⟨⟨hne '=' (by decide) ?_, hne '(' (by decide) ?_⟩, hne ')' (by decide) ?_⟩
  · exact fun h => (hfree _ h).1 rfl
  · exact fun h => (hfree _ h).2.1 rfl
  · exact fun h => (hfree _ h).2.2 rfl

section Name

variable {name : String} (hname : IsPlainName name)
include hname

/-- The first byte of a name is an ASCII character only where the name begins with it. -/
lemma head_bytesOf_ne {c : Char} (hc : c.toNat < 0x80) (hstart : name.toList.head? ≠ some c) :
    ∀ b ∈ (Text.bytesOf name).head?, b ≠ code c := by
  rintro b hb rfl
  cases hchars : name.toList with
  | nil => exact hname.nonempty (String.toList_eq_nil_iff.1 hchars)
  | cons first others =>
    obtain ⟨d, ds, hd⟩ := List.exists_cons_of_ne_nil (String.utf8EncodeChar_ne_nil (c := first))
    rw [Text.bytesOf, hchars, Text.encode_cons, hd, List.cons_append, List.head?_cons,
      Option.mem_some_iff] at hb
    have hcode : first.toNat = (code c).toNat := by
      refine Text.toNat_eq_of_mem_utf8EncodeChar ?_ (by rw [toNat_code hc]; exact hc)
      rw [hd, hb]
      exact List.mem_cons_self
    rw [toNat_code hc] at hcode
    have hfirst : first = c := by rw [← Char.ofNat_toNat first, hcode, Char.ofNat_toNat]
    rw [hchars, hfirst] at hstart
    exact hstart rfl

lemma attributeName_bytesOf : attributeName (Text.bytesOf name) = name := by
  rw [attributeName, Text.decodeLossy_bytesOf]
  exact hname.trimmed

lemma isAttribute_bytesOf : IsAttribute (Text.bytesOf name) where
  free b hb := isNameByte_of_mem hname.free hb
  start b hb := by
    have hne : ∀ c : Char, c.toNat < 0x80 → (c = '&' ∨ c = '|' ∨ c = '!') → b ≠ code c := by
      intro c hc hmark
      refine head_bytesOf_ne hname hc (fun hhead => ?_) b hb
      have hstart := hname.start c hhead
      rcases hmark with rfl | rfl | rfl
      · exact hstart.1 rfl
      · exact hstart.2.1 rfl
      · exact hstart.2.2 rfl
    exact ⟨hne '&' (by decide) (.inl rfl), hne '|' (by decide) (.inr (.inl rfl)),
      hne '!' (by decide) (.inr (.inr rfl))⟩
  nonblank := by
    rw [Text.decodeLossy_bytesOf, ← Text.toList_trim, hname.trimmed]
    exact fun h => hname.nonempty (String.toList_eq_nil_iff.1 h)

end Name

/-! ## Filters -/

/-- The reader takes the bytes for the filter, whatever follows them. -/
structure ReadsAs (input : List UInt8) (f : SearchFilter) : Prop where
  opens : input.head? = some (code '(')
  reads : ∀ steps rest, input.length ≤ steps → readFilter steps (input ++ rest) = .ok (f, rest)

/-- The bytes between parentheses. -/
def enclosed (body : List UInt8) : List UInt8 :=
  code '(' :: (body ++ [code ')'])

lemma enclosed_append (body rest : List UInt8) :
    enclosed body ++ rest = code '(' :: (body ++ code ')' :: rest) := by
  simp [enclosed]

lemma length_enclosed (body : List UInt8) : (enclosed body).length = body.length + 2 := by
  simp [enclosed]

/-- An item is read whatever bytes its attribute consists of. -/
lemma readsAs_attribute {attr value : List UInt8} {f : SearchFilter} (hattr : IsAttribute attr)
    (hvalues : ∀ b ∈ value, isValueByte b = true)
    (hvalue : ofValue? (attributeName attr) value = some f) :
    ReadsAs (enclosed (attr ++ code '=' :: value)) f := by
  refine ⟨rfl, fun steps rest hsteps => ?_⟩
  rw [length_enclosed] at hsteps
  obtain ⟨steps, rfl⟩ : ∃ n, steps = n + 1 := ⟨steps - 1, by omega⟩
  have hitem := readItem_eq hattr hvalues hvalue rest
  cases attr with
  | nil => exact absurd rfl hattr.nonblank
  | cons b attr =>
    obtain ⟨hand, hor, hnot⟩ := hattr.start b rfl
    rw [enclosed_append, readFilter, expect_code, List.append_assoc, List.cons_append,
      List.cons_append] at *
    simp only [bind, Except.bind, if_neg hand, if_neg hor, if_neg hnot, hitem, expect_code, pure,
      Except.pure]

lemma readsAs_item {name : String} {value : List UInt8} {f : SearchFilter}
    (hname : IsPlainName name) (hopen : code '(' ∉ value) (hclose : code ')' ∉ value)
    (hvalue : ofValue? name value = some f) :
    ReadsAs (enclosed (Text.bytesOf name ++ code '=' :: value)) f := by
  refine readsAs_attribute (isAttribute_bytesOf hname) (fun b hb => ?_) ?_
  · simp only [isValueByte, Bool.and_eq_true, bne_iff_ne]
    exact ⟨fun h => hopen (h ▸ hb), fun h => hclose (h ▸ hb)⟩
  · rw [attributeName_bytesOf hname]
    exact hvalue

lemma readsAs_not {input : List UInt8} {f : SearchFilter} (h : ReadsAs input f) :
    ReadsAs (enclosed (code '!' :: input)) (.not f) := by
  refine ⟨rfl, fun steps rest hsteps => ?_⟩
  rw [length_enclosed, List.length_cons] at hsteps
  obtain ⟨steps, rfl⟩ : ∃ n, steps = n + 1 := ⟨steps - 1, by omega⟩
  have hbody := h.reads steps (code ')' :: rest) (by omega)
  have hand : code '!' ≠ code '&' := by decide
  have hor : code '!' ≠ code '|' := by decide
  rw [enclosed_append, readFilter, expect_code, List.cons_append]
  simp only [bind, Except.bind, if_neg hand, if_neg hor, if_true, hbody, expect_code, pure,
    Except.pure]

/-- The reader goes on for as long as filters follow. -/
lemma readFilters_eq {inputs : List (List UInt8)} {fs : List SearchFilter}
    (h : List.Forall₂ ReadsAs inputs fs) (steps : Nat) (rest : List UInt8)
    (hsteps : inputs.flatten.length < steps) (hrest : rest.head? ≠ some (code '(')) :
    readFilters steps (inputs.flatten ++ rest) = .ok (fs, rest) := by
  induction h generalizing steps with
  | nil =>
    obtain ⟨steps, rfl⟩ : ∃ n, steps = n + 1 := ⟨steps - 1, by omega⟩
    rw [List.flatten_nil, List.nil_append, readFilters, if_neg hrest]
    rfl
  | @cons input f inputs fs hf _ ih =>
    obtain ⟨steps, rfl⟩ : ∃ n, steps = n + 1 := ⟨steps - 1, by omega⟩
    rw [List.flatten_cons, List.length_append] at hsteps
    have hopens := hf.opens
    have hlength : 0 < input.length := by
      cases input with
      | nil => cases hopens
      | cons b input => exact Nat.succ_pos _
    have hhead : (input ++ (inputs.flatten ++ rest)).head? = some (code '(') := by
      rw [List.head?_append, hopens]
      rfl
    rw [List.flatten_cons, List.append_assoc, readFilters, if_pos hhead,
      hf.reads steps _ (by omega)]
    simp only [bind, Except.bind, ih steps (by omega)]
    rfl

section Group

variable {inputs : List (List UInt8)} {fs : List SearchFilter}
    (h : List.Forall₂ ReadsAs inputs fs)
include h

lemma readsAs_all : ReadsAs (enclosed (code '&' :: inputs.flatten)) (.all fs) := by
  refine ⟨rfl, fun steps rest hsteps => ?_⟩
  rw [length_enclosed, List.length_cons] at hsteps
  obtain ⟨steps, rfl⟩ : ∃ n, steps = n + 1 := ⟨steps - 1, by omega⟩
  have hparts := readFilters_eq h steps (code ')' :: rest) (by omega)
    (by rw [List.head?_cons]; decide)
  rw [enclosed_append, readFilter, expect_code, List.cons_append]
  simp only [bind, Except.bind, if_true, hparts, expect_code, pure, Except.pure]

lemma readsAs_any : ReadsAs (enclosed (code '|' :: inputs.flatten)) (.any fs) := by
  refine ⟨rfl, fun steps rest hsteps => ?_⟩
  rw [length_enclosed, List.length_cons] at hsteps
  obtain ⟨steps, rfl⟩ : ∃ n, steps = n + 1 := ⟨steps - 1, by omega⟩
  have hparts := readFilters_eq h steps (code ')' :: rest) (by omega)
    (by rw [List.head?_cons]; decide)
  have hand : code '|' ≠ code '&' := by decide
  rw [enclosed_append, readFilter, expect_code, List.cons_append]
  simp only [bind, Except.bind, if_neg hand, if_true, hparts, expect_code, pure, Except.pure]

end Group

/-- A text is parsed as the filter that its bytes are read as. -/
lemma parse_of_readsAs {text : String} {f : SearchFilter} (h : ReadsAs (Text.bytesOf text) f) :
    parse text = .ok f := by
  have hread := h.reads ((Text.bytesOf text).length + 1) [] (by omega)
  rw [List.append_nil] at hread
  rw [parse, readAll, hread]
  rfl

end SearchFilter

end DirectoryQuery
