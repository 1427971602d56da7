import DirectoryQuery.Proofs.Filter.Agreement
import DirectoryQuery.Proofs.Text.Decimal
import DirectoryQuery.Proofs.Text.Lowercase

/-!
# Conditions on integers

An equality whose operands are integers meets the texts of an entry in two ways.  Compiled, it reads
a text as a number; written for a directory, it compares the characters with the text of the
integer.  A text that a directory finds is always one that the compiled condition accepts.  What the
compiled condition accepts beyond that are the other spellings of the integer
(`Value.isOtherSpellingOf`): leading zeros, a plus sign, a minus sign before zero, and blanks at
either end.  The two agree on an entry exactly as far as it holds none of them
(`Condition.compile_int_operands`).
-/

namespace DirectoryQuery

/-! ## Numeric text -/

namespace Value

/-- A text is taken for an integer if it writes that integer, blanks at its ends aside. -/
lemma numericText?_eq_some_iff {s : String} {n : Int64} :
    numericText? s = some n ↔ Text.Writes (Text.trimChars s.toList) n.toInt :=
  Text.readInt64?_eq_some_iff

/-- Whether the first value is a text that reads as the integer and is not the integer's own. -/
def isOtherSpellingOf : Value → Value → Bool
  | .text s, .int n => numericText? s == some n && s != toString n.toInt
  | _, _ => false

/-- The other spellings of an integer are the ways to write it that are not its text, blanks at
their ends aside. -/
theorem isOtherSpellingOf_iff {s : String} {n : Int64} :
    (text s).isOtherSpellingOf (int n) = true ↔
      Text.Writes (Text.trimChars s.toList) n.toInt ∧ s ≠ toString n.toInt := by
  rw [isOtherSpellingOf, Bool.and_eq_true, beq_iff_eq, bne_iff_ne, numericText?_eq_some_iff]

lemma numericText?_toString (n : Int64) : numericText? (toString n.toInt) = some n := by
  have hwrites := Text.writes_toString n.toInt
  rw [numericText?_eq_some_iff, hwrites.trimChars_eq]
  exact hwrites

/-- The lower case of a text is an integer's text only if the text is. -/
lemma folded_eq_folded_int_iff {s : String} {n : Int64} :
    (text s).folded = (int n).folded ↔ s = toString n.toInt := by
  have hbounds : ∀ c ∈ (toString n.toInt).toList, 0 < c.toNat ∧ c.toNat ≤ 0x40 := fun c hc => by
    have h := (Text.writes_toString n.toInt).bounds hc
    omega
  have hself : (int n).folded = (toString n.toInt).toList := (Text.lowerChars_eq_iff hbounds).2 rfl
  rw [hself, folded, toText, Text.lowerChars_eq_iff hbounds, String.toList_inj]

/-- A text equals an integer if it reads as that integer. -/
lemma matchesIgnoringCase_text_int {s : String} {n : Int64} :
    (text s).matchesIgnoringCase (int n) = (numericText? s == some n) := by
  rw [matchesIgnoringCase, looseEq, looseCompare]
  cases numericText? s with
  | none => rfl
  | some m =>
    rw [Option.map_some, Bool.eq_iff_iff, beq_iff_eq, beq_iff_eq, Option.some.injEq,
      Option.some.injEq]
    exact Std.LawfulEqCmp.compare_eq_iff_eq

/-- Equality with an integer is equality of what is folded, and other spellings. -/
lemma matchesIgnoringCase_int (v : Value) (n : Int64) :
    v.matchesIgnoringCase (int n) =
      (foldBytes v.toBytes == foldBytes (int n).toBytes || v.isOtherSpellingOf (int n)) := by
  cases v with
  | text s =>
    rw [matchesIgnoringCase_text_int, foldBytes_toBytes, foldBytes_toBytes, isOtherSpellingOf]
    by_cases hs : s = toString n.toInt
    · have hread : numericText? s = some n := hs ▸ numericText?_toString n
      simp [hread, folded_eq_folded_int_iff.2 hs]
    · have hfolded : ((text s).folded == (int n).folded) = false :=
        beq_eq_false_iff_ne.2 (mt folded_eq_folded_int_iff.1 hs)
      rw [hfolded, bne_iff_ne.2 hs, Bool.false_or, Bool.and_true]
  | bool _ | int _ | bytes _ =>
    rw [matchesIgnoringCase_eq rfl, isOtherSpellingOf, Bool.or_false]
    all_goals simp

end Value

/-! ## Equality -/

namespace Condition

variable {c : Condition}

/-- An equality takes one value and asks for that, or it takes a choice of values. -/
lemma lookupKind_of_isEquality (h : c.isEquality = true) :
    (∃ lookup, c.lookupKind = .ok lookup ∧ lookup.takesOne = true ∧
        (∀ v, singleTest? lookup c.field v = some (equalityTest c.field v)) ∧
        ∀ bytes, lookup.asked c.field bytes = .equal c.field bytes) ∨
      c.lookupKind = .ok .oneOf := by
  rw [isEquality, Option.any_eq_true] at h
  obtain ⟨lookup, hlookup, h⟩ := h
  rw [← lookupKind_eq_ok_iff] at hlookup
  simp only [Bool.or_eq_true, beq_iff_eq] at h
  obtain (rfl | rfl) | rfl := h
  · exact .inl ⟨_, hlookup, rfl, fun _ => rfl, fun _ => rfl⟩
  · exact .inl ⟨_, hlookup, rfl, fun _ => rfl, fun _ => rfl⟩
  · exact .inr hlookup

lemma isComparison_of_isEquality (h : c.isEquality = true) : c.isComparison = false := by
  rw [isEquality, Option.any_eq_true] at h
  obtain ⟨lookup, hlookup, h⟩ := h
  rw [isComparison, hlookup, Option.any_some]
  simp only [Bool.or_eq_true, beq_iff_eq] at h
  obtain (rfl | rfl) | rfl := h <;> rfl

/-- An equality accepts an entry if some value of it equals some operand. -/
lemma eq_of_compile_isEquality (h : c.isEquality = true) (hid : isIdentity c.field = false)
    {test : Entry → Bool} (htest : c.compile = .ok test) :
    test = someValue c.field fun u => c.operand.values.any u.matchesIgnoringCase := by
  obtain ⟨lookup, hlookup, hone, hsingle, -⟩ | hlookup := lookupKind_of_isEquality h
  · rw [c.compile_of_takesOne hlookup hone] at htest
    cases hv : c.operand.single? with
    | none =>
      rw [hv] at htest
      cases htest
    | some v =>
      simp only [hv, hsingle, equalityTest_of_not_identity hid] at htest
      cases htest
      rw [Operand.values_of_single? hv]
      simp only [List.any_cons, List.any_nil, Bool.or_false]
  · rw [compile, hlookup] at htest
    simp only [bind, Except.bind] at htest
    split at htest
    · cases htest
    · cases htest
      rfl

/-- An equality asks for some value that folds to what some operand folds to. -/
lemma holds_asked_isEquality (h : c.isEquality = true) {text : String}
    (hrender : c.render = .ok text) (e : Entry) :
    c.asked.holds e = (e.get c.field).any fun u =>
      c.operand.values.any fun v => foldBytes u.toBytes == foldBytes v.toBytes := by
  obtain ⟨lookup, hlookup, hone, -, hasked⟩ | hlookup := lookupKind_of_isEquality h
  · rw [c.render_of_takesOne hlookup hone] at hrender
    cases hv : c.operand.single? with
    | none =>
      rw [hv] at hrender
      cases hrender
    | some v =>
      have hvalues := Operand.values_of_single? hv
      rw [c.asked_of_takesOne hlookup hone hvalues, hasked, SearchFilter.holds, hvalues]
      simp only [List.any_cons, List.any_nil, Bool.or_false]
  · rw [any_any_comm, asked, hlookup]
    rw [render, hlookup] at hrender
    simp only [bind, Except.bind] at hrender
    cases hvs : c.operand.values with
    | nil =>
      rw [hvs] at hrender
      cases hrender
    | cons v vs =>
      cases vs with
      | nil => simp [SearchFilter.holds]
      | cons w vs =>
        simp only [SearchFilter.holds, SearchFilter.anyHolds_eq, List.any_map]
        rfl

lemma any_or {α : Type} (as : List α) (p q : α → Bool) :
    (as.any fun a => p a || q a) = (as.any p || as.any q) := by
  induction as with
  | nil => rfl
  | cons a as ih =>
    rw [List.any_cons, List.any_cons, List.any_cons, ih]
    ac_rfl

/-- A condition that asks for integers is compiled exactly as it is written.  What is compiled from
it accepts the entries that a directory finds for what is written, and those that hold another
spelling of one of the integers. -/
theorem compile_int_operands {c : Condition} (hname : IsPlainName c.field)
    (hid : isIdentity c.field = false) (h : c.isEquality = true)
    (hint : ∀ v ∈ c.operand.values, ∃ n, v = .int n) :
    (∀ err, c.render = .error err ↔ c.compile = .error err) ∧
      ∀ text test, c.render = .ok text → c.compile = .ok test →
        ∃ sf, SearchFilter.parse text = .ok sf ∧
          ∀ e, test e = (sf.holds e ||
            (e.get c.field).any fun u => c.operand.values.any u.isOtherSpellingOf) := by
  refine ⟨render_eq_error_iff (isComparison_of_isEquality h), fun text test hrender htest => ?_⟩
  refine ⟨c.asked, SearchFilter.parse_of_readsAs (readsAs_render_condition hname hrender),
    fun e => ?_⟩
  have hmatch : ∀ u : Value, c.operand.values.any u.matchesIgnoringCase =
      ((c.operand.values.any fun v => foldBytes u.toBytes == foldBytes v.toBytes) ||
        c.operand.values.any u.isOtherSpellingOf) := by
    intro u
    rw [← any_or]
    refine forall₂_any_eq (List.forall₂_same.2 fun v hv => ?_)
    obtain ⟨n, rfl⟩ := hint v hv
    exact u.matchesIgnoringCase_int n
  rw [eq_of_compile_isEquality h hid htest, holds_asked_isEquality h hrender, someValue, ← any_or]
  exact forall₂_any_eq (List.forall₂_same.2 fun u _ => hmatch u)

/-- The integer's own text is found on both sides. -/
theorem compile_int_operands_own_text :
    ∃ sf test, SearchFilter.parse "(uidNumber=7)" = .ok sf ∧
      Condition.compile ⟨"uidNumber", none, .one (.int 7)⟩ = .ok test ∧
      test ((Entry.named "cn=Ann").insert "uidNumber" [.text "7"]) = true ∧
      sf.holds ((Entry.named "cn=Ann").insert "uidNumber" [.text "7"]) = true := by
  have hrender : Condition.render ⟨"uidNumber", none, .one (.int 7)⟩ = .ok "(uidNumber=7)" := by
    decide
  obtain ⟨test, htest⟩ :
    ∃ test, Condition.compile ⟨"uidNumber", none, .one (.int 7)⟩ = .ok test := ⟨_, rfl⟩
  have hagrees := compile_int_operands (c := ⟨"uidNumber", none, .one (.int 7)⟩) (by decide)
    (by decide) (by decide) (List.forall_mem_singleton.2 ⟨7, rfl⟩)
  obtain ⟨sf, hparse, hsame⟩ := hagrees.2 _ test hrender htest
  have haccepts : test ((Entry.named "cn=Ann").insert "uidNumber" [.text "7"]) = true := by
    cases htest
    decide
  refine ⟨sf, test, hparse, htest, haccepts, ?_⟩
  rw [hsame] at haccepts
  have hother : (((Entry.named "cn=Ann").insert "uidNumber" [.text "7"]).get "uidNumber").any
      (fun u => [Value.int 7].any u.isOtherSpellingOf) = false := by decide
  exact (Bool.or_eq_true_iff.1 haccepts).resolve_right (by rw [Bool.not_eq_true]; exact hother)

/-- A leading zero makes a text that is accepted and not found. -/
theorem compile_int_operands_leading_zero :
    ∃ sf test, Condition.render ⟨"uidNumber", none, .one (.int 7)⟩ = .ok "(uidNumber=7)" ∧
      SearchFilter.parse "(uidNumber=7)" = .ok sf ∧
      Condition.compile ⟨"uidNumber", none, .one (.int 7)⟩ = .ok test ∧
      test ((Entry.named "cn=Ann").insert "uidNumber" [.text "07"]) = true ∧
      sf.holds ((Entry.named "cn=Ann").insert "uidNumber" [.text "07"]) = false := by
  have hrender : Condition.render ⟨"uidNumber", none, .one (.int 7)⟩ = .ok "(uidNumber=7)" := by
    decide
  have hread := readsAs_render_condition (by decide) hrender
  obtain ⟨test, htest⟩ :
    ∃ test, Condition.compile ⟨"uidNumber", none, .one (.int 7)⟩ = .ok test := ⟨_, rfl⟩
  refine ⟨_, test, hrender, SearchFilter.parse_of_readsAs hread, htest, ?_, by decide⟩
  cases htest
  decide

end Condition

end DirectoryQuery
