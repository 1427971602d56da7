import DirectoryQuery.Proofs.DistinguishedName.Case
import DirectoryQuery.Proofs.Filter.Integers

/-!
# Choices of values

A choice asks whether an attribute has one of several values, and it is written for a directory as
the disjunction of the equalities.  Compiled, it is their disjunction as well, but for the entry's
own name (`Condition.compile_choice_eq`): an equality there compares names, and a choice compares
characters.  What a choice of names misses are the other spellings of a name (`Value.isOtherName`),
with blanks around the commas; it never accepts an entry that none of its equalities accepts, since
names that differ in case only are the same.
-/

namespace DirectoryQuery

open DistinguishedName (same)

/-! ## Values and names -/

namespace Value

variable {u v : Value}

lemma matchesIgnoringCase_comm (u v : Value) :
    u.matchesIgnoringCase v = v.matchesIgnoringCase u := by
  have hnumber (n : Int64) (s : String) :
      (int n).matchesIgnoringCase (text s) = (text s).matchesIgnoringCase (int n) := by
    rw [matchesIgnoringCase_text_int, matchesIgnoringCase, looseEq, looseCompare]
    cases numericText? s with
    | none => rfl
    | some m =>
      rw [Option.map_some, Bool.eq_iff_iff, beq_iff_eq, beq_iff_eq, Option.some.injEq,
        Option.some.injEq, Std.LawfulEqCmp.compare_eq_iff_eq]
      exact eq_comm
  cases u <;> cases v
  case int.text n s => exact hnumber n s
  case text.int s n => exact (hnumber n s).symm
  all_goals exact BEq.comm

/-- Whether the second value is a text that names what the first one does, and is not the same text
up to case. -/
def isOtherName : Value → Value → Bool
  | u, .text name => same u.toText name && u.folded != (text name).folded
  | _, _ => false

/-- Texts that agree up to case name the same. -/
lemma same_of_folded_eq {name : String} (h : u.folded = (text name).folded) :
    same u.toText name = true :=
  DistinguishedName.same_of_lowercase_eq (congrArg String.ofList h)

/-- A value equals a text by its characters, or it is a number that the text spells otherwise. -/
lemma matchesIgnoringCase_text (u : Value) (name : String) :
    u.matchesIgnoringCase (text name) =
      (u.folded == (text name).folded || (text name).isOtherSpellingOf u) := by
  cases u with
  | int n =>
    rw [matchesIgnoringCase_comm, matchesIgnoringCase_int, foldBytes_toBytes, foldBytes_toBytes]
    exact congrArg (· || _) BEq.comm
  | bool _ | text _ | bytes _ => exact (Bool.or_false _).symm

end Value

namespace Condition

variable {field : String} {vs : List Value} {e : Entry}

/-- Equality on an entry's own name accepts other spellings of the name, and of a number it accepts
no other spelling; but for these it accepts what equality on other attributes does. -/
lemma equalityTest_of_identity (h : isIdentity field = true) (u v : Value) :
    (equalityTest field v u || v.isOtherSpellingOf u) =
      (u.matchesIgnoringCase v || u.isOtherName v) := by
  cases v with
  | text name =>
    rw [equalityTest, h, Value.matchesIgnoringCase_text, Value.isOtherName]
    change (same u.toText name || _) = _
    by_cases hfolded : u.folded = (Value.text name).folded
    · rw [Value.same_of_folded_eq hfolded, beq_iff_eq.2 hfolded]
      rfl
    · rw [beq_false_of_ne hfolded, bne_iff_ne.2 hfolded, Bool.and_true, Bool.false_or]
      exact Bool.or_comm _ _
  | bool _ | int _ | bytes _ =>
    rw [equalityTest, h]
    rfl

/-! ## Choices and equalities -/

/-- Asks whether an attribute has one of several values. -/
def choice (field : String) (vs : List Value) : Condition :=
  ⟨field, some Lookup.oneOf.name, .many vs⟩

/-- Asks whether an attribute has a value. -/
def equality (field : String) (v : Value) : Condition :=
  ⟨field, none, .one v⟩

lemma compile_equality (field : String) (v : Value) :
    (equality field v).compile = .ok (someValue field (equalityTest field v)) := rfl

lemma compile_choice (field : String) (hvs : vs ≠ []) :
    (choice field vs).compile =
      .ok (someValue field fun u => vs.any u.matchesIgnoringCase) := by
  have hempty : vs.isEmpty = false := List.isEmpty_eq_false_iff.2 hvs
  change (if vs.isEmpty = true then _ else _) = _
  rw [hempty]
  rfl

lemma any_someValue (test : Value → ValueTest) :
    (vs.any fun v => someValue field (test v) e) =
      someValue field (fun u => vs.any fun v => test v u) e :=
  any_any_comm vs (e.get field) test

lemma holds_asked_choice (field : String) (vs : List Value) (e : Entry) :
    (choice field vs).asked.holds e =
      vs.any fun v => (equality field v).asked.holds e := by
  match vs with
  | [] => rfl
  | [v] => exact (Bool.or_false _).symm
  | v :: w :: vs =>
    change (SearchFilter.any _).holds e = _
    rw [SearchFilter.holds, SearchFilter.anyHolds_eq, List.any_map]
    rfl

/-- A choice is the disjunction of its equalities, compiled and as a directory reads it.  Of an
entry's own name it accepts no more than they do, and what it misses are the other spellings of a
name.  (A number can stand there only under another spelling of the attribute; a choice accepts
other spellings of it, and an equality does not.) -/
theorem compile_choice_eq (hvs : vs ≠ []) :
    ∃ (test : Entry → Bool) (testOf : Value → Entry → Bool),
      (choice field vs).compile = .ok test ∧
      (∀ v, (equality field v).compile = .ok (testOf v)) ∧
      (isIdentity field = false → ∀ e, test e = vs.any fun v => testOf v e) ∧
      (isIdentity field = true → ∀ e,
        ((vs.any fun v => testOf v e) ||
            (e.get field).any fun u => vs.any fun v => v.isOtherSpellingOf u) =
          (test e || (e.get field).any fun u => vs.any fun v => u.isOtherName v)) ∧
      (IsPlainName field → ∃ (sf : SearchFilter) (sfOf : Value → SearchFilter),
        (∃ text, (choice field vs).render = .ok text ∧ SearchFilter.parse text = .ok sf) ∧
        (∀ v, ∃ text, (equality field v).render = .ok text ∧
          SearchFilter.parse text = .ok (sfOf v)) ∧
        ∀ e, sf.holds e = vs.any fun v => (sfOf v).holds e) := by
  refine ⟨_, _, compile_choice field hvs, compile_equality field, fun hid e => ?_,
    fun hid e => ?_, fun hname => ?_⟩
  · rw [any_someValue]
    simp only [equalityTest_of_not_identity hid]
  · rw [any_someValue, someValue, someValue, ← any_or, ← any_or]
    refine forall₂_any_eq (List.forall₂_same.2 fun u _ => ?_)
    rw [← any_or, ← any_or]
    exact forall₂_any_eq (List.forall₂_same.2 fun v _ => equalityTest_of_identity hid u v)
  · have hchoice := exists_parse hname rfl (compile_choice field hvs)
    have hequality (v : Value) := exists_parse hname rfl (compile_equality field v)
    exact ⟨_, fun v => (equality field v).asked, hchoice, hequality, holds_asked_choice field vs⟩

/-- One choice can hold text and numbers, and a directory is asked for each. -/
theorem compile_choice_eq_mixed :
    ∃ test sf, (choice "cn" [.text "bob", .int 7]).compile = .ok test ∧
      SearchFilter.parse "(|(cn=bob)(cn=7))" = .ok sf ∧
      test ((Entry.named "uid=x").insert "cn" [.text "07"]) = true ∧
      sf.holds ((Entry.named "uid=x").insert "cn" [.text "BOB"]) = true := by
  obtain ⟨test, testOf, htest, htestOf, heq, -, hsearch⟩ :=
    @compile_choice_eq "cn" [.text "bob", .int 7] (List.cons_ne_nil _ _)
  obtain ⟨sf, sfOf, ⟨text, hrender, hparse⟩, hparseOf, hholds⟩ := hsearch (by decide)
  have hwritten : (choice "cn" [.text "bob", .int 7]).render = .ok "(|(cn=bob)(cn=7))" := by
    decide
  rw [hwritten] at hrender
  cases hrender
  refine ⟨test, sf, htest, hparse, ?_, ?_⟩
  · have hnumber : testOf (.int 7) = someValue "cn" (equalityTest "cn" (.int 7)) :=
      Except.ok.inj (htestOf (.int 7)).symm
    rw [heq (by decide)]
    refine List.any_eq_true.2 ⟨.int 7, by decide, ?_⟩
    rw [hnumber]
    decide
  · obtain ⟨text, hrender, hparse⟩ := hparseOf (.text "bob")
    have hread := SearchFilter.parse_of_readsAs (readsAs_render_condition (by decide) hrender)
    have hbob : sfOf (.text "bob") = (equality "cn" (.text "bob")).asked :=
      Except.ok.inj (hparse.symm.trans hread)
    rw [hholds]
    refine List.any_eq_true.2 ⟨.text "bob", by decide, ?_⟩
    rw [hbob]
    decide

/-- A blank behind a comma makes a spelling of a name that the equality takes for the name and the
choice does not. -/
theorem choice_misses_other_name :
    ∃ test testOf, (choice "dn" [.text "cn=Ann, dc=org"]).compile = .ok test ∧
      (equality "dn" (.text "cn=Ann, dc=org")).compile = .ok testOf ∧
      test (Entry.named "cn=Ann,dc=org") = false ∧
      testOf (Entry.named "cn=Ann,dc=org") = true := by
  refine ⟨_, _, compile_choice "dn" (List.cons_ne_nil _ _), compile_equality "dn" _, ?_, ?_⟩
  · decide +kernel
  · decide +kernel

end Condition

end DirectoryQuery
