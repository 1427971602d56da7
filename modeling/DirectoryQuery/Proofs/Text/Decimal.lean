import DirectoryQuery.Text.Blank
import DirectoryQuery.Text.Decimal
import Mathlib.Data.List.TakeWhile
import Mathlib.Tactic.Lemma

/-!
# Numbers and how they are written

A 64-bit integer can be written in many ways: with or without a plus sign, with zeros before its
digits, and zero also with a minus sign.  `Writes s n` says that the characters are one of them, and
the reader of integers takes exactly those (`readInt64?_eq_some_iff`).  One of the ways is the text
of the number (`writes_toString`).
-/

namespace DirectoryQuery.Text

/-! ## Digits -/

lemma digitsValue_toDigits (n : Nat) : digitsValue (Nat.toDigits 10 n) = n := by
  rw [digitsValue, ← Nat.ofDigitChars_eq_foldl]
  exact Nat.ofDigitChars_ten_toDigits

lemma isDigit_of_mem_toDigits {n : Nat} {c : Char} (h : c ∈ Nat.toDigits 10 n) :
    c.isDigit = true :=
  Nat.isDigit_of_mem_toDigits (by decide) (by decide) h

/-- One or more digits with this value. -/
structure IsNumeral (s : List Char) (n : Nat) : Prop where
  nonempty : s ≠ []
  digits : ∀ c ∈ s, c.isDigit = true
  value : digitsValue s = n

lemma readDigits?_eq_some_iff {s : List Char} {n : Nat} :
    readDigits? s = some n ↔ IsNumeral s n := by
  unfold readDigits?
  split
  · rename_i h
    simp only [Bool.or_eq_true, List.isEmpty_iff, Bool.not_eq_true', List.all_eq_false] at h
    refine iff_of_false (by simp) fun hs => ?_
    rcases h with h | ⟨c, hc, hdigit⟩
    · exact hs.nonempty h
    · exact hdigit (hs.digits c hc)
  · rename_i h
    simp only [Bool.or_eq_true, List.isEmpty_iff, Bool.not_eq_true', not_or,
      Bool.not_eq_false, List.all_eq_true] at h
    rw [Option.some.injEq]
    exact ⟨fun hvalue => ⟨h.1, h.2, hvalue⟩, fun hs => hs.value⟩

lemma isNumeral_toDigits (n : Nat) : IsNumeral (Nat.toDigits 10 n) n where
  nonempty := Nat.toDigits_ne_nil
  digits _ := isDigit_of_mem_toDigits
  value := digitsValue_toDigits n

/-- A numeral begins with a digit and with no sign. -/
lemma IsNumeral.ne_cons {s : List Char} {n : Nat} (h : IsNumeral s n) {c : Char}
    (hc : c.isDigit = false) (rest : List Char) : s ≠ c :: rest := by
  rintro rfl
  rw [h.digits c List.mem_cons_self] at hc
  cases hc

/-- A number is read back from its digits. -/
lemma readNat?_toDigits (limit n : Nat) :
    readNat? limit (Nat.toDigits 10 n) = if n ≤ limit then some n else none := by
  have hdigits := isNumeral_toDigits n
  rw [readNat?.eq_2 limit _ (hdigits.ne_cons (by decide)), readDigits?_eq_some_iff.2 hdigits,
    Option.filter_some]
  simp only [decide_eq_true_eq]

/-! ## Integers -/

/-- The characters write the integer: a numeral behind a sign or none. -/
inductive Writes : List Char → Int → Prop where
  | unsigned {digits : List Char} {n : Nat} (h : IsNumeral digits n) : Writes digits n
  | plus {digits : List Char} {n : Nat} (h : IsNumeral digits n) : Writes ('+' :: digits) n
  | minus {digits : List Char} {n : Nat} (h : IsNumeral digits n) : Writes ('-' :: digits) (-n)

/-- The signs and the digits are all of a number's characters. -/
lemma Writes.bounds {s : List Char} {n : Int} (h : Writes s n) {c : Char} (hc : c ∈ s) :
    0x2B ≤ c.toNat ∧ c.toNat ≤ 0x39 := by
  have hdigits : ∀ {digits n}, IsNumeral digits n → c ∈ digits →
      0x2B ≤ c.toNat ∧ c.toNat ≤ 0x39 := by
    intro digits n hnumeral hmem
    obtain ⟨hlow, hhigh⟩ := Char.isDigit_iff_toNat.1 (hnumeral.digits c hmem)
    exact ⟨Nat.le_trans (by decide) hlow, hhigh⟩
  cases h with
  | unsigned h => exact hdigits h hc
  | plus h =>
    rcases List.mem_cons.1 hc with rfl | hc
    · decide
    · exact hdigits h hc
  | minus h =>
    rcases List.mem_cons.1 hc with rfl | hc
    · decide
    · exact hdigits h hc

lemma trimChars_eq_self {s : List Char} (h : ∀ c ∈ s, isBlank c = false) : trimChars s = s := by
  have hdrop : ∀ {t : List Char}, (∀ c ∈ t, isBlank c = false) → t.dropWhile isBlank = t := by
    intro t ht
    refine List.dropWhile_eq_self_iff.2 fun hl => ?_
    rw [ht _ (List.getElem_mem hl)]
    exact Bool.false_ne_true
  rw [trimChars, trimLeft, hdrop h, trimRight, hdrop (fun c hc => h c (List.mem_reverse.1 hc)),
    List.reverse_reverse]

/-- A number has no blanks at its ends. -/
lemma Writes.trimChars_eq {s : List Char} {n : Int} (h : Writes s n) : trimChars s = s := by
  have hblank : ∀ n < 0x3A, 0x2B ≤ n → isBlank (Char.ofNat n) = false := by decide
  refine trimChars_eq_self fun c hc => ?_
  have hc := h.bounds hc
  have hplain := hblank c.toNat (by omega) hc.1
  rwa [Char.ofNat_toNat] at hplain

/-- The reader takes the ways to write an integer, and nothing else, for that integer. -/
lemma readInt64?_eq_some_iff {s : List Char} {n : Int64} :
    readInt64? s = some n ↔ Writes s n.toInt := by
  constructor
  · intro h
    obtain ⟨m, hm, rfl⟩ := Option.map_eq_some_iff.1 h
    obtain ⟨hm, hrange⟩ := Option.filter_eq_some_iff.1 hm
    simp only [Int64.toInt_minValue, Int64.toInt_maxValue, Bool.and_eq_true,
      decide_eq_true_eq] at hrange
    rw [Int64.toInt_ofInt_of_le (by omega) (by omega)]
    split at hm
    · obtain ⟨_, hsigned, rfl⟩ := Option.map_eq_some_iff.1 hm
      obtain ⟨k, hk, hcast⟩ := Option.bind_eq_some_iff.1 hsigned
      cases hcast
      exact .minus (readDigits?_eq_some_iff.1 hk)
    · obtain ⟨k, hk, rfl⟩ := Option.map_eq_some_iff.1 hm
      exact .plus (readDigits?_eq_some_iff.1 hk)
    · obtain ⟨k, hk, rfl⟩ := Option.map_eq_some_iff.1 hm
      exact .unsigned (readDigits?_eq_some_iff.1 hk)
  · intro h
    have hrange : (Int64.minValue.toInt ≤ n.toInt && n.toInt ≤ Int64.maxValue.toInt) = true :=
      Bool.and_eq_true_iff.2
        ⟨decide_eq_true (Int64.minValue_le_toInt n), decide_eq_true (Int64.toInt_le n)⟩
    generalize hm : n.toInt = m at h hrange
    have hn : Int64.ofInt m = n := by rw [← hm, Int64.ofInt_toInt]
    have hfits : ((some m).filter fun n =>
        Int64.minValue.toInt ≤ n && n ≤ Int64.maxValue.toInt).map Int64.ofInt = some n := by
      rw [Option.filter_some, if_pos hrange, Option.map_some, hn]
    unfold readInt64?
    cases h with
    | unsigned h =>
      split
      · exact absurd rfl (h.ne_cons (by decide) _)
      · exact absurd rfl (h.ne_cons (by decide) _)
      · rw [readDigits?_eq_some_iff.2 h]
        exact hfits
    | plus h =>
      simp only [readDigits?_eq_some_iff.2 h]
      exact hfits
    | minus h =>
      simp only [readDigits?_eq_some_iff.2 h]
      exact hfits

/-- The text of an integer is one way to write it. -/
lemma writes_toString (n : Int) : Writes (toString n).toList n := by
  rw [Int.toString_eq_repr, Int.repr_eq_if]
  split
  · rename_i hn
    rw [Nat.toList_repr]
    have h := Writes.unsigned (isNumeral_toDigits n.toNat)
    rwa [Int.toNat_of_nonneg hn] at h
  · rename_i hn
    rw [String.toList_append, Nat.toList_repr]
    have h := Writes.minus (isNumeral_toDigits (-n).toNat)
    rwa [Int.toNat_of_nonneg (by omega), Int.neg_neg] at h

end DirectoryQuery.Text
