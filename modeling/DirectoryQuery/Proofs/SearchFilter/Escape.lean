import DirectoryQuery.Filter.Render
import DirectoryQuery.Proofs.Text.Utf8
import DirectoryQuery.SearchFilter.Parser

/-!
# Escaped values

What `Filter.escapeValue` writes for a value is free of the characters that mean something in a
search filter (`not_mem_escapeValue`), and the reader's `unescape?` gives the bytes of the value
back (`unescape?_escapeValue`).  Text is escaped character by character and unescaped byte by byte;
the two meet in `unescape?_escapeChar`, one character with whatever follows it.
-/

namespace DirectoryQuery

/-- Whether a character means something in a search filter wherever it stands. -/
def isFilterMark (c : Char) : Bool :=
  c == '*' || c == '(' || c == ')'

namespace SearchFilter

/-! ## ASCII characters as bytes -/

lemma toNat_code {c : Char} (h : c.toNat < 0x80) : (code c).toNat = c.toNat :=
  Text.toNat_byte (by omega)

lemma encode_cons_ascii {c : Char} (h : c.toNat < 0x80) (s : List Char) :
    Text.encode (c :: s) = code c :: Text.encode s := by
  rw [Text.encode_cons, Text.utf8EncodeChar_of_ascii h]
  rfl

/-- An ASCII character is in a text exactly when its code is among the bytes. -/
lemma code_mem_encode_iff {c : Char} (h : c.toNat < 0x80) {s : List Char} :
    code c ∈ Text.encode s ↔ c ∈ s := by
  constructor
  · intro hmem
    obtain ⟨d, hd, hcode⟩ :=
      Text.exists_char_of_mem_encode hmem (by rw [toNat_code h]; exact h)
    rw [toNat_code h] at hcode
    have hcd : d = c := by rw [← Char.ofNat_toNat d, hcode, Char.ofNat_toNat]
    rwa [hcd] at hd
  · intro hmem
    refine List.mem_flatMap.2 ⟨c, hmem, ?_⟩
    rw [Text.utf8EncodeChar_of_ascii h]
    exact List.mem_singleton_self _

lemma ascii_of_isFilterMark {c : Char} (h : isFilterMark c = true) : c.toNat < 0x80 := by
  simp only [isFilterMark, Bool.or_eq_true, beq_iff_eq] at h
  rcases h with (rfl | rfl) | rfl <;> decide

/-! ## Nothing escaped is a mark -/

lemma isFilterMark_hexDigit {n : Nat} (h : n < 16) : isFilterMark (Text.hexDigit n) = false := by
  revert n
  decide

lemma isFilterMark_of_mem_hexByte {b : UInt8} {c : Char} (h : c ∈ Text.hexByte b) :
    isFilterMark c = false := by
  have hb := b.toNat_lt
  simp only [Text.hexByte, List.mem_cons, List.not_mem_nil, or_false] at h
  rcases h with rfl | rfl <;> exact isFilterMark_hexDigit (by omega)

lemma isFilterMark_of_mem_escapeChar {c d : Char} (h : d ∈ Filter.escapeChar c) :
    isFilterMark d = false := by
  rw [Filter.escapeChar.eq_def] at h
  split at h
  case h_6 hstar hopen hclose _ _ =>
    obtain rfl := List.mem_singleton.1 h
    simp only [isFilterMark, Bool.or_eq_false_iff, beq_eq_false_iff_ne]
    exact ⟨⟨hstar, hopen⟩, hclose⟩
  all_goals
    simp only [List.mem_cons, List.not_mem_nil, or_false] at h
    rcases h with rfl | rfl | rfl <;> rfl

lemma isFilterMark_of_mem_escapeValue {v : Value} {c : Char}
    (h : c ∈ (Filter.escapeValue v).toList) : isFilterMark c = false := by
  have htext : ∀ s : String, c ∈ (Filter.escapeText s).toList → isFilterMark c = false := by
    intro s hs
    rw [Filter.escapeText, String.toList_ofList] at hs
    obtain ⟨d, _, hd⟩ := List.mem_flatMap.1 hs
    exact isFilterMark_of_mem_escapeChar hd
  cases v with
  | bytes b =>
    rw [Filter.escapeValue, Filter.escapeBytes, String.toList_ofList] at h
    obtain ⟨x, _, hx⟩ := List.mem_flatMap.1 h
    rcases List.mem_cons.1 hx with rfl | hx
    · decide
    · exact isFilterMark_of_mem_hexByte hx
  | _ => exact htext _ h

/-- No mark stands among the bytes of an escaped value. -/
lemma not_mem_escapeValue {c : Char} (hc : isFilterMark c = true) (v : Value) :
    code c ∉ Text.bytesOf (Filter.escapeValue v) := by
  intro h
  rw [Text.bytesOf, code_mem_encode_iff (ascii_of_isFilterMark hc)] at h
  rw [isFilterMark_of_mem_escapeValue h] at hc
  cases hc

/-! ## Unescaping -/

lemma unescape?_cons {b : UInt8} (h : b ≠ code '\\') (rest : List UInt8) :
    unescape? (b :: rest) = (unescape? rest).map (b :: ·) := by
  rw [unescape?.eq_def]
  simp [h]

/-- Bytes without a backslash stand for themselves. -/
lemma unescape?_append {bytes : List UInt8} (h : code '\\' ∉ bytes) (rest : List UInt8) :
    unescape? (bytes ++ rest) = (unescape? rest).map (bytes ++ ·) := by
  induction bytes with
  | nil => simp
  | cons b bytes ih =>
    obtain ⟨hb, hbytes⟩ := not_or.1 (mt List.mem_cons.2 h)
    rw [List.cons_append, unescape?_cons (Ne.symm hb), ih hbytes, Option.map_map]
    rfl

/-- A backslash and the two digits of a byte stand for that byte. -/
lemma unescape?_escape {a b byte : UInt8} (h : escapedByte? a b = some byte) (rest : List UInt8) :
    unescape? (code '\\' :: a :: b :: rest) = (unescape? rest).map (byte :: ·) := by
  rw [unescape?, if_pos rfl]
  simp [h]

lemma unescape?_escapeChar (c : Char) (rest : List UInt8) :
    unescape? (Text.encode (Filter.escapeChar c) ++ rest) =
      (unescape? rest).map (String.utf8EncodeChar c ++ ·) := by
  rw [Filter.escapeChar.eq_def]
  split
  case h_6 _ _ _ hbackslash _ =>
    have hfree : code '\\' ∉ Text.encode [c] := by
      rw [code_mem_encode_iff (by decide), List.mem_singleton]
      exact fun h => hbackslash h.symm
    rw [unescape?_append hfree, Text.encode_cons, Text.encode_nil, List.append_nil]
  all_goals exact unescape?_escape (by decide) rest

lemma unescape?_escapeText (s : String) :
    unescape? (Text.bytesOf (Filter.escapeText s)) = some (Text.bytesOf s) := by
  rw [Text.bytesOf, Filter.escapeText, String.toList_ofList, Text.bytesOf]
  induction s.toList with
  | nil => rfl
  | cons c s ih =>
    rw [List.flatMap_cons, Text.encode_append, unescape?_escapeChar, ih, Text.encode_cons]
    rfl

lemma hexValue?_hexDigit {n : Nat} (h : n < 16) :
    Text.hexValue? (Text.hexDigit n).toNat = some n := by
  revert n
  decide

lemma hexDigit_ascii {n : Nat} (h : n < 16) : (Text.hexDigit n).toNat < 0x80 := by
  revert n
  decide

lemma code_hexDigit_ne_plus {n : Nat} (h : n < 16) : code (Text.hexDigit n) ≠ code '+' := by
  revert n
  decide

lemma escapedByte?_hexDigits (b : UInt8) :
    escapedByte? (code (Text.hexDigit (b.toNat / 16))) (code (Text.hexDigit (b.toNat % 16))) =
      some b := by
  have hb := b.toNat_lt
  have hhigh : b.toNat / 16 < 16 := by omega
  have hlow : b.toNat % 16 < 16 := by omega
  rw [escapedByte?, if_neg (code_hexDigit_ne_plus hhigh), Text.byteOfDigits?,
    toNat_code (hexDigit_ascii hhigh), toNat_code (hexDigit_ascii hlow), hexValue?_hexDigit hhigh,
    hexValue?_hexDigit hlow]
  have hsum : 16 * (b.toNat / 16) + b.toNat % 16 = b.toNat := by omega
  rw [Option.bind_some, Option.map_some, hsum, UInt8.ofNat_toNat]

lemma unescape?_escapeBytes (bytes : List UInt8) :
    unescape? (Text.bytesOf (Filter.escapeBytes bytes)) = some bytes := by
  rw [Text.bytesOf, Filter.escapeBytes, String.toList_ofList]
  induction bytes with
  | nil => rfl
  | cons b bytes ih =>
    have hb := b.toNat_lt
    rw [List.flatMap_cons, Text.encode_append, Text.hexByte, encode_cons_ascii (by decide),
      encode_cons_ascii (hexDigit_ascii (by omega)), encode_cons_ascii (hexDigit_ascii (by omega)),
      Text.encode_nil]
    simp only [List.cons_append, List.nil_append]
    rw [unescape?_escape (escapedByte?_hexDigits b), ih]
    rfl

/-- The reader gets back the bytes of a value from its escaped form. -/
theorem unescape?_escapeValue (v : Value) :
    unescape? (Text.bytesOf (Filter.escapeValue v)) = some v.toBytes := by
  cases v with
  | bytes b => exact unescape?_escapeBytes b
  | _ => exact unescape?_escapeText _

lemma eq_nil_of_unescape?_eq_nil {bytes : List UInt8} (h : unescape? bytes = some []) :
    bytes = [] := by
  rw [unescape?.eq_def] at h
  split at h
  · rfl
  · split at h
    · split at h
      · obtain ⟨byte, _, hmap⟩ := Option.bind_eq_some_iff.1 h
        obtain ⟨more, _, hmore⟩ := Option.map_eq_some_iff.1 hmap
        cases hmore
      · cases h
    · obtain ⟨more, _, hmore⟩ := Option.map_eq_some_iff.1 h
      cases hmore

/-- Only what has no bytes is written as nothing. -/
lemma bytesOf_escapeValue_eq_nil {v : Value} :
    Text.bytesOf (Filter.escapeValue v) = [] ↔ v.toBytes = [] := by
  have hread := unescape?_escapeValue v
  constructor
  · intro h
    rw [h] at hread
    exact (Option.some.inj hread).symm
  · intro h
    rw [h] at hread
    exact eq_nil_of_unescape?_eq_nil hread

end SearchFilter

end DirectoryQuery
