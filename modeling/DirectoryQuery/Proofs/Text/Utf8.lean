import DirectoryQuery.Text.Utf8
import Mathlib.Tactic.Lemma
import Mathlib.Tactic.SplitIfs

/-!
# The decoder reads what the encoder writes

`decodeLossy_encode` says that a text survives its encoding: the lossy decoder puts no replacement
character into the bytes of a text.  It rests on one lemma for each number of bytes that a
character can take, and those on two lemmas for a byte inside a character.

The second part is about single bytes.  A byte below `0x80` stands in an encoding for the ASCII
character of that code and for nothing else, so bytes can be searched for ASCII characters without
decoding them.  This goes for bytes that are no text as well: where the decoder finds an ASCII
character its byte is among those that were read (`exists_byte_of_mem_decodeLossy`).
-/

namespace DirectoryQuery.Text

/-! ## One byte of the decoder -/

lemma decodeFrom_cons (state : DecodeState) (b : UInt8) (rest : List UInt8) :
    decodeFrom state (b :: rest) =
      (decodeByte state b.toNat).1 ++ decodeFrom (decodeByte state b.toNat).2 rest := by
  cases state <;> rfl

lemma toNat_byte {n : Nat} (h : n < 256) : (UInt8.ofNat n).toNat = n := by
  simp [Nat.mod_eq_of_lt h]

/-- The code points of characters leave out the surrogates. -/
lemma toNat_char_lt (c : Char) : c.toNat < 0xD800 ∨ 0xDFFF < c.toNat ∧ c.toNat < 0x110000 := by
  have hvalid := c.valid
  simpa [UInt32.isValidChar, Nat.isValidChar] using hvalid

section Tail

variable {value low high b : Nat} (rest : List UInt8)

lemma decodeFrom_inside (missing : Nat) (hlow : low ≤ b) (hhigh : b ≤ high) (hb : b < 256) :
    decodeFrom (.inside (missing + 2) value low high) (UInt8.ofNat b :: rest) =
      decodeFrom (.inside (missing + 1) (value * 64 + (b - 0x80)) 0x80 0xBF) rest := by
  rw [decodeFrom_cons, toNat_byte hb]
  simp [decodeByte, hlow, hhigh]

lemma decodeFrom_last (hlow : low ≤ b) (hhigh : b ≤ high) (hb : b < 256) :
    decodeFrom (.inside 1 value low high) (UInt8.ofNat b :: rest) =
      Char.ofNat (value * 64 + (b - 0x80)) :: decodeFrom .between rest := by
  rw [decodeFrom_cons, toNat_byte hb]
  simp [decodeByte, hlow, hhigh]

lemma decodeFrom_two (hlow : 0xC2 ≤ b) (hhigh : b < 0xE0) :
    decodeFrom .between (UInt8.ofNat b :: rest) =
      decodeFrom (.inside 1 (b - 0xC0) 0x80 0xBF) rest := by
  rw [decodeFrom_cons, toNat_byte (by omega)]
  rw [decodeByte, beginChar, if_neg (by omega), if_neg (by omega), if_pos hhigh, List.nil_append]

/-- The first of three bytes narrows the second, so that no character is written in more bytes
than it takes and no surrogate is written at all. -/
lemma decodeFrom_three {tail : Nat} (hlow : 0xE0 ≤ b) (hhigh : b < 0xF0) (ht : 0x80 ≤ tail)
    (ht' : tail ≤ 0xBF) (hshort : b = 0xE0 → 0xA0 ≤ tail) (hsurrogate : b = 0xED → tail ≤ 0x9F) :
    decodeFrom .between (UInt8.ofNat b :: UInt8.ofNat tail :: rest) =
      decodeFrom (.inside 1 ((b - 0xE0) * 64 + (tail - 0x80)) 0x80 0xBF) rest := by
  rw [decodeFrom_cons, toNat_byte (by omega), decodeByte, beginChar, if_neg (by omega),
    if_neg (by omega), if_neg (by omega)]
  split_ifs with h h'
  · subst h
    exact decodeFrom_inside rest 0 (hshort rfl) ht' (by omega)
  · subst h'
    exact decodeFrom_inside rest 0 ht (hsurrogate rfl) (by omega)
  · exact decodeFrom_inside rest 0 ht ht' (by omega)

/-- The first of four bytes narrows the second, so that no character is written in more bytes than
it takes and no code point lies behind the last one. -/
lemma decodeFrom_four {tail : Nat} (hlow : 0xF0 ≤ b) (hhigh : b ≤ 0xF4) (ht : 0x80 ≤ tail)
    (ht' : tail ≤ 0xBF) (hshort : b = 0xF0 → 0x90 ≤ tail) (hlimit : b = 0xF4 → tail ≤ 0x8F) :
    decodeFrom .between (UInt8.ofNat b :: UInt8.ofNat tail :: rest) =
      decodeFrom (.inside 2 ((b - 0xF0) * 64 + (tail - 0x80)) 0x80 0xBF) rest := by
  rw [decodeFrom_cons, toNat_byte (by omega), decodeByte, beginChar, if_neg (by omega),
    if_neg (by omega), if_neg (by omega), if_neg (by omega), if_neg (by omega), if_neg (by omega)]
  split_ifs with h h' h''
  · subst h
    exact decodeFrom_inside rest 1 (hshort rfl) ht' (by omega)
  · exact decodeFrom_inside rest 1 ht ht' (by omega)
  · subst h''
    exact decodeFrom_inside rest 1 ht (hlimit rfl) (by omega)
  · omega

end Tail

/-! ## Whole texts -/

/-- The decoder reads back the bytes of one character. -/
lemma decodeFrom_utf8EncodeChar (c : Char) (rest : List UInt8) :
    decodeFrom .between (String.utf8EncodeChar c ++ rest) = c :: decodeFrom .between rest := by
  have hvalid := toNat_char_lt c
  have hc : Char.ofNat c.toNat = c := Char.ofNat_toNat c
  rw [String.utf8EncodeChar]
  simp only [show c.val.toNat = c.toNat from rfl]
  generalize c.toNat = n at hvalid hc
  subst hc
  -- one case for each number of bytes
  split_ifs with h1 h2 h3
  · rw [List.singleton_append, decodeFrom_cons, toNat_byte (by omega), decodeByte, beginChar,
      if_pos (by omega), List.singleton_append]
  · rw [List.cons_append, List.singleton_append, decodeFrom_two _ (by omega) (by omega),
      decodeFrom_last _ (by omega) (by omega) (by omega)]
    have hvalue : (n / 64 % 0x20 + 0xc0 - 0xC0) * 64 + (n % 0x40 + 0x80 - 0x80) = n := by omega
    rw [hvalue]
  · rw [List.cons_append, List.cons_append, List.singleton_append,
      decodeFrom_three _ (by omega) (by omega) (by omega) (by omega) (by omega) (by omega),
      decodeFrom_last _ (by omega) (by omega) (by omega)]
    have hvalue : ((n / 4096 % 0x10 + 0xe0 - 0xE0) * 64 + (n / 64 % 0x40 + 0x80 - 0x80)) * 64 +
        (n % 0x40 + 0x80 - 0x80) = n := by omega
    rw [hvalue]
  · rw [List.cons_append, List.cons_append, List.cons_append, List.singleton_append,
      decodeFrom_four _ (by omega) (by omega) (by omega) (by omega) (by omega) (by omega),
      decodeFrom_inside _ 0 (by omega) (by omega) (by omega),
      decodeFrom_last _ (by omega) (by omega) (by omega)]
    have hvalue : (((n / 262144 % 0x08 + 0xf0 - 0xF0) * 64 +
        (n / 4096 % 0x40 + 0x80 - 0x80)) * 64 + (n / 64 % 0x40 + 0x80 - 0x80)) * 64 +
        (n % 0x40 + 0x80 - 0x80) = n := by omega
    rw [hvalue]

/-- Text survives its encoding. -/
@[simp] theorem decodeLossy_encode (s : List Char) : decodeLossy (encode s) = s := by
  unfold decodeLossy
  induction s with
  | nil => rfl
  | cons c s ih => rw [encode_cons, decodeFrom_utf8EncodeChar, ih]

@[simp] lemma decodeLossy_bytesOf (s : String) : decodeLossy (bytesOf s) = s.toList := by
  rw [bytesOf, decodeLossy_encode]

/-- A text is the one text with its encoding. -/
lemma decode?_encode (s : List Char) : decode? (encode s) = some s := by
  simp [decode?]

/-! ## ASCII among the bytes -/

/-- An ASCII character is one byte, its code. -/
lemma utf8EncodeChar_of_ascii {c : Char} (h : c.toNat < 0x80) :
    String.utf8EncodeChar c = [UInt8.ofNat c.toNat] := by
  rw [String.utf8EncodeChar]
  simp only [show c.val.toNat = c.toNat from rfl]
  rw [if_pos (by omega)]

/-- All bytes of another character are beyond ASCII. -/
lemma le_of_mem_utf8EncodeChar {c : Char} (h : 0x80 ≤ c.toNat) {b : UInt8}
    (hb : b ∈ String.utf8EncodeChar c) : 0x80 ≤ b.toNat := by
  have hvalid := toNat_char_lt c
  rw [String.utf8EncodeChar] at hb
  simp only [show c.val.toNat = c.toNat from rfl] at hb
  generalize c.toNat = n at *
  split_ifs at hb with h1 h2 h3
  · omega
  · rcases List.mem_cons.1 hb with rfl | hb
    · rw [toNat_byte (by omega)]; omega
    · obtain rfl := List.mem_singleton.1 hb
      rw [toNat_byte (by omega)]; omega
  · simp only [List.mem_cons, List.not_mem_nil, or_false] at hb
    rcases hb with rfl | rfl | rfl <;> (rw [toNat_byte (by omega)]; omega)
  · simp only [List.mem_cons, List.not_mem_nil, or_false] at hb
    rcases hb with rfl | rfl | rfl | rfl <;> (rw [toNat_byte (by omega)]; omega)

/-- A byte below `0x80` stands for the ASCII character of that code. -/
lemma toNat_eq_of_mem_utf8EncodeChar {c : Char} {b : UInt8} (hb : b ∈ String.utf8EncodeChar c)
    (hascii : b.toNat < 0x80) : c.toNat = b.toNat := by
  rcases Nat.lt_or_ge c.toNat 0x80 with h | h
  · rw [utf8EncodeChar_of_ascii h] at hb
    obtain rfl := List.mem_singleton.1 hb
    rw [toNat_byte (by omega)]
  · have := le_of_mem_utf8EncodeChar h hb
    omega

/-- An ASCII byte of an encoding comes from a character of the text. -/
lemma exists_char_of_mem_encode {s : List Char} {b : UInt8} (hb : b ∈ encode s)
    (hascii : b.toNat < 0x80) : ∃ c ∈ s, c.toNat = b.toNat := by
  obtain ⟨c, hc, hbc⟩ := List.mem_flatMap.1 hb
  exact ⟨c, hc, toNat_eq_of_mem_utf8EncodeChar hbc hascii⟩

lemma encode_eq_nil_iff {s : List Char} : encode s = [] ↔ s = [] := by
  constructor
  · intro h
    have hdecode := decodeLossy_encode s
    rw [h] at hdecode
    exact hdecode.symm
  · rintro rfl
    rfl

/-! ## ASCII characters among decoded bytes -/

/-- A character under way will not be an ASCII one: it has a bit above the seventh already, or the
next byte brings one. -/
def DecodeState.Wide : DecodeState → Prop
  | .between => True
  | .inside missing value low _ =>
    2 ≤ value ∨ 2 ≤ missing ∧ 2 ≤ value * 64 + (low - 0x80)

lemma wide_beginChar (b : Nat) : (beginChar b).2.Wide := by
  rw [beginChar]
  split_ifs <;> simp only [DecodeState.Wide] <;> omega

lemma wide_decodeByte {state : DecodeState} (h : state.Wide) (b : Nat) :
    (decodeByte state b).2.Wide := by
  cases state with
  | between => exact wide_beginChar b
  | inside missing value low high =>
    rw [decodeByte]
    split_ifs with hb hmissing
    · trivial
    · simp only [DecodeState.Wide] at h ⊢
      omega
    · exact wide_beginChar b

lemma toNat_ofNat_of_ne {n : Nat} (h : (Char.ofNat n).toNat ≠ 0) : (Char.ofNat n).toNat = n := by
  by_cases hn : n.isValidChar
  · rw [Char.ofNat, dif_pos hn]
    rfl
  · rw [Char.ofNat, dif_neg hn] at h
    exact absurd rfl h

lemma toNat_replacement : replacement.toNat = 0xFFFD := rfl

lemma toNat_eq_of_mem_beginChar {b : Nat} {c : Char} (h : c ∈ (beginChar b).1)
    (hpos : c.toNat ≠ 0) (hascii : c.toNat < 0x80) : c.toNat = b := by
  have hreplacement : c ≠ replacement := by
    rintro rfl
    rw [toNat_replacement] at hascii
    omega
  rw [beginChar] at h
  split_ifs at h
  · obtain rfl := List.mem_singleton.1 h
    exact toNat_ofNat_of_ne hpos
  all_goals simp_all

/-- Only the byte of an ASCII character brings it forth. -/
lemma toNat_eq_of_mem_decodeByte {state : DecodeState} (hwide : state.Wide) {b : Nat} {c : Char}
    (h : c ∈ (decodeByte state b).1) (hpos : c.toNat ≠ 0) (hascii : c.toNat < 0x80) :
    c.toNat = b := by
  cases state with
  | between => exact toNat_eq_of_mem_beginChar h hpos hascii
  | inside missing value low high =>
    rw [decodeByte] at h
    split_ifs at h with hb hmissing
    · rw [List.mem_singleton.1 h] at hpos hascii
      rw [toNat_ofNat_of_ne hpos] at hascii
      simp only [DecodeState.Wide] at hwide
      omega
    · cases h
    · rcases List.mem_cons.1 h with rfl | h
      · rw [toNat_replacement] at hascii
        omega
      · exact toNat_eq_of_mem_beginChar h hpos hascii

lemma exists_byte_of_mem_decodeFrom {bytes : List UInt8} {state : DecodeState}
    (hwide : state.Wide) {c : Char} (h : c ∈ decodeFrom state bytes) (hpos : c.toNat ≠ 0)
    (hascii : c.toNat < 0x80) : ∃ b ∈ bytes, b.toNat = c.toNat := by
  induction bytes generalizing state with
  | nil =>
    cases state with
    | between => cases h
    | inside =>
      obtain rfl := List.mem_singleton.1 h
      rw [toNat_replacement] at hascii
      omega
  | cons b bytes ih =>
    rw [decodeFrom_cons] at h
    rcases List.mem_append.1 h with h | h
    · exact ⟨b, List.mem_cons_self, (toNat_eq_of_mem_decodeByte hwide h hpos hascii).symm⟩
    · obtain ⟨b', hb', heq⟩ := ih (wide_decodeByte hwide b.toNat) h
      exact ⟨b', List.mem_cons_of_mem b hb', heq⟩

/-- An ASCII character of decoded bytes is among the bytes, text or no text. -/
lemma exists_byte_of_mem_decodeLossy {bytes : List UInt8} {c : Char} (h : c ∈ decodeLossy bytes)
    (hpos : c.toNat ≠ 0) (hascii : c.toNat < 0x80) : ∃ b ∈ bytes, b.toNat = c.toNat := by
  have hwide : DecodeState.between.Wide := trivial
  exact exists_byte_of_mem_decodeFrom hwide h hpos hascii

end DirectoryQuery.Text
