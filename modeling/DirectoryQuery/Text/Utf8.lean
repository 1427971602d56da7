/-!
# UTF-8

Text as bytes and bytes as text.  Decoding never fails: each longest run of bytes that starts a
character and cannot be finished becomes one replacement character.  The decoder reads a byte at a
time and remembers the character under way, so it is a recursion on the bytes themselves.
-/

namespace DirectoryQuery.Text

/-- The bytes of a text. -/
def encode (s : List Char) : List UInt8 :=
  s.flatMap String.utf8EncodeChar

/-- The bytes of a string. -/
def bytesOf (s : String) : List UInt8 :=
  encode s.toList

/-- Stands for bytes that are no text. -/
def replacement : Char := '\ufffd'

/-- Where the decoder stands: between characters, or inside one that still needs `missing` bytes,
the next of them within `low` and `high`. -/
inductive DecodeState where
  | between
  | inside (missing : Nat) (value : Nat) (low high : Nat)

/-- What the first byte of a character tells: the character itself, or what has to follow. -/
def beginChar (b : Nat) : List Char × DecodeState :=
  if b < 0x80 then ([Char.ofNat b], .between)
  else if b < 0xC2 then ([replacement], .between)
  else if b < 0xE0 then ([], .inside 1 (b - 0xC0) 0x80 0xBF)
  else if b = 0xE0 then ([], .inside 2 0 0xA0 0xBF)
  else if b = 0xED then ([], .inside 2 0xD 0x80 0x9F)
  else if b < 0xF0 then ([], .inside 2 (b - 0xE0) 0x80 0xBF)
  else if b = 0xF0 then ([], .inside 3 0 0x90 0xBF)
  else if b < 0xF4 then ([], .inside 3 (b - 0xF0) 0x80 0xBF)
  else if b = 0xF4 then ([], .inside 3 4 0x80 0x8F)
  else ([replacement], .between)

/-- The characters finished by one more byte, and where the decoder stands after it. -/
def decodeByte : DecodeState → Nat → List Char × DecodeState
  | .between, b => beginChar b
  | .inside missing value low high, b =>
    if low ≤ b ∧ b ≤ high then
      let value := value * 64 + (b - 0x80)
      if missing ≤ 1 then ([Char.ofNat value], .between)
      else ([], .inside (missing - 1) value 0x80 0xBF)
    else
      let (chars, state) := beginChar b
      (replacement :: chars, state)

/-- Decodes bytes from a given state on. -/
def decodeFrom : DecodeState → List UInt8 → List Char
  | .between, [] => []
  | .inside .., [] => [replacement]
  | state, b :: rest =>
    let (chars, state) := decodeByte state b.toNat
    chars ++ decodeFrom state rest

/-- The text of some bytes, with replacement characters where they are no text. -/
def decodeLossy (bytes : List UInt8) : List Char :=
  decodeFrom .between bytes

/-- The text of some bytes, if they are the encoding of one. -/
def decode? (bytes : List UInt8) : Option (List Char) :=
  let s := decodeLossy bytes
  if encode s = bytes then some s else none

@[simp] theorem encode_nil : encode [] = [] := rfl

@[simp] theorem encode_cons (c : Char) (s : List Char) :
    encode (c :: s) = String.utf8EncodeChar c ++ encode s := by
  simp [encode]

@[simp] theorem encode_append (s t : List Char) : encode (s ++ t) = encode s ++ encode t := by
  simp [encode]

theorem encode_of_decode? {bytes : List UInt8} {s : List Char} (h : decode? bytes = some s) :
    encode s = bytes := by
  simp only [decode?] at h
  split at h
  · rename_i he
    obtain rfl := Option.some.inj h
    exact he
  · cases h

end DirectoryQuery.Text
