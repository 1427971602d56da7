/-!
# Bytes in hexadecimal

Two hexadecimal digits to a byte.  Reading takes either case; writing comes in lower case.
-/

namespace DirectoryQuery.Text

/-- The value of a hexadecimal digit, given by its code. -/
def hexValue? (code : Nat) : Option Nat :=
  if 0x30 ≤ code ∧ code ≤ 0x39 then some (code - 0x30)
  else if 0x41 ≤ code ∧ code ≤ 0x46 then some (code - 0x37)
  else if 0x61 ≤ code ∧ code ≤ 0x66 then some (code - 0x57)
  else none

/-- The lower-case hexadecimal digit of a number below 16. -/
def hexDigit (n : Nat) : Char :=
  if n < 10 then Char.ofNat (48 + n) else Char.ofNat (87 + n)

/-- The two digits of a byte. -/
def hexByte (b : UInt8) : List Char :=
  [hexDigit (b.toNat / 16), hexDigit (b.toNat % 16)]

/-- The digits of a sequence of bytes, two to a byte. -/
def hexBytes (bytes : List UInt8) : String :=
  String.ofList (bytes.flatMap hexByte)

/-- The byte that two digits stand for. -/
def byteOfDigits? (high low : Nat) : Option UInt8 :=
  (hexValue? high).bind fun h => (hexValue? low).map fun l => UInt8.ofNat (16 * h + l)

/-- Reads digits two by two. -/
def readHexBytes? : List Char → Option (List UInt8)
  | [] => some []
  | [_] => none
  | a :: b :: rest =>
    (byteOfDigits? a.toNat b.toNat).bind fun byte => (readHexBytes? rest).map (byte :: ·)

end DirectoryQuery.Text
