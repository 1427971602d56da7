import DirectoryQuery.Text.Quoted.Table

/-!
# Quoted text

The quoted form of a text stands between double quotes.  Quote, backslash, NUL, tab, newline and
carriage return have short escapes; a character that cannot be seen, or that would merge with the
one before it, is written by its code point, as in `\u{200b}`.
-/

namespace DirectoryQuery.Text

/-- The hexadecimal digits of a number, without leading zeros. -/
def hexDigits (n : Nat) : List Char :=
  Nat.toDigits 16 n

/-- Whether a character merges with the one before it where it is shown. -/
def mergesWithPrevious (c : Char) : Bool :=
  graphemeExtending.contains c && !halfwidthSoundMarks.contains c

/-- Whether a character beyond ASCII leaves nothing to see where it is shown. -/
def isInvisible (c : Char) : Bool :=
  unprintable.contains c || fillers.contains c

/-- Whether quoted text writes a character by its code point. -/
def isEscapedByCode (c : Char) : Bool :=
  if c.toNat < 0x80 then c.toNat < 0x20 || c.toNat == 0x7F
  else mergesWithPrevious c || isInvisible c

/-- A character as it stands in quoted text. -/
def quoteChar (c : Char) : List Char :=
  match c with
  | '\x00' => ['\\', '0']
  | '\t' => ['\\', 't']
  | '\r' => ['\\', 'r']
  | '\n' => ['\\', 'n']
  | '\\' => ['\\', '\\']
  | '"' => ['\\', '"']
  | _ =>
    if isEscapedByCode c then ['\\', 'u', '\x7b'] ++ hexDigits c.toNat ++ ['\x7d'] else [c]

/-- The quoted form of a text. -/
def quoted (s : String) : String :=
  String.ofList ('"' :: s.toList.flatMap quoteChar ++ ['"'])

/-- Quoted texts between brackets, separated by commas. -/
def quotedList (texts : List String) : String :=
  "[" ++ String.intercalate ", " (texts.map quoted) ++ "]"

end DirectoryQuery.Text
