import DirectoryQuery.Text.CodePoints

/-!
# Blanks and trimming

The blanks are the 25 characters of the Unicode property `White_Space`.  Trimming drops them
from both ends and leaves those inside alone.
-/

namespace DirectoryQuery.Text

/-- The code points of the property `White_Space`. -/
def blanks : CodePoints :=
  [(0x09, 0x0D), (0x20, 0x20), (0x85, 0x85), (0xA0, 0xA0), (0x1680, 0x1680), (0x2000, 0x200A),
   (0x2028, 0x2029), (0x202F, 0x202F), (0x205F, 0x205F), (0x3000, 0x3000)]

/-- Whether a character is white space. -/
def isBlank (c : Char) : Bool :=
  blanks.contains c

/-- The text without the blanks at its start. -/
def trimLeft (s : List Char) : List Char :=
  s.dropWhile isBlank

/-- The text without the blanks at its end. -/
def trimRight (s : List Char) : List Char :=
  (s.reverse.dropWhile isBlank).reverse

/-- The text without the blanks at either end. -/
def trimChars (s : List Char) : List Char :=
  trimRight (trimLeft s)

/-- The string without the blanks at either end. -/
def trim (s : String) : String :=
  String.ofList (trimChars s.toList)

@[simp] theorem trimChars_nil : trimChars [] = [] := rfl

@[simp] theorem toList_trim (s : String) : (trim s).toList = trimChars s.toList := by
  simp [trim]

end DirectoryQuery.Text
