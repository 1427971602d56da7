import DirectoryQuery.Text.Lowercase.Table

/-!
# Lower case

Full lower-casing of a text.  Two rules reach beyond a table of single characters: the dotted
capital I becomes two characters, and a capital sigma becomes a final sigma when it ends a word,
that is when a cased letter stands before it and none after it, case-ignorable characters aside.
-/

namespace DirectoryQuery.Text

/-- The lower-case form of one character, seen on its own. -/
def lowerChar (c : Char) : List Char :=
  if c.toNat < 0x80 then [c.toLower]
  else if c.toNat = 0x130 then ['i', '\u0307']
  else
    match lowerRuns.find? (·.covers c.toNat) with
    | some run => [Char.ofNat (c.toNat + run.shift).toNat]
    | none => [c]

/-- Whether a character is a letter with case. -/
def isCased (c : Char) : Bool :=
  if c.toNat < 0x80 then c.isAlpha else casedLetters.contains c

/-- Whether a character is passed over when looking for a letter with case. -/
def isCaseIgnorable (c : Char) : Bool :=
  caseIgnorable.contains c

/-- Whether the first character that is not passed over is a letter with case. -/
def startsCased (s : List Char) : Bool :=
  match s.dropWhile isCaseIgnorable with
  | [] => false
  | c :: _ => isCased c

/-- The capital sigma, the one letter whose lower case depends on its place. -/
def capitalSigma : Char := 'Σ'

/-- Lower-cases a text; `inWord` tells whether a cased letter precedes it, ignorable characters
aside. -/
def lowerFrom (inWord : Bool) : List Char → List Char
  | [] => []
  | c :: rest =>
    let lowered :=
      if c = capitalSigma then [if inWord && !startsCased rest then 'ς' else 'σ'] else lowerChar c
    lowered ++ lowerFrom (if isCaseIgnorable c then inWord else isCased c) rest

/-- The lower-case form of a sequence of characters. -/
def lowerChars (s : List Char) : List Char :=
  lowerFrom false s

/-- The lower-case form of a text. -/
def lowercase (s : String) : String :=
  String.ofList (lowerChars s.toList)

@[simp] theorem lowerChars_nil : lowerChars [] = [] := rfl

@[simp] theorem toList_lowercase (s : String) : (lowercase s).toList = lowerChars s.toList := by
  simp [lowercase]

theorem lowerChar_of_ascii {c : Char} (h : c.toNat < 0x80) : lowerChar c = [c.toLower] := by
  simp [lowerChar, h]

/-- On ASCII text, lower-casing works character by character. -/
theorem lowerFrom_of_ascii (inWord : Bool) {s : List Char} (h : ∀ c ∈ s, c.toNat < 0x80) :
    lowerFrom inWord s = s.map Char.toLower := by
  induction s generalizing inWord with
  | nil => rfl
  | cons c rest ih =>
    have hc : c.toNat < 0x80 := h c (by simp)
    have hs : c ≠ capitalSigma := by
      rintro rfl
      exact absurd hc (by decide)
    simp [lowerFrom, hs, lowerChar_of_ascii hc, ih _ fun d hd => h d (by simp [hd])]

end DirectoryQuery.Text
