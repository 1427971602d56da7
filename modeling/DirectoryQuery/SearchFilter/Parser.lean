import DirectoryQuery.SearchFilter.Basic
import DirectoryQuery.Text.Blank
import DirectoryQuery.Text.Hex
import DirectoryQuery.Text.Split

/-!
# Reading search filters

A filter is written in parentheses.  Behind the opening one stands `&` or `|` and any number of
filters, `!` and one filter, or an item: an attribute, an equals sign and a value.  The value `*`
asks for presence; a value with stars is a pattern, whose empty pieces say nothing; any other value
asks for equality.  A backslash and two digits stand for a byte.

The reader works on the bytes of the text and always looks at what is left of them, so the place of
a fault is the number of bytes read so far.  `readFilter` takes a bound on the number of steps;
every step reads a byte or more, so the number of bytes is bound enough.
-/

namespace DirectoryQuery.SearchFilter

/-- What a reader expected and did not find. -/
inductive ParseFault where
  /-- A certain character. -/
  | expected (c : Char)
  /-- The name of an attribute. -/
  | missingAttribute
  /-- Two digits behind a backslash. -/
  | badEscape
  /-- The end of the text. -/
  | trailingInput
deriving DecidableEq

/-- The text of the fault. -/
def ParseFault.message : ParseFault → String
  | .expected c => "expected '" ++ String.singleton c ++ "'"
  | .missingAttribute => "missing attribute"
  | .badEscape => "bad escape"
  | .trailingInput => "trailing input"

/-- A fault with the bytes that were left where it was found. -/
structure ParseFailure where
  fault : ParseFault
  rest : List UInt8

/-- The code of an ASCII character. -/
def code (c : Char) : UInt8 :=
  c.toNat.toUInt8

/-- Reads one certain ASCII character. -/
def expect (c : Char) : List UInt8 → Except ParseFailure (List UInt8)
  | [] => .error ⟨.expected c, []⟩
  | b :: rest => if b = code c then .ok rest else .error ⟨.expected c, b :: rest⟩

/-- Whether a byte can stand in the name of an attribute. -/
def isNameByte (b : UInt8) : Bool :=
  b != code '=' && b != code '(' && b != code ')'

/-- Whether a byte can stand in a value. -/
def isValueByte (b : UInt8) : Bool :=
  b != code '(' && b != code ')'

/-- The byte that two characters behind a backslash stand for.  The first may be a plus sign in
place of a leading zero. -/
def escapedByte? (a b : UInt8) : Option UInt8 :=
  if a = code '+' then Text.byteOfDigits? '0'.toNat b.toNat
  else Text.byteOfDigits? a.toNat b.toNat

/-- Replaces every escape by the byte it stands for. -/
def unescape? : List UInt8 → Option (List UInt8)
  | [] => some []
  | b :: rest =>
    if b = code '\\' then
      match rest with
      | d :: e :: rest => (escapedByte? d e).bind fun byte => (unescape? rest).map (byte :: ·)
      | _ => none
    else (unescape? rest).map (b :: ·)

/-- A piece of a pattern, none if it is empty. -/
def nonEmpty? (piece : List UInt8) : Option (List UInt8) :=
  if piece.isEmpty then none else some piece

/-- The test on an attribute that the pieces between the stars of a value ask for. -/
def ofPieces (name : String) : List (List UInt8) → SearchFilter
  | [] => .equal name []
  | [value] => .equal name value
  | first :: others =>
    .pattern name
      ⟨nonEmpty? first, others.dropLast.filterMap nonEmpty?, nonEmpty? (others.getLastD [])⟩

/-- The test that a value asks for, none if an escape in it is malformed. -/
def ofValue? (name : String) (value : List UInt8) : Option SearchFilter :=
  if value = [code '*'] then some (.present name)
  else ((Text.splitAtEach (code '*') value).mapM unescape?).map (ofPieces name)

/-- Reads an attribute, an equals sign and a value. -/
def readItem (input : List UInt8) : Except ParseFailure (SearchFilter × List UInt8) :=
  let name := Text.trimChars (Text.decodeLossy (input.takeWhile isNameByte))
  let behindName := input.dropWhile isNameByte
  if name.isEmpty then .error ⟨.missingAttribute, behindName⟩
  else do
    let behindEquals ← expect '=' behindName
    let behindValue := behindEquals.dropWhile isValueByte
    match ofValue? (String.ofList name) (behindEquals.takeWhile isValueByte) with
    | some f => pure (f, behindValue)
    | none => throw ⟨.badEscape, behindValue⟩

mutual

/-- Reads one filter within a number of steps. -/
def readFilter : Nat → List UInt8 → Except ParseFailure (SearchFilter × List UInt8)
  | 0, input => .error ⟨.expected '(', input⟩
  | steps + 1, input => do
    let body ← expect '(' input
    let (f, rest) ←
      match body with
      | [] => readItem body
      | b :: behind =>
        if b = code '&' then do
          let (parts, rest) ← readFilters steps behind
          pure (SearchFilter.all parts, rest)
        else if b = code '|' then do
          let (parts, rest) ← readFilters steps behind
          pure (SearchFilter.any parts, rest)
        else if b = code '!' then do
          let (part, rest) ← readFilter steps behind
          pure (SearchFilter.not part, rest)
        else readItem body
    let rest ← expect ')' rest
    pure (f, rest)

/-- Reads filters for as long as one begins, within a number of steps. -/
def readFilters : Nat → List UInt8 → Except ParseFailure (List SearchFilter × List UInt8)
  | 0, input => pure ([], input)
  | steps + 1, input =>
    if input.head? = some (code '(') then do
      let (f, rest) ← readFilter steps input
      let (fs, rest) ← readFilters steps rest
      pure (f :: fs, rest)
    else pure ([], input)

end

/-- Why a text is no filter, and how many of its bytes were read before. -/
structure ParseError where
  offset : Nat
  fault : ParseFault

/-- The text of the error. -/
def ParseError.message (e : ParseError) : String :=
  "invalid filter at offset " ++ toString e.offset ++ ": " ++ e.fault.message

/-- Reads a filter that takes up all of the bytes. -/
def readAll (input : List UInt8) : Except ParseFailure SearchFilter := do
  let (f, rest) ← readFilter (input.length + 1) input
  if rest.isEmpty then pure f else throw ⟨.trailingInput, rest⟩

/-- Reads a filter from its text. -/
def parse (text : String) : Except ParseError SearchFilter :=
  let input := Text.bytesOf text
  match readAll input with
  | .ok f => .ok f
  | .error failure => .error ⟨input.length - failure.rest.length, failure.fault⟩

end DirectoryQuery.SearchFilter
