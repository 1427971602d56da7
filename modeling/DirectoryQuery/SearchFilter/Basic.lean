import DirectoryQuery.Entry.Basic
import DirectoryQuery.Text.Lowercase
import DirectoryQuery.Text.Occurrence
import DirectoryQuery.Text.Utf8

/-!
# Search filters

The filters that a directory evaluates: conjunction, disjunction, negation, presence, equality
and patterns of pieces.  Values are compared as text without regard to case, bytes by their lossy
decoding.

A pattern is matched from the left, each piece at its first occurrence behind the piece before it.
-/

namespace DirectoryQuery

/-- Pieces that a value holds in this order, the first at its start and the last at its end. -/
structure Pattern where
  initial : Option (List UInt8)
  middle : List (List UInt8)
  final : Option (List UInt8)
deriving DecidableEq

/-- A filter in the language of a directory. -/
inductive SearchFilter where
  | all (parts : List SearchFilter)
  | any (parts : List SearchFilter)
  | not (part : SearchFilter)
  | present (name : String)
  | equal (name : String) (value : List UInt8)
  | pattern (name : String) (pieces : Pattern)

/-- The attribute that tells the kind of an entry. -/
def classAttribute : String := "objectClass"

/-- The form in which bytes are compared. -/
def foldBytes (bytes : List UInt8) : List Char :=
  Text.lowerChars (Text.decodeLossy bytes)

namespace Pattern

/-- What is left of a text behind the middle pieces, each taken at its first occurrence. -/
def afterMiddle? : List (List UInt8) → List Char → Option (List Char)
  | [], s => some s
  | piece :: rest, s => (Text.afterFirst? (foldBytes piece) s).bind (afterMiddle? rest)

/-- Whether a folded text matches the pattern. -/
def holds (p : Pattern) (s : List Char) : Bool :=
  let behindInitial := match p.initial with
    | some piece => Text.dropPiece? (foldBytes piece) s
    | none => some s
  match behindInitial.bind (afterMiddle? p.middle) with
  | none => false
  | some rest =>
    match p.final with
    | some piece => Text.endsWith (foldBytes piece) rest
    | none => true

end Pattern

namespace SearchFilter

mutual

/-- Whether an entry matches.  Every entry of a directory has an object class, whether its
attributes show it or not. -/
def holds (e : Entry) : SearchFilter → Bool
  | .all parts => allHold e parts
  | .any parts => anyHolds e parts
  | .not part => !part.holds e
  | .present name => Text.sameName name classAttribute || e.has name
  | .equal name value =>
    let wanted := foldBytes value
    (e.get name).any fun v => foldBytes v.toBytes == wanted
  | .pattern name pieces => (e.get name).any fun v => pieces.holds (foldBytes v.toBytes)

/-- Whether an entry matches every one of several filters. -/
def allHold (e : Entry) : List SearchFilter → Bool
  | [] => true
  | f :: rest => f.holds e && allHold e rest

/-- Whether an entry matches one of several filters. -/
def anyHolds (e : Entry) : List SearchFilter → Bool
  | [] => false
  | f :: rest => f.holds e || anyHolds e rest

end

theorem allHold_eq (e : Entry) (fs : List SearchFilter) :
    allHold e fs = fs.all fun f => f.holds e := by
  induction fs with
  | nil => rfl
  | cons f fs ih => simp [allHold, ih]

theorem anyHolds_eq (e : Entry) (fs : List SearchFilter) :
    anyHolds e fs = fs.any fun f => f.holds e := by
  induction fs with
  | nil => rfl
  | cons f fs ih => simp [anyHolds, ih]

end SearchFilter

end DirectoryQuery
