import DirectoryQuery.Entry.Basic
import DirectoryQuery.Text.Quoted
import DirectoryQuery.Value.Order

/-!
# Computed attributes

An annotation computes the values of an attribute from an entry.  Annotations are applied in order,
so that later ones see what earlier ones computed.
-/

namespace DirectoryQuery

/-- What an annotation computes. -/
inductive Computed where
  | absent
  | one (v : Value)
  | many (vs : List Value)
deriving DecidableEq

/-- The values of the computed attribute. -/
def Computed.values : Computed → List Value
  | .absent => []
  | .one v => [v]
  | .many vs => vs

/-- One value or none. -/
def Computed.ofOption : Option Value → Computed
  | some v => .one v
  | none => .absent

/-- A function on entries and the label under which it is listed. -/
structure Annotation where
  label : String
  compute : Entry → Computed

namespace Annotation

/-- An annotation by a function. -/
def ofFunction (compute : Entry → Computed) : Annotation :=
  ⟨"fn", compute⟩

/-- The annotation under another label. -/
def labelled (a : Annotation) (label : String) : Annotation :=
  { a with label }

/-- The number of values of an attribute. -/
def count (name : String) : Annotation :=
  ⟨"count(" ++ name ++ ")", fun e => .one (.int (Int64.ofNat (e.get name).length))⟩

/-- The greatest value of an attribute. -/
def max (name : String) : Annotation :=
  ⟨"max(" ++ name ++ ")", fun e => .ofOption (Value.greatest? (e.get name))⟩

/-- The least value of an attribute. -/
def min (name : String) : Annotation :=
  ⟨"min(" ++ name ++ ")", fun e => .ofOption (Value.least? (e.get name))⟩

/-- A fixed value. -/
def constant (v : Value) : Annotation :=
  .ofFunction fun _ => .one v

/-- All values of an attribute. -/
def valuesOf (name : String) : Annotation :=
  .ofFunction fun e => .many (e.get name)

/-- The first value of an attribute. -/
def firstOf (name : String) : Annotation :=
  .ofFunction fun e => .ofOption (e.get name).head?

/-- The annotation as it is listed. -/
def describe (a : Annotation) : String :=
  "Annotation(" ++ Text.quoted a.label ++ ")"

end Annotation

/-- Adds computed attributes to an entry, in order. -/
def Entry.annotate (e : Entry) (annotations : List (String × Annotation)) : Entry :=
  annotations.foldl (fun e a => e.insert a.1 (a.2.compute e).values) e

end DirectoryQuery
