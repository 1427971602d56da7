import DirectoryQuery.Filter.Error
import DirectoryQuery.Filter.Lookup
import DirectoryQuery.Operand

/-!
# Conditions

A condition relates one attribute to an operand.  It is written by a key, which is the attribute's
name and, behind two underscores, the name of a lookup; without a lookup the condition asks for
equality.  `Condition.parse` takes exactly the keys with one or two non-empty parts.
-/

namespace DirectoryQuery

/-- A condition on one attribute. -/
structure Condition where
  field : String
  /-- The name of the lookup; none asks for equality. -/
  lookup : Option String
  operand : Operand
deriving DecidableEq

namespace Condition

/-- Stands between the attribute and the lookup of a key. -/
def separator : String := "__"

/-- The parts of a key between its separators, found from the left. -/
def keyParts : List Char → List (List Char)
  | [] => [[]]
  | '_' :: '_' :: rest => [] :: keyParts rest
  | c :: rest =>
    match keyParts rest with
    | [] => [[c]]
    | part :: parts => (c :: part) :: parts

/-- Reads a key and puts it together with an operand. -/
def parse (key : String) (operand : Operand) : Except FilterError Condition :=
  match keyParts key.toList with
  | [field] =>
    if field.isEmpty then .error (.malformedKey key)
    else .ok ⟨String.ofList field, none, operand⟩
  | [field, lookup] =>
    if field.isEmpty || lookup.isEmpty then .error (.malformedKey key)
    else .ok ⟨String.ofList field, some (String.ofList lookup), operand⟩
  | _ => .error (.malformedKey key)

/-- The name of the condition's lookup. -/
def lookupName (c : Condition) : String :=
  c.lookup.getD Lookup.exact.name

/-- The condition's lookup, if its name is that of one. -/
def lookupKind (c : Condition) : Except FilterError Lookup :=
  match Lookup.ofName? c.lookupName with
  | some l => .ok l
  | none => .error (.unsupportedLookup c.lookupName)

/-- The key of the condition. -/
def key (c : Condition) : String :=
  match c.lookup with
  | some lookup => c.field ++ separator ++ lookup
  | none => c.field

/-- The condition as text. -/
def text (c : Condition) : String :=
  c.key ++ "=" ++ c.operand.display

theorem keyParts_ne_nil (s : List Char) : keyParts s ≠ [] := by
  fun_cases keyParts s <;> simp_all

end Condition

end DirectoryQuery
