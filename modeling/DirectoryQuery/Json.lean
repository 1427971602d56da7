/-!
# JSON trees

The tree form of JSON data.  Numbers that are no integers are told apart from those that are and
carry no value, since nothing in this library reads or writes one.
-/

namespace DirectoryQuery

/-- A JSON value.  The fields of an object have distinct names. -/
inductive Json where
  | null
  | bool (b : Bool)
  | integer (n : Int)
  | real
  | text (s : String)
  | list (items : List Json)
  | object (fields : List (String × Json))

namespace Json

/-- The field of an object by name. -/
def field? (fields : List (String × Json)) (name : String) : Option Json :=
  (fields.find? fun f => f.1 == name).map (·.2)

/-- Reads a text. -/
def text? : Json → Option String
  | .text s => some s
  | _ => none

/-- Reads a list. -/
def list? : Json → Option (List Json)
  | .list items => some items
  | _ => none

/-- Reads a natural number up to `limit`. -/
def nat? (limit : Nat) : Json → Option Nat
  | .integer n => if 0 ≤ n ∧ n ≤ limit then some n.toNat else none
  | _ => none

/-- Reads one of a set of named choices.  A choice is written as its name; an object that has the
name as its only field, with the value `null`, means the same. -/
def choice? {α : Type} (choices : List (String × α)) : Json → Option α
  | .text s => (choices.find? fun p => p.1 == s).map (·.2)
  | .object [(s, .null)] => (choices.find? fun p => p.1 == s).map (·.2)
  | _ => none

/-- The values of a structure's fields in the order of `names`, `none` for a field that is left
out.  A structure is written as an object, whose further fields are ignored, or as the list of its
values in order; a list may be shorter than `names` but not longer. -/
def fieldsOf? (names : List String) : Json → Option (List (Option Json))
  | .object fields => some (names.map (field? fields))
  | .list items =>
    if items.length ≤ names.length then
      some (items.map some ++ List.replicate (names.length - items.length) none)
    else none
  | _ => none

end Json

end DirectoryQuery
