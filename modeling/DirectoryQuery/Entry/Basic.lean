import DirectoryQuery.SortedMap
import DirectoryQuery.Text.AsciiCase
import DirectoryQuery.Value.Basic

/-!
# Directory entries

An entry maps attribute names to sequences of values.  Names keep the case they were given and are
looked up without regard to ASCII case, an exact match first.  The attribute `dn` is always there
and holds the entry's name as its one value; no operation changes it, and the type keeps that
fact.
-/

namespace DirectoryQuery

/-- The attribute that holds the entry's own name. -/
def identityAttribute : String := "dn"

/-- Whether a name is a spelling of the identity attribute. -/
def isIdentity (name : String) : Bool :=
  Text.sameName name identityAttribute

/-- Why a map of attributes is no entry. -/
inductive EntryFault where
  /-- The attribute `dn` holds something else than one text. -/
  | malformedIdentity
  /-- There is no attribute `dn`. -/
  | missingIdentity
deriving DecidableEq

/-- The text of the fault. -/
def EntryFault.message : EntryFault → String
  | .malformedIdentity => "dn must hold exactly one text value"
  | .missingIdentity => "record has no dn attribute"

/-- An entry: attributes by name, with the entry's own name under `dn`. -/
structure Entry where
  attributes : SortedMap (List Value)
  identified : ∃ d, attributes.get? identityAttribute = some [.text d]
deriving DecidableEq

namespace Entry

/-- The entry of this name without further attributes. -/
def named (dn : String) : Entry :=
  ⟨SortedMap.empty.insert identityAttribute [.text dn], dn, by simp⟩

/-- Takes a map of attributes for an entry if its `dn` is one text. -/
def ofMap (attributes : SortedMap (List Value)) : Except EntryFault Entry :=
  match h : attributes.get? identityAttribute with
  | some [.text d] => .ok ⟨attributes, d, h⟩
  | some _ => .error .malformedIdentity
  | none => .error .missingIdentity

/-- The name of the entry. -/
def dn (e : Entry) : String :=
  match e.attributes.get? identityAttribute with
  | some (.text d :: _) => d
  | _ => ""

/-- The stored spelling of an attribute name: the name itself if it is stored, and otherwise the
first stored name that differs in case only. -/
def spelling? (e : Entry) (name : String) : Option String :=
  if (e.attributes.get? name).isSome then some name
  else e.attributes.keys.find? fun key => Text.sameName key name

/-- The values of an attribute, none if it is absent. -/
def get (e : Entry) (name : String) : List Value :=
  ((e.spelling? name).bind e.attributes.get?).getD []

/-- Whether an attribute has a value. -/
def has (e : Entry) (name : String) : Bool :=
  !(e.get name).isEmpty

/-- Every stored spelling agrees with the name up to ASCII case. -/
theorem sameName_of_spelling? {e : Entry} {name key : String} (h : e.spelling? name = some key) :
    Text.sameName key name = true := by
  rw [spelling?] at h
  split at h
  · obtain rfl := Option.some.inj h
    exact Text.sameName_refl _
  · simpa using List.find?_some h

/-- The spelling under which values for a name are stored. -/
def spelling (e : Entry) (name : String) : String :=
  (e.spelling? name).getD name

theorem sameName_spelling (e : Entry) (name : String) :
    Text.sameName (e.spelling name) name = true := by
  rw [spelling]
  cases h : e.spelling? name with
  | none => exact Text.sameName_refl _
  | some key => exact sameName_of_spelling? h

theorem spelling_ne_identity (e : Entry) {name : String} (h : isIdentity name = false) :
    identityAttribute ≠ e.spelling name := by
  intro heq
  have hs := sameName_spelling e name
  rw [← heq, Text.sameName_comm] at hs
  rw [isIdentity, hs] at h
  cases h

/-- Sets the values of an attribute, under its stored spelling if it has one.  The name of the
entry stays as it is. -/
def insert (e : Entry) (name : String) (values : List Value) : Entry :=
  if h : isIdentity name = true then e
  else
    ⟨e.attributes.insert (e.spelling name) values, by
      obtain ⟨d, hd⟩ := e.identified
      exact ⟨d, by
        rw [SortedMap.get?_insert_of_ne _ _ (e.spelling_ne_identity (by simpa using h)), hd]⟩⟩

/-- Keeps the attributes that are named, without regard to case, and the entry's own name. -/
def retain (e : Entry) (names : List String) : Entry :=
  ⟨e.attributes.filterKeys fun key =>
      key == identityAttribute || names.any fun name => Text.sameName name key, by
    obtain ⟨d, hd⟩ := e.identified
    exact ⟨d, by rw [SortedMap.get?_filterKeys]; simpa using hd⟩⟩

/-- The attributes in the order of their names, the entry's own name among them. -/
def toList (e : Entry) : List (String × List Value) :=
  e.attributes.pairs

/-- The number of attributes. -/
def size (e : Entry) : Nat :=
  e.attributes.size

@[simp] theorem dn_named (d : String) : (named d).dn = d := by
  simp [named, dn]

theorem get?_identity (e : Entry) : e.attributes.get? identityAttribute = some [.text e.dn] := by
  obtain ⟨d, hd⟩ := e.identified
  simp [dn, hd]

end Entry

end DirectoryQuery
