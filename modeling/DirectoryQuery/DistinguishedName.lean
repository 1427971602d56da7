import DirectoryQuery.Text.Blank
import DirectoryQuery.Text.Lowercase

/-!
# Distinguished names

The name of an entry is its path in the directory: components between commas, the entry's own
first and the root's last.  Names are compared without regard to case and to blanks around the
commas.  A backslash takes the character after it into the component, commas included.

A name is kept as written; `components` is the form that relations between names are about.
-/

namespace DirectoryQuery.DistinguishedName

/-- The parts between commas that no backslash escapes.  `escaped` tells whether the next
character stands behind a backslash. -/
def parts (escaped : Bool) : List Char → List (List Char)
  | [] => [[]]
  | c :: rest =>
    if !escaped && c == ',' then [] :: parts false rest
    else
      match parts (!escaped && c == '\\') rest with
      | [] => [[c]]
      | part :: more => (c :: part) :: more

/-- A component in the form in which components are compared. -/
def normalizePart (part : List Char) : String :=
  String.ofList (Text.lowerChars (Text.trimChars part))

/-- The components of a name, trimmed and in lower case.  A blank name has none. -/
def components (name : String) : List String :=
  match (parts false name.toList).map normalizePart with
  | [part] => if part = "" then [] else [part]
  | parts => parts

/-- The canonical spelling of a name: its components, with a bare comma between them. -/
def normalize (name : String) : String :=
  String.intercalate "," (components name)

/-- Whether two spellings name the same entry. -/
def same (a b : String) : Bool :=
  normalize a == normalize b

/-- The canonical spelling of the name one level up.  A name of one component has none. -/
def parent? (name : String) : Option String :=
  match components name with
  | _ :: next :: rest => some (String.intercalate "," (next :: rest))
  | _ => none

/-- Whether the name is that of the base or lies anywhere below it. -/
def isWithin (name base : String) : Bool :=
  let name := components name
  let base := components base
  base.length ≤ name.length && name.drop (name.length - base.length) == base

/-- Whether the name lies one level below the base. -/
def isChild (name base : String) : Bool :=
  match parent? name with
  | some parent => parent == normalize base
  | none => (components base).isEmpty && !(components name).isEmpty

theorem same_iff {a b : String} : same a b = true ↔ normalize a = normalize b := by
  simp [same]

@[simp] theorem same_refl (a : String) : same a a = true := by
  simp [same]

theorem same_comm (a b : String) : same a b = same b a := by
  rw [Bool.eq_iff_iff, same_iff, same_iff, eq_comm]

theorem same_trans {a b c : String} (h : same a b = true) (k : same b c = true) :
    same a c = true := by
  rw [same_iff] at *
  exact h.trans k

/-- Containment is being a suffix, component by component. -/
theorem isWithin_iff {name base : String} :
    isWithin name base = true ↔ components base <:+ components name := by
  simp only [isWithin, Bool.and_eq_true, decide_eq_true_eq, beq_iff_eq]
  rw [List.suffix_iff_eq_drop, eq_comm]
  constructor
  · exact fun h => h.2
  · intro h
    have hlen := congrArg List.length h
    simp only [List.length_drop] at hlen
    exact ⟨by omega, h⟩

theorem parts_ne_nil (escaped : Bool) (s : List Char) : parts escaped s ≠ [] := by
  cases s with
  | nil => simp [parts]
  | cons c s =>
    rw [parts]
    split
    · simp
    · split <;> simp

end DirectoryQuery.DistinguishedName
