import DirectoryQuery.Filter.Basic
import DirectoryQuery.Text.Hex

/-!
# Writing filters for a directory

A filter tree in the text form that directories take.  Comparisons have no such form.  The
characters with a meaning of their own are escaped in text, and bytes are escaped one and all, so
no operand can reach beyond its place.
-/

namespace DirectoryQuery

namespace Filter

/-- A character of an operand as it stands in a filter. -/
def escapeChar (c : Char) : List Char :=
  match c with
  | '*' => ['\\', '2', 'A']
  | '(' => ['\\', '2', '8']
  | ')' => ['\\', '2', '9']
  | '\\' => ['\\', '5', 'C']
  | '\x00' => ['\\', '0', '0']
  | c => [c]

/-- A text as it stands in a filter. -/
def escapeText (s : String) : String :=
  String.ofList (s.toList.flatMap escapeChar)

/-- Bytes as they stand in a filter. -/
def escapeBytes (bytes : List UInt8) : String :=
  String.ofList (bytes.flatMap fun b => '\\' :: Text.hexByte b)

/-- A value as it stands in a filter. -/
def escapeValue : Value → String
  | .bytes b => escapeBytes b
  | v => escapeText v.toText

/-- The item that asks for a value between two texts. -/
def renderItem (field before : String) (v : Value) (after : String) : String :=
  "(" ++ field ++ "=" ++ before ++ escapeValue v ++ after ++ ")"

/-- The item that asks whether an attribute is there or is not. -/
def renderPresence (field : String) (present : Bool) : String :=
  if present then "(" ++ field ++ "=*)" else "(!(" ++ field ++ "=*))"

/-- What stands before and behind the value of a lookup. -/
def stars? : Lookup → Option (String × String)
  | .exact | .iexact => some ("", "")
  | .contains | .icontains | .search => some ("*", "*")
  | .startsWith | .istartsWith => some ("", "*")
  | .endsWith | .iendsWith => some ("*", "")
  | _ => none

end Filter

/-- Writes a condition. -/
def Condition.render (c : Condition) : Except FilterError String := do
  let lookup ← c.lookupKind
  match lookup with
  | .oneOf =>
    match c.operand.values with
    | [] => throw (.emptyIn c.field)
    | [v] => pure (Filter.renderItem c.field "" v "")
    | vs =>
      pure ("(|" ++ String.join (vs.map fun v => Filter.renderItem c.field "" v "") ++ ")")
  | .present => pure (Filter.renderPresence c.field c.operand.isTruthy)
  | .isNull => pure (Filter.renderPresence c.field (!c.operand.isTruthy))
  | _ =>
    match c.operand.single? with
    | none => throw (.unexpectedList c.field lookup.name)
    | some v =>
      match Filter.stars? lookup with
      | none => throw (.unsupportedLookup lookup.name)
      | some (before, after) => pure (Filter.renderItem c.field before v after)

namespace Filter

mutual

/-- Writes a filter.  The first condition that has no form decides the error. -/
def render : Filter → Except FilterError String
  | .leaf c => c.render
  | .all parts => do
    let texts ← renderEach parts
    pure ("(&" ++ String.join texts ++ ")")
  | .any parts => do
    let texts ← renderEach parts
    pure ("(|" ++ String.join texts ++ ")")
  | .not part => do
    let text ← part.render
    pure ("(!" ++ text ++ ")")

/-- Writes several filters. -/
def renderEach : List Filter → Except FilterError (List String)
  | [] => pure []
  | f :: rest => do
    let text ← f.render
    let texts ← renderEach rest
    pure (text :: texts)

end

end Filter

end DirectoryQuery
