import DirectoryQuery.Value.Basic
import DirectoryQuery.Text.Quoted

/-!
# Showing values

How a value reads in the text of a condition, and how it reads in a listing that names its kind.
-/

namespace DirectoryQuery.Value

/-- The value as it stands in the text of a condition: text is quoted, and bytes are quoted as
text behind a `b`. -/
def display : Value → String
  | .text s => Text.quoted s
  | .bytes b => "b" ++ Text.quoted (String.ofList (Text.decodeLossy b))
  | v => v.toText

/-- The value with the name of its kind. -/
def describe : Value → String
  | .bool b => "Bool(" ++ (if b then "true" else "false") ++ ")"
  | .int n => "Int(" ++ toString n.toInt ++ ")"
  | .text s => "Text(" ++ Text.quoted s ++ ")"
  | .bytes b =>
    "Bytes([" ++ String.intercalate ", " (b.map fun x => toString x.toNat) ++ "])"

end DirectoryQuery.Value
