import DirectoryQuery.Text.Utf8

/-!
# Attribute values

A value is a truth value, a 64-bit integer, a text or a sequence of bytes.  What a directory
returns is text or bytes; truth values and integers appear as operands of conditions and as
computed attributes.
-/

namespace DirectoryQuery

/-- A single attribute value. -/
inductive Value where
  | bool (b : Bool)
  | int (n : Int64)
  | text (s : String)
  | bytes (b : List UInt8)
deriving DecidableEq

namespace Value

/-- False, zero and everything empty are not truthy. -/
def isTruthy : Value → Bool
  | .bool b => b
  | .int n => n != 0
  | .text s => s != ""
  | .bytes b => !b.isEmpty

/-- The text of a text value. -/
def asText? : Value → Option String
  | .text s => some s
  | _ => none

/-- The value as text, for matching pieces of it and for folding case. -/
def toText : Value → String
  | .bool true => "TRUE"
  | .bool false => "FALSE"
  | .int n => toString n.toInt
  | .text s => s
  | .bytes b => String.ofList (Text.decodeLossy b)

/-- The bytes that a directory stores for the value. -/
def toBytes : Value → List UInt8
  | .bytes b => b
  | v => Text.bytesOf v.toText

@[simp] theorem toText_text (s : String) : (text s).toText = s := rfl

@[simp] theorem toBytes_bytes (b : List UInt8) : (bytes b).toBytes = b := rfl

@[simp] theorem toBytes_text (s : String) : (text s).toBytes = Text.bytesOf s := rfl

end Value

end DirectoryQuery
