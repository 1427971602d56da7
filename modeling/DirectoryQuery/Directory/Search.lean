import DirectoryQuery.Entry.Basic
import DirectoryQuery.Scope
import DirectoryQuery.Text.Decimal
import DirectoryQuery.Text.Split
import DirectoryQuery.Text.Utf8

/-!
# Paged searches

A search is asked for page by page.  Each page but the last comes with a cookie, which the request
for the next page hands back.  The cookie is the number of the search and the position of the next
entry, in text.
-/

namespace DirectoryQuery

/-- A search as a directory takes it. -/
structure SearchRequest where
  base : String
  /-- The text of a search filter. -/
  filter : String
  scope : Scope
  /-- The number of entries on a page; zero asks for all of them at once. -/
  pageSize : Nat
deriving DecidableEq

/-- What a request for the next page hands back. -/
structure Cookie where
  bytes : List UInt8
deriving DecidableEq

namespace Cookie

/-- The cookie for a position in a search. -/
def encode (search position : Nat) : Cookie :=
  ⟨Text.bytesOf (toString search ++ ":" ++ toString position)⟩

/-- The search and the position that a cookie stands for. -/
def decode? (cookie : Cookie) : Option (Nat × Nat) := do
  let text ← Text.decode? cookie.bytes
  let (search, position) ← Text.splitAtFirst? ':' text
  let search ← Text.readNat? Text.maxSize search
  let position ← Text.readNat? Text.maxSize position
  some (search, position)

/-- The cookie as text. -/
def text (cookie : Cookie) : String :=
  String.ofList (Text.decodeLossy cookie.bytes)

end Cookie

/-- One page of results. -/
structure Page where
  entries : List Entry
  /-- Where the next page starts, if there is one. -/
  cookie : Option Cookie

end DirectoryQuery
