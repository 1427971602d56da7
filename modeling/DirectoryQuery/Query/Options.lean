import DirectoryQuery.Json

/-!
# Query options

Whether a query keeps the result of its first complete evaluation, or asks the directory every
time.
-/

namespace DirectoryQuery

/-- What becomes of a complete result. -/
inductive CacheMode where
  /-- It is kept and answers all later evaluations. -/
  | snapshot
  /-- It is not kept. -/
  | refetch
deriving DecidableEq

/-- The modes by name. -/
def CacheMode.choices : List (String × CacheMode) :=
  [("snapshot", .snapshot), ("refetch", .refetch)]

/-- The name of the mode. -/
def CacheMode.name : CacheMode → String
  | .snapshot => "snapshot"
  | .refetch => "refetch"

/-- The options of a query. -/
structure QueryOptions where
  cache : CacheMode
deriving DecidableEq

namespace QueryOptions

/-- Keep the first complete result. -/
def default : QueryOptions :=
  ⟨.snapshot⟩

/-- Whether the query asks the directory every time. -/
def isRefetch (o : QueryOptions) : Bool :=
  o.cache == .refetch

/-- The JSON form of the options. -/
def toJson (o : QueryOptions) : Json :=
  .object [("cache", .text o.cache.name)]

/-- Reads options.  Each of them may be left out. -/
def ofJson? (j : Json) : Option QueryOptions := do
  match ← j.fieldsOf? ["cache"] with
  | [none] => some default
  | [some cache] => (Json.choice? CacheMode.choices cache).map QueryOptions.mk
  | _ => none

end QueryOptions

end DirectoryQuery
