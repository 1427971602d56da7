import DirectoryQuery.Directory.Search
import DirectoryQuery.Filter.Matcher
import DirectoryQuery.Filter.Render
import DirectoryQuery.Query.Annotation
import DirectoryQuery.Query.Options
import DirectoryQuery.Query.SortKey
import DirectoryQuery.Query.Window

/-!
# Queries

A query is a search of a directory with a chain of stages on top of it, or the empty query.
Queries are values and say what to do; nothing is asked of a directory before one is evaluated.

Every query but the empty one is an instance with an identity of its own, under which its result
can be kept.  The stages of a chain are instances too, so a query derived from another shares what
was kept for it.  The empty query needs no identity, since its result is known.
-/

namespace DirectoryQuery

/-- A search that has not been run. -/
structure Source where
  base : String
  scope : Scope
  /-- The filter that the directory evaluates, if there is any. -/
  filter : Option Filter

namespace Source

/-- The text of the filter that every entry satisfies. -/
def catchAll : String :=
  "(" ++ "objectClass" ++ "=*)"

/-- The text of the search's filter. -/
def filterText (s : Source) : Except FilterError String :=
  match s.filter with
  | some f => f.render
  | none => .ok catchAll

/-- The search as a directory takes it. -/
def request (s : Source) (pageSize : Nat) : Except FilterError SearchRequest := do
  let filter ← s.filterText
  pure ⟨s.base, filter, s.scope, pageSize⟩

end Source

/-- What a stage does to the entries that come to it. -/
inductive Stage where
  /-- Lets those pass that match. -/
  | filtered (matcher : Matcher)
  /-- Adds computed attributes. -/
  | annotated (annotations : List (String × Annotation))
  /-- Sorts them. -/
  | ordered (keys : List SortKey)
  /-- Lets those at certain positions pass. -/
  | sliced (window : Window)
  /-- Keeps the named attributes only. -/
  | selected (names : List String)
  /-- Drops those that count as equal to an earlier one. -/
  | distinct

/-- The identity of a query instance and its options. -/
structure QueryTag where
  id : Nat
  options : QueryOptions

/-- A query. -/
inductive Query where
  /-- Nothing, without asking any directory. -/
  | empty
  /-- A search. -/
  | search (tag : QueryTag) (source : Source)
  /-- A stage on top of a query. -/
  | staged (tag : QueryTag) (stage : Stage) (below : Query)

namespace Query

/-- Whether it is known without asking that the query has no result. -/
def isKnownEmpty : Query → Bool
  | .empty => true
  | _ => false

/-- The tag of the query, if it is not the empty query. -/
def tag? : Query → Option QueryTag
  | .empty => none
  | .search tag _ => some tag
  | .staged tag _ _ => some tag

/-- The options of the query. -/
def options (q : Query) : QueryOptions :=
  match q.tag? with
  | some tag => tag.options
  | none => .default

/-- The search below the stages of the query, unless it is empty. -/
def source? : Query → Option Source
  | .empty => none
  | .search _ source => some source
  | .staged _ _ below => below.source?

end Query

end DirectoryQuery
