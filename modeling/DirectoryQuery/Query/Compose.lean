import DirectoryQuery.Filter.Split
import DirectoryQuery.Query.Basic

/-!
# Composing queries

Each operation returns a new query and leaves the old one as it is.  A new filter goes as far down
the chain as it can: into the directory's own filter, below a stage it does not depend on, or into
a stage of its own on top.  An equality on the entry's name becomes the base of a search for that
single entry.

New instances draw their identities from a counter.  Every operation takes the next number that is
free and returns the one that is free afterwards.
-/

namespace DirectoryQuery.Query

/-- The search of a base with a scope. -/
def ofBase (base : String) (scope : Scope) (next : Nat) : Query × Nat :=
  (.search ⟨next, .default⟩ ⟨base, scope, none⟩, next + 1)

/-- Puts a stage on top of a query, with the query's options.  The empty query stays as it is. -/
def derive (stage : Stage) (q : Query) (next : Nat) : Query × Nat :=
  match q with
  | .empty => (.empty, next)
  | q => (.staged ⟨next, q.options⟩ stage q, next + 1)

/-- Puts a filter on top of a query. -/
def filterOnTop (f : Filter) (q : Query) (next : Nat) : Except FilterError (Query × Nat) := do
  let matcher ← Matcher.ofFilter f
  pure (q.derive (.filtered matcher) next)

/-- Puts a filter on top of a query if there is one. -/
def filterOnTop? (f : Option Filter) (q : Query) (next : Nat) :
    Except FilterError (Query × Nat) :=
  match f with
  | some f => q.filterOnTop f next
  | none => pure (q, next)

/-- A search whose filter can be written, with a further filter on top of it. -/
def searchWith (source : Source) (kept : Option Filter) (options : QueryOptions) (next : Nat) :
    Except FilterError (Query × Nat) := do
  let _ ← source.filterText
  filterOnTop? kept (.search ⟨next, options⟩ source) (next + 1)

/-- Adds a filter to a search.  What the directory can evaluate goes into its filter and the rest
on top.  The name of an entry becomes the base, if the search covers it; a name outside the search
or two different names leave nothing to find. -/
def refineSearch (source : Source) (f : Filter) (options : QueryOptions) (next : Nat) :
    Except FilterError (Query × Nat) :=
  let parts := f.splitForDirectory
  let filter := Filter.and? source.filter parts.pushed
  match Pin.resolve parts.pinned with
  | .conflict => pure (.empty, next)
  | .unpinned => searchWith { source with filter } parts.kept options next
  | .entry dn checks =>
    if source.scope.covers source.base dn then
      searchWith ⟨dn, .singleEntry, filter⟩ (Filter.and? parts.kept checks) options next
    else pure (.empty, next)

/-- Adds a filter to a query.  It passes below filters, orderings, selections and the dropping of
equal entries, and below annotations as far as it does not ask for what they compute.  It stays on
top of a window. -/
def refine (f : Filter) : Query → Nat → Except FilterError (Query × Nat)
  | .empty, next => pure (.empty, next)
  | .search tag source, next => refineSearch source f tag.options next
  | .staged tag stage below, next =>
    match stage with
    | .sliced window => filterOnTop f (.staged tag (.sliced window) below) next
    | .annotated annotations => do
      let parts := f.splitByNames (annotations.map (·.1))
      let (below, next) ←
        match parts.pushed with
        | some pushed => refine pushed below next
        | none => pure (below, next)
      let (annotated, next) := below.derive (.annotated annotations) next
      filterOnTop? parts.kept annotated next
    | stage => do
      let (below, next) ← refine f below next
      pure (below.derive stage next)

/-- Keeps the entries that match a filter. -/
def filter (q : Query) (f : Filter) (next : Nat) : Except FilterError (Query × Nat) :=
  q.refine f next

/-- Keeps the entries that do not match a filter. -/
def exclude (q : Query) (f : Filter) (next : Nat) : Except FilterError (Query × Nat) :=
  q.refine f.negate next

/-- Adds computed attributes. -/
def annotate (q : Query) (annotations : List (String × Annotation)) (next : Nat) : Query × Nat :=
  if annotations.isEmpty then (q, next) else q.derive (.annotated annotations) next

/-- Sorts by keys, those that cannot be read left out.  On a sorted query the new keys come first
and the old ones decide ties, in one sort. -/
def orderBy (q : Query) (keys : List String) (next : Nat) : Query × Nat :=
  let keys := keys.filterMap SortKey.parse?
  if keys.isEmpty then (q, next)
  else
    match q with
    | .staged _ (.ordered previous) below => below.derive (.ordered (keys ++ previous)) next
    | q => q.derive (.ordered keys) next

/-- Keeps the named attributes. -/
def select (q : Query) (names : List String) (next : Nat) : Query × Nat :=
  q.derive (.selected names) next

/-- Drops entries that count as equal to an earlier one. -/
def distinct (q : Query) (next : Nat) : Query × Nat :=
  match q with
  | .staged _ .distinct _ => (q, next)
  | q => q.derive .distinct next

/-- Keeps the entries at the positions of a window. -/
def slice (q : Query) (low : Int) (high : Option Int) (step : Int) (next : Nat) :
    Except QueryError (Query × Nat) := do
  let window ← Window.ofBounds low high step
  pure (q.derive (.sliced window) next)

/-- The same query with other options, as an instance of its own. -/
def withOptions (q : Query) (options : QueryOptions) (next : Nat) : Query × Nat :=
  match q with
  | .empty => (.empty, next)
  | .search _ source => (.search ⟨next, options⟩ source, next + 1)
  | .staged _ stage below => (.staged ⟨next, options⟩ stage below, next + 1)

@[simp] theorem derive_empty (stage : Stage) (next : Nat) :
    derive stage .empty next = (.empty, next) := rfl

end DirectoryQuery.Query
