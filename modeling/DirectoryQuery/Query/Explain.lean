import DirectoryQuery.Query.Evaluate
import DirectoryQuery.Text.Blank

/-!
# Explaining queries

The description of a query, a line for each stage from the outermost to the search, each line
indented by its depth.
-/

namespace DirectoryQuery.Query

/-- The line of a search. -/
def explainSource (s : Source) : String :=
  let filter := match s.filterText with
    | .ok text => text
    | .error e => "<invalid: " ++ e.message ++ ">"
  "Remote base=" ++ Text.quoted s.base ++ " scope=" ++ s.scope.name ++ " filter=" ++ filter

/-- The line of a stage. -/
def explainStage : Stage → String
  | .filtered matcher => "Filtered " ++ matcher.filter.text
  | .annotated annotations =>
    "Annotated " ++
      String.intercalate ", " (annotations.map fun (name, a) => name ++ "=" ++ a.label)
  | .ordered keys => "Ordered by " ++ String.intercalate ", " (keys.map SortKey.text)
  | .sliced window => "Sliced " ++ window.text
  | .selected names => "Select " ++ String.intercalate ", " names
  | .distinct => "Distinct"

/-- The mark of an instance that has kept its result. -/
def cachedMark (snapshots : Snapshots) (tag : QueryTag) : String :=
  if (snapshots.get? tag.id).isSome then " (cached)" else ""

/-- The indentation at a depth. -/
def indentation (depth : Nat) : String :=
  String.join (List.replicate depth "  ")

/-- The lines of a query that stands at a depth. -/
def explainAt (snapshots : Snapshots) (depth : Nat) : Query → String
  | .empty => indentation depth ++ "Empty\n"
  | .search tag source =>
    indentation depth ++ explainSource source ++ cachedMark snapshots tag ++ "\n"
  | .staged tag stage below =>
    indentation depth ++ explainStage stage ++ cachedMark snapshots tag ++ "\n" ++
      explainAt snapshots (depth + 1) below

/-- The description of a query. -/
def explain (snapshots : Snapshots) (q : Query) : String :=
  q.explainAt snapshots 0

/-- The query as it is listed. -/
def describe (snapshots : Snapshots) (q : Query) : String :=
  String.ofList (Text.trimRight (q.explain snapshots).toList)

end DirectoryQuery.Query
