import DirectoryQuery.DistinguishedName
import DirectoryQuery.Entry.Basic
import DirectoryQuery.Filter.Basic

/-!
# Splitting filters

A filter whose conditions are evaluated in different places is split into a part for each place,
so that the filter holds exactly when all parts hold.  Conjunctions fall apart into their parts.
Disjunctions and negations do not: one that holds anything but pushed conditions is kept back as a
whole.

Equality conditions on the entry's own name are pinned: they name the entry to fetch instead of
filtering what was fetched.  `Pin.resolve` reconciles several of them.
-/

namespace DirectoryQuery

/-- Where a condition is evaluated. -/
inductive Placement where
  /-- By whoever provides the entries. -/
  | pushed
  /-- On the entries that were provided. -/
  | kept
  /-- By fetching one entry by its name. -/
  | pinned
deriving DecidableEq

/-- The parts of a filter by the place of their evaluation. -/
structure Split where
  pushed : Option Filter
  kept : Option Filter
  pinned : List Condition

namespace Split

/-- Whether nothing is kept back and nothing pinned. -/
def isPushedOnly (s : Split) : Bool :=
  s.kept.isNone && s.pinned.isEmpty

/-- The split of a conjunction from the splits of its parts. -/
def join (parts : List Split) : Split where
  pushed := Filter.conjunction? (parts.filterMap (·.pushed))
  kept := Filter.conjunction? (parts.filterMap (·.kept))
  pinned := parts.flatMap (·.pinned)

/-- A filter that is pushed or kept back as a whole. -/
def whole (f : Filter) (isPushed : Bool) : Split :=
  if isPushed then ⟨some f, none, []⟩ else ⟨none, some f, []⟩

end Split

namespace Filter

mutual

/-- Splits a filter by the placement of its conditions. -/
def split (place : Condition → Placement) : Filter → Split
  | .leaf c =>
    match place c with
    | .pushed => ⟨some (.leaf c), none, []⟩
    | .kept => ⟨none, some (.leaf c), []⟩
    | .pinned => ⟨none, none, [c]⟩
  | .all parts => .join (splitEach place parts)
  | .any parts => .whole (.any parts) ((splitEach place parts).all Split.isPushedOnly)
  | .not part => .whole (.not part) (part.split place).isPushedOnly

/-- Splits several filters. -/
def splitEach (place : Condition → Placement) : List Filter → List Split
  | [] => []
  | f :: rest => f.split place :: splitEach place rest

end

theorem splitEach_eq (place : Condition → Placement) (fs : List Filter) :
    splitEach place fs = fs.map (split place) := by
  induction fs with
  | nil => rfl
  | cons f fs ih => simp [splitEach, ih]

end Filter

/-- The placement of a condition in a query to a directory.  Comparisons are kept back, since no
directory filter has them, and so are conditions on the entry's own name other than equality with a
text, which is pinned.  A condition with an unknown lookup is pushed, where compiling it reports
the error. -/
def directoryPlacement (c : Condition) : Placement :=
  let lookup := Lookup.ofName? c.lookupName
  if isIdentity c.field then
    match lookup, c.operand with
    | some .exact, .one (.text _) => .pinned
    | _, _ => .kept
  else if lookup.any Lookup.isComparison then .kept
  else .pushed

/-- The placement of a condition below a stage that computes some attributes itself. -/
def computedPlacement (names : List String) (c : Condition) : Placement :=
  if names.any fun name => Text.sameName name c.field then .kept else .pushed

/-- Splits a filter for a query to a directory. -/
def Filter.splitForDirectory (f : Filter) : Split :=
  f.split directoryPlacement

/-- Splits a filter for a stage that computes the named attributes itself. -/
def Filter.splitByNames (f : Filter) (names : List String) : Split :=
  f.split (computedPlacement names)

/-- What several pinned conditions amount to. -/
inductive Pin where
  /-- There is no pinned condition. -/
  | unpinned
  /-- They name one entry.  `checks` holds the conditions that the further spellings leave. -/
  | entry (dn : String) (checks : Option Filter)
  /-- They name different entries, so nothing can match. -/
  | conflict

namespace Pin

/-- The condition that the entry's name is that of a further spelling. -/
def check (dn : String) : Filter :=
  .leaf ⟨identityAttribute, some Lookup.iexact.name, .one (.text dn)⟩

/-- Reconciles pinned conditions. -/
def resolve (pinned : List Condition) : Pin :=
  match pinned.filterMap fun c => c.operand.single?.bind Value.asText? with
  | [] => .unpinned
  | first :: others =>
    if others.all fun other => DistinguishedName.same first other then
      .entry first (Filter.conjunction? (others.map check))
    else .conflict

end Pin

end DirectoryQuery
