import DirectoryQuery.DistinguishedName
import DirectoryQuery.Entry.Basic
import DirectoryQuery.Filter.Basic
import DirectoryQuery.Text.Occurrence
import DirectoryQuery.Value.Order

/-!
# Matching filters against entries

A filter compiles once into a test on entries.  Compiling reads every lookup and checks every
operand, so a filter that cannot be evaluated fails here and not in the middle of a result.

A condition holds of an entry when some value of the attribute satisfies it.  Text is compared
without regard to case by every lookup, as a directory does, so that a filter selects the same
entries wherever it runs.  Equality on the entry's own name compares names, not texts.
-/

namespace DirectoryQuery

/-- A test on one value. -/
abbrev ValueTest := Value → Bool

/-- Whether the order of a value and an operand is one that a comparison accepts. -/
def ordered (operand : Value) (accepts : Ordering → Bool) : ValueTest :=
  fun v => (v.looseCompare operand).any accepts

namespace Condition

/-- The test for equality with an operand. -/
def equalityTest (field : String) (operand : Value) : ValueTest :=
  match isIdentity field, operand.asText? with
  | true, some wanted =>
    let wanted := DistinguishedName.normalize wanted
    fun v => DistinguishedName.normalize v.toText == wanted
  | _, _ => fun v => v.matchesIgnoringCase operand

/-- A test for a piece of text, both sides folded. -/
def pieceTest (occurs : List Char → List Char → Bool) (operand : Value) : ValueTest :=
  let needle := operand.folded
  fun v => occurs needle v.folded

/-- The test of a lookup that takes one value, if the lookup is one. -/
def singleTest? (lookup : Lookup) (field : String) (operand : Value) : Option ValueTest :=
  match lookup with
  | .exact | .iexact => some (equalityTest field operand)
  | .gt => some (ordered operand (· == .gt))
  | .gte => some (ordered operand (· != .lt))
  | .lt => some (ordered operand (· == .lt))
  | .lte => some (ordered operand (· != .gt))
  | .contains | .icontains | .search => some (pieceTest Text.hasPiece operand)
  | .startsWith | .istartsWith => some (pieceTest Text.beginsWith operand)
  | .endsWith | .iendsWith => some (pieceTest Text.endsWith operand)
  | .present | .isNull | .oneOf => none

/-- Whether some value of the attribute passes the test. -/
def someValue (field : String) (test : ValueTest) (e : Entry) : Bool :=
  (e.get field).any test

/-- Compiles a condition. -/
def compile (c : Condition) : Except FilterError (Entry → Bool) := do
  let lookup ← c.lookupKind
  match lookup with
  | .present =>
    let wanted := c.operand.isTruthy
    pure fun e => e.has c.field == wanted
  | .isNull =>
    let wanted := c.operand.isTruthy
    pure fun e => !e.has c.field == wanted
  | .oneOf =>
    let set := c.operand.values
    if set.isEmpty then throw (.emptyIn c.field)
    else pure (someValue c.field fun v => set.any v.matchesIgnoringCase)
  | _ =>
    match c.operand.single? with
    | none => throw (.unexpectedList c.field lookup.name)
    | some operand =>
      match singleTest? lookup c.field operand with
      | none => throw (.unsupportedLookup lookup.name)
      | some test => pure (someValue c.field test)

end Condition

namespace Filter

mutual

/-- Compiles a filter.  The first condition that cannot be compiled decides the error. -/
def compile : Filter → Except FilterError (Entry → Bool)
  | .leaf c => c.compile
  | .all parts => do
    let tests ← compileEach parts
    pure fun e => tests.all fun test => test e
  | .any parts => do
    let tests ← compileEach parts
    pure fun e => tests.any fun test => test e
  | .not part => do
    let test ← part.compile
    pure fun e => !test e

/-- Compiles several filters. -/
def compileEach : List Filter → Except FilterError (List (Entry → Bool))
  | [] => pure []
  | f :: rest => do
    let test ← f.compile
    let tests ← compileEach rest
    pure (test :: tests)

end

end Filter

/-- A filter together with the test that it compiles to. -/
structure Matcher where
  filter : Filter
  accepts : Entry → Bool

namespace Matcher

/-- The matcher of a filter. -/
def ofFilter (f : Filter) : Except FilterError Matcher := do
  let accepts ← f.compile
  pure ⟨f, accepts⟩

/-- The conjunction of two matchers. -/
def and (a b : Matcher) : Matcher :=
  ⟨a.filter.and b.filter, fun e => a.accepts e && b.accepts e⟩

/-- The matcher as it is listed. -/
def describe (m : Matcher) : String :=
  "LocalPredicate(" ++ Text.quoted m.filter.text ++ ")"

end Matcher

end DirectoryQuery
