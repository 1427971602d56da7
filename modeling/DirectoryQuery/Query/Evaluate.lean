import DirectoryQuery.Query.Aggregation
import DirectoryQuery.Query.Stream

/-!
# Evaluating queries

A `Workspace` is all that the evaluation of queries can change: the directory and its pool, and the
results that query instances keep.  `Results` is a stream whose entries may be recorded on the way;
when it ends without an error, the record becomes the kept result of its query.

Evaluations run a stream for at most as many steps as its budget says, which is enough to reach the
end, and close what they leave unread.
-/

namespace DirectoryQuery

/-- All that the evaluation of queries can change. -/
structure Workspace where
  service : Service
  snapshots : Snapshots

/-- The record of an evaluation: the query instance it is for, the entries so far, the last one in
front, and whether there was an error. -/
structure Recorder where
  id : Nat
  seen : List Entry
  failed : Bool

/-- The results of a query, to be asked for one by one. -/
structure Results where
  stream : Stream
  recorder : Option Recorder

namespace Query

/-- Whether the query has kept its result. -/
def isCached (snapshots : Snapshots) (q : Query) : Bool :=
  q.tag?.any fun tag => (snapshots.get? tag.id).isSome

/-- The result that the query has kept. -/
def cached? (snapshots : Snapshots) (q : Query) : Option (List Entry) :=
  q.tag?.bind fun tag => snapshots.get? tag.id

/-- The recorder of an evaluation of the query, if its result is to be kept and is not yet. -/
def recorder? (snapshots : Snapshots) (q : Query) : Option Recorder :=
  match q.tag? with
  | none => none
  | some tag =>
    if tag.options.cache = .snapshot ∧ snapshots.get? tag.id = none then some ⟨tag.id, [], false⟩
    else none

/-- Starts an evaluation. -/
def results (snapshots : Snapshots) (q : Query) : Results :=
  ⟨q.stream snapshots, q.recorder? snapshots⟩

end Query

namespace Results

/-- Whether the results are being recorded. -/
def isRecording (r : Results) : Bool :=
  r.recorder.isSome

/-- Results as they are listed. -/
def describe (r : Results) : String :=
  "Records \x7b recording: " ++ (if r.isRecording then "true" else "false") ++ " \x7d"

/-- Takes note of an event.  The end of the results closes the record, and keeps it if there was no
error. -/
def record (recorder : Option Recorder) (event : StreamEvent) (snapshots : Snapshots) :
    Option Recorder × Snapshots :=
  match recorder with
  | none => (none, snapshots)
  | some r =>
    match event with
    | .item e => (some { r with seen := e :: r.seen }, snapshots)
    | .fault _ => (some { r with failed := true }, snapshots)
    | .pause => (some r, snapshots)
    | .finish => (none, if r.failed then snapshots else snapshots.keep r.id r.seen.reverse)

/-- Takes results one step further. -/
def step (r : Results) (w : Workspace) : StreamEvent × Results × Workspace :=
  let (event, stream, service) := r.stream.step w.snapshots w.service
  let (recorder, snapshots) := record r.recorder event w.snapshots
  (event, ⟨stream, recorder⟩, ⟨service, snapshots⟩)

/-- A bound on the number of steps to the end. -/
def budget (r : Results) (w : Workspace) : Nat :=
  r.stream.budget w.snapshots w.service.directory.entries.length

/-- Ends results before they are through. -/
def close (r : Results) (w : Workspace) : Workspace :=
  { w with service := r.stream.close w.service }

/-- Goes on until an entry or an error is delivered or nothing is left, for a number of steps. -/
def nextWithin : Nat → Results → Workspace →
    Option (Except QueryError Entry) × Results × Workspace
  | 0, r, w => (none, r, w)
  | steps + 1, r, w =>
    match r.step w with
    | (.item e, r, w) => (some (.ok e), r, w)
    | (.fault e, r, w) => (some (.error e), r, w)
    | (.finish, r, w) => (none, r, w)
    | (.pause, r, w) => nextWithin steps r w

/-- The next entry or error, none at the end. -/
def next (r : Results) (w : Workspace) : Option (Except QueryError Entry) × Results × Workspace :=
  nextWithin (r.budget w) r w

/-- Takes in entries up to the end or the first error, for a number of steps. -/
def foldWithin {β : Type} (f : β → Entry → β) : Nat → β → Results → Workspace →
    β × Option QueryError × Workspace
  | 0, acc, r, w => (acc, none, r.close w)
  | steps + 1, acc, r, w =>
    match r.step w with
    | (.item e, r, w) => foldWithin f steps (f acc e) r w
    | (.fault e, r, w) => (acc, some e, r.close w)
    | (.finish, r, w) => (acc, none, r.close w)
    | (.pause, r, w) => foldWithin f steps acc r w

/-- Takes in all entries.  The first error ends it. -/
def fold {β : Type} (f : β → Entry → β) (init : β) (r : Results) (w : Workspace) :
    β × Option QueryError × Workspace :=
  foldWithin f (r.budget w) init r w

/-- All entries in order, or the first error. -/
def toList (r : Results) (w : Workspace) : Except QueryError (List Entry) × Workspace :=
  match r.fold (fun acc e => e :: acc) [] w with
  | (acc, none, w) => (.ok acc.reverse, w)
  | (_, some e, w) => (.error e, w)

/-- The first entry, if there is any.  The rest is not asked for. -/
def first (r : Results) (w : Workspace) : Except QueryError (Option Entry) × Workspace :=
  match r.next w with
  | (none, r, w) => (.ok none, r.close w)
  | (some (.ok e), r, w) => (.ok (some e), r.close w)
  | (some (.error e), r, w) => (.error e, r.close w)

end Results

namespace Query

/-- All entries of the result. -/
def fetch (q : Query) (w : Workspace) : Except QueryError (List Entry) × Workspace :=
  match q.cached? w.snapshots with
  | some entries => (.ok entries, w)
  | none => (q.results w.snapshots).toList w

/-- The first entry of the result. -/
def one (q : Query) (w : Workspace) : Except QueryError (Option Entry) × Workspace :=
  (q.results w.snapshots).first w

/-- The entry at a position of the result. -/
def get (q : Query) (index : Nat) (w : Workspace) : Except QueryError (Option Entry) × Workspace :=
  match q.cached? w.snapshots with
  | some entries => (.ok entries[index]?, w)
  | none =>
    let stream := Stream.sliced (.single index) 0 (q.stream w.snapshots)
    Results.first ⟨stream, none⟩ w

/-- The number of entries of the result. -/
def count (q : Query) (w : Workspace) : Except QueryError Nat × Workspace :=
  match q.cached? w.snapshots with
  | some entries => (.ok entries.length, w)
  | none =>
    match (q.results w.snapshots).fold (fun n _ => n + 1) 0 w with
    | (n, none, w) => (.ok n, w)
    | (_, some e, w) => (.error e, w)

/-- Whether the result has no entries. -/
def isEmpty (q : Query) (w : Workspace) : Except QueryError Bool × Workspace :=
  if q.isKnownEmpty then (.ok true, w)
  else
    match q.count w with
    | (.ok n, w) => (.ok (n == 0), w)
    | (.error e, w) => (.error e, w)

/-- Lets aggregations take in the result afresh.  After an error they hold what came before it. -/
def aggregate (q : Query) (as : Aggregations) (w : Workspace) :
    Aggregations × Option QueryError × Workspace :=
  (q.results w.snapshots).fold Aggregations.accumulate as.reset w

end Query

end DirectoryQuery
