import DirectoryQuery.Query.Derivation
import DirectoryQuery.Query.Evaluate

/-!
# Commands

What can be asked of a workbench, and what it answers.  Queries, results, aggregations, sessions and
leases are referred to by name, each kind under names of its own.  Filters and entries come as they
were built or with the reason why they could not be built, so that a command can name something that
is not there and carry a bad filter, and the first of the two is reported.
-/

namespace DirectoryQuery

/-- Why a command failed. -/
inductive CommandError where
  /-- There is nothing under a name that the command uses. -/
  | unknownName
  /-- The entry to add is none. -/
  | entry (fault : EntryFault)
  | query (e : QueryError)
deriving DecidableEq

/-- Commands to the directory. -/
inductive DirectoryCommand where
  | add (entry : Except EntryFault Entry)
  | requireCredentials (identity secret : String)
  | setDown (server : String) (isDown : Bool)
  | failNextSearch (e : DirectoryError)
  | failNextAbandon (e : DirectoryError)
  /-- Tells the servers of all attempts to bind. -/
  | attempts
  /-- Lists the directory. -/
  | describe

/-- Commands to the pool and on sessions. -/
inductive SessionCommand where
  /-- Binds a session without the pool. -/
  | bind (name server identity secret : String)
  | acquire (name : String)
  | release (name : String)
  | evict (name : String)
  | closeAll
  /-- Closes a session that stays at hand. -/
  | close (name : String)
  | page (name : String) (request : SearchRequest) (cookie : Option Cookie)
  | abandon (name : String) (cookie : Cookie)
  /-- Runs a search and then a failure on a session of its own, either of them if given. -/
  | withSession (request : Option SearchRequest) (failure : Option QueryError)
  /-- Lists the pool. -/
  | describe

/-- Commands on leases. -/
inductive LeaseCommand where
  | checkOut (name : String)
  | settle (name : String) (error : Option DirectoryError)
  | markForEviction (name : String)
  /-- Gives a session back by what is to happen to it. -/
  | giveBack (name : String)
  /-- Gives a session back and has it discarded. -/
  | discard (name : String)
  /-- Gives a session back as `giveBack` does, and tells that there was one. -/
  | drop (name : String)

/-- Commands that make queries and put them under a name. -/
inductive ComposeCommand where
  /-- A search, one level below its base unless a scope is given. -/
  | search (base : String) (scope : Option Scope)
  | empty
  | derive (source : String) (how : Derivation)

/-- Commands that evaluate a query. -/
inductive EvaluateCommand where
  /-- Tells all entries. -/
  | fetch
  /-- Tells the names of all entries. -/
  | names
  /-- Tells the names of all entries, found one by one. -/
  | collect
  | one
  | entryAt (index : Nat)
  | count
  | isEmpty
  | explain
  /-- Lists the query. -/
  | describe
  /-- Keeps the results at hand under a name, to be asked for one by one. -/
  | results (name : String)
  /-- Lets the aggregations under a name take in the result. -/
  | aggregate (name : String)

/-- Commands on results and aggregations. -/
inductive ResultCommand where
  /-- Asks for so many further entries. -/
  | next (name : String) (count : Nat)
  /-- Ends results early. -/
  | drop (name : String)
  | aggregations (name : String) (members : List (String × Aggregation))
  /-- Tells the results of aggregations, and the one under a further name. -/
  | aggregated (name : String) (member : Option String)

/-- A command to a workbench. -/
inductive Command where
  | directory (c : DirectoryCommand)
  | session (c : SessionCommand)
  | lease (c : LeaseCommand)
  | compose (name : String) (c : ComposeCommand)
  | evaluate (name : String) (c : EvaluateCommand)
  | result (c : ResultCommand)

/-- What is told of a query without evaluating it. -/
structure QueryOverview where
  plan : String
  isCached : Bool
  isKnownEmpty : Bool
  isRefetch : Bool

/-- The answer to a command. -/
inductive Answer where
  /-- There is nothing to tell. -/
  | done
  | truth (b : Bool)
  | number (n : Nat)
  | text (s : String)
  | names (names : List String)
  | entry (e : Option Entry)
  | entries (es : List Entry)
  | page (p : Page)
  /-- Entries and errors as they come, `none` at the end. -/
  | deliveries (ds : List (Option (Except QueryError Entry)))
  | overview (o : QueryOverview)
  /-- The number of aggregations and whether it is zero. -/
  | extent (size : Nat) (isEmpty : Bool)
  | results (rs : List (String × Option Value))
  /-- All results, one of them, and their listing. -/
  | aggregated (rs : List (String × Option Value)) (member : Option Value) (listing : String)

end DirectoryQuery
