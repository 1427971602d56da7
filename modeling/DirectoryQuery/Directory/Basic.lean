import DirectoryQuery.Directory.Error
import DirectoryQuery.Directory.Search
import DirectoryQuery.SearchFilter.Parser
import DirectoryQuery.Text.Quoted

/-!
# Directories

A directory holds entries in the order in which their names were first added, no two of them under
one name.  It answers searches by evaluating the text of their filters, and it keeps a record of
what was asked of it: every search, every attempt to bind, the sessions that are open and the
searches that were abandoned.  Servers can be down and single operations can be made to fail.
-/

namespace DirectoryQuery

/-- A directory and the record of its use. -/
structure Directory where
  entries : List Entry
  /-- Servers that cannot be reached. -/
  down : List String
  /-- The identity and the secret that a bind has to present, if any. -/
  credentials : Option (String × String)
  /-- The searches that were started, in order. -/
  searches : List SearchRequest
  /-- The servers of all attempts to bind, in order. -/
  bindAttempts : List String
  openSessions : Nat
  abandoned : Nat
  /-- The error of the next request for a page, if it is to fail. -/
  searchFailure : Option DirectoryError
  /-- The error of the next attempt to abandon a search, if it is to fail. -/
  abandonFailure : Option DirectoryError
  /-- The number of searches that got results. -/
  searchesRun : Nat
  /-- The number of sessions that were bound. -/
  sessionsBound : Nat

namespace Directory

/-- A directory without entries. -/
def empty : Directory where
  entries := []
  down := []
  credentials := none
  searches := []
  bindAttempts := []
  openSessions := 0
  abandoned := 0
  searchFailure := none
  abandonFailure := none
  searchesRun := 0
  sessionsBound := 0

/-- Puts an entry in place of the one of the same name, or else behind all others. -/
def place (e : Entry) : List Entry → List Entry
  | [] => [e]
  | other :: rest =>
    if DistinguishedName.same other.dn e.dn then e :: rest else other :: place e rest

/-- Adds an entry, replacing the one of the same name. -/
def add (d : Directory) (e : Entry) : Directory :=
  { d with entries := place e d.entries }

/-- Adds several entries in order. -/
def addAll (d : Directory) (es : List Entry) : Directory :=
  es.foldl add d

/-- Makes binding require this identity and secret. -/
def requireCredentials (d : Directory) (identity secret : String) : Directory :=
  { d with credentials := some (identity, secret) }

/-- Takes a server down or brings it up again. -/
def setDown (d : Directory) (server : String) (isDown : Bool) : Directory :=
  let others := d.down.filter (· != server)
  { d with down := if isDown then server :: others else others }

/-- Makes the next request for a page fail. -/
def failNextSearch (d : Directory) (e : DirectoryError) : Directory :=
  { d with searchFailure := some e }

/-- Makes the next attempt to abandon a search fail. -/
def failNextAbandon (d : Directory) (e : DirectoryError) : Directory :=
  { d with abandonFailure := some e }

/-- Whether the directory has an entry at or below the base.  Entries imply the containers above
them, and the blank base is always there. -/
def hasBase (d : Directory) (base : String) : Bool :=
  base == "" || d.entries.any fun e => DistinguishedName.isWithin e.dn base

/-- The entries that a search with an already read filter finds, in order. -/
def find (d : Directory) (request : SearchRequest) (filter : SearchFilter) : List Entry :=
  d.entries.filter fun e => request.scope.covers request.base e.dn && filter.holds e

/-- Reads the text of a filter. -/
def readFilter (text : String) : Except DirectoryError SearchFilter :=
  (SearchFilter.parse text).mapError fun e => .protocol e.message

/-- Runs a search.  An error set up for it comes first, then a filter that cannot be read, then a
base that is not there. -/
def search (d : Directory) (request : SearchRequest) :
    Except DirectoryError (List Entry) × Directory :=
  let d := { d with searches := d.searches ++ [request] }
  match d.searchFailure with
  | some e => (.error e, { d with searchFailure := none })
  | none =>
    match readFilter request.filter with
    | .error e => (.error e, d)
    | .ok filter =>
      if d.hasBase request.base then (.ok (d.find request filter), d)
      else (.error (.noSuchObject request.base), d)

/-- The directory as it is listed. -/
def describe (d : Directory) : String :=
  "InMemoryDirectory \x7b entries: " ++ toString d.entries.length ++
    ", open_connections: " ++ toString d.openSessions ++ " \x7d"

end Directory

end DirectoryQuery
