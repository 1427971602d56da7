import DirectoryQuery.Directory.Basic

/-!
# Sessions

A session is an authenticated connection to a directory, used by one holder at a time.  It keeps
the results of every search of which further pages can still be asked for.  The results are fixed
when the first page is asked for, so later changes to the directory do not show on later pages.

Sessions are values: an operation returns the session as it is afterwards, and the holder goes on
with that one.  Each carries the number under which the directory bound it.
-/

namespace DirectoryQuery

/-- An authenticated connection to a directory. -/
structure Session where
  id : Nat
  /-- The results of the searches under way, by the number of the search. -/
  paged : List (Nat × List Entry)
  isOpen : Bool

namespace Directory

/-- Whether the identity and the secret are those that the directory requires. -/
def accepts (d : Directory) (identity secret : String) : Bool :=
  match d.credentials with
  | none => true
  | some (wanted, wantedSecret) =>
    DistinguishedName.same identity wanted && secret == wantedSecret

/-- Binds a new session to a server. -/
def bind (d : Directory) (server identity secret : String) :
    Except DirectoryError Session × Directory :=
  let d := { d with bindAttempts := d.bindAttempts ++ [server] }
  if d.down.contains server then (.error (.connection (server ++ " unreachable")), d)
  else if d.accepts identity secret then
    (.ok ⟨d.sessionsBound, [], true⟩,
      { d with openSessions := d.openSessions + 1, sessionsBound := d.sessionsBound + 1 })
  else
    (.error (.authentication ("invalid credentials for " ++ Text.quoted identity)), d)

end Directory

namespace Session

/-- The error of every operation on a closed session. -/
def closedError : DirectoryError :=
  .connection "connection closed"

/-- The results of a search under way. -/
def results? (s : Session) (search : Nat) : Option (List Entry) :=
  (s.paged.find? fun p => p.1 == search).map (·.2)

/-- Forgets a search. -/
def forget (s : Session) (search : Nat) : Session :=
  { s with paged := s.paged.filter fun p => p.1 != search }

/-- Keeps the results of a search. -/
def remember (s : Session) (search : Nat) (results : List Entry) : Session :=
  { s with paged := (search, results) :: (s.forget search).paged }

/-- The position behind the page that starts at a position. -/
def pageEnd (pageSize total position : Nat) : Nat :=
  if pageSize = 0 then total else min total (position + pageSize)

/-- Hands out the page that starts at a position.  The session forgets the search with its last
page. -/
def deliver (s : Session) (pageSize search : Nat) (results : List Entry) (position : Nat) :
    Page × Session :=
  let next := pageEnd pageSize results.length position
  let entries := (results.take next).drop position
  if next < results.length then (⟨entries, some (.encode search next)⟩, s)
  else (⟨entries, none⟩, s.forget search)

/-- Starts a search and hands out its first page. -/
def firstPage (s : Session) (request : SearchRequest) (d : Directory) :
    Except DirectoryError Page × Session × Directory :=
  match d.search request with
  | (.error e, d) => (.error e, s, d)
  | (.ok results, d) =>
    let search := d.searchesRun + 1
    let (page, s) := (s.remember search results).deliver request.pageSize search results 0
    (.ok page, s, { d with searchesRun := search })

/-- Hands out the page that a cookie asks for. -/
def nextPage (s : Session) (request : SearchRequest) (cookie : Cookie) (d : Directory) :
    Except DirectoryError Page × Session × Directory :=
  match d.searchFailure with
  | some e => (.error e, s, { d with searchFailure := none })
  | none =>
    match cookie.decode? with
    | none => (.error (.protocol "unknown paging cookie"), s, d)
    | some (search, position) =>
      match s.results? search with
      | none => (.error (.protocol "unknown paging cookie"), s, d)
      | some results =>
        let (page, s) := s.deliver request.pageSize search results position
        (.ok page, s, d)

/-- Asks for a page: the first one without a cookie, and the one behind a cookie with it. -/
def page (s : Session) (request : SearchRequest) (cookie : Option Cookie) (d : Directory) :
    Except DirectoryError Page × Session × Directory :=
  if s.isOpen then
    match cookie with
    | none => s.firstPage request d
    | some cookie => s.nextPage request cookie d
  else (.error closedError, s, d)

/-- Abandons the search that a cookie belongs to. -/
def abandon (s : Session) (cookie : Cookie) (d : Directory) :
    Except DirectoryError Unit × Session × Directory :=
  if s.isOpen then
    let s := match cookie.decode? with
      | some (search, _) => s.forget search
      | none => s
    match d.abandonFailure with
    | some e => (.error e, s, { d with abandonFailure := none })
    | none => (.ok (), s, { d with abandoned := d.abandoned + 1 })
  else (.error closedError, s, d)

/-- Closes the session.  Closing it again changes nothing. -/
def close (s : Session) (d : Directory) : Session × Directory :=
  if s.isOpen then
    ({ s with isOpen := false, paged := [] }, { d with openSessions := d.openSessions - 1 })
  else (s, d)

end Session

end DirectoryQuery
