import DirectoryQuery.Directory.Error
import DirectoryQuery.Directory.Search
import DirectoryQuery.Json
import DirectoryQuery.SortedMap
import DirectoryQuery.Text.Blank
import DirectoryQuery.Text.Decimal
import DirectoryQuery.Text.Quoted
import DirectoryQuery.Text.Split

/-!
# Pool configuration

Where a pool binds its sessions, as whom, and how many it keeps.  Without further settings a pool
reads from replicas too, keeps five idle sessions and asks for a hundred entries a page.

A configuration is written as JSON without its password, and read from JSON or from environment
variables.  A variable that cannot be read leaves its setting as it was.
-/

namespace DirectoryQuery

/-- Whether sessions may be bound to replicas. -/
inductive AccessMode where
  /-- To the primary server first and then to the replicas. -/
  | readOnly
  /-- To the primary server only. -/
  | readWrite
deriving DecidableEq

namespace AccessMode

/-- The name of the mode. -/
def name : AccessMode → String
  | .readOnly => "read_only"
  | .readWrite => "read_write"

/-- The modes by name. -/
def choices : List (String × AccessMode) :=
  [.readOnly, .readWrite].map fun mode => (mode.name, mode)

/-- The mode as it is listed. -/
def describe : AccessMode → String
  | .readOnly => "ReadOnly"
  | .readWrite => "ReadWrite"

end AccessMode

/-- The settings of a pool. -/
structure PoolConfig where
  primary : String
  replicas : List String
  /-- The name to bind as; blank for an anonymous bind. -/
  bindName : String
  password : String
  mode : AccessMode
  /-- The most idle sessions that are kept. -/
  maxIdle : Nat
  /-- The number of entries on a page; zero asks for all of them at once. -/
  pageSize : Nat
deriving DecidableEq

namespace PoolConfig

/-- The settings of a pool for one server. -/
def ofPrimary (primary : String) : PoolConfig where
  primary := primary
  replicas := []
  bindName := ""
  password := ""
  mode := .readOnly
  maxIdle := 5
  pageSize := 100

/-- The settings where nothing is set. -/
def default : PoolConfig :=
  ofPrimary ""

/-- The error of settings that no pool can use. -/
def fault? (c : PoolConfig) : Option DirectoryError :=
  if Text.trim c.primary = "" then some (.invalidConfig "primary server address is empty")
  else none

/-- The servers to try in order when the replicas are taken in the given order. -/
def candidatesIn (c : PoolConfig) (replicas : List String) : List String :=
  match c.mode with
  | .readOnly => c.primary :: replicas
  | .readWrite => [c.primary]

/-- The servers to try, the replicas in the order of the settings. -/
def candidates (c : PoolConfig) : List String :=
  c.candidatesIn c.replicas

/-- The parts of a list that is separated by commas, blank ones left out. -/
def readList (s : List Char) : List String :=
  ((Text.splitAtEach ',' s).map fun part => String.ofList (Text.trimChars part)).filter (· != "")

/-- Takes over one variable. -/
def setVariable (c : PoolConfig) (variableName value : String) : PoolConfig :=
  let chars := Text.trimChars value.toList
  let value := String.ofList chars
  match variableName with
  | "DIRQUERY_PRIMARY" => { c with primary := value }
  | "DIRQUERY_REPLICAS" => { c with replicas := readList chars }
  | "DIRQUERY_BIND_DN" => { c with bindName := value }
  | "DIRQUERY_BIND_PASSWORD" => { c with password := value }
  | "DIRQUERY_MODE" =>
    match AccessMode.choices.find? fun p => p.1 == value with
    | some (_, mode) => { c with mode }
    | none => c
  | "DIRQUERY_MAX_IDLE" => { c with maxIdle := (Text.readNat? Text.maxSize chars).getD c.maxIdle }
  | "DIRQUERY_PAGE_SIZE" =>
    { c with pageSize := (Text.readNat? Text.maxSize chars).getD c.pageSize }
  | _ => c

/-- Takes over variables in order. -/
def ofVariables (assignments : List (String × String)) : PoolConfig :=
  assignments.foldl (fun c v => c.setVariable v.1 v.2) default

/-- Takes over an environment, in which a variable has the value that was set last. -/
def ofEnvironment (assignments : List (String × String)) : PoolConfig :=
  ofVariables (SortedMap.ofPairs assignments).pairs

/-- The JSON form of the settings, without the password. -/
def toJson (c : PoolConfig) : Json :=
  .object
    [("primary", .text c.primary),
     ("replicas", .list (c.replicas.map .text)),
     ("bind_dn", .text c.bindName),
     ("mode", .text c.mode.name),
     ("max_idle", .integer c.maxIdle),
     ("page_size", .integer c.pageSize)]

/-- Reads a setting that may be left out. -/
def settingOfJson? {α : Type} (read : Json → Option α) (unset : α) : Option Json → Option α
  | none => some unset
  | some j => read j

/-- Reads settings.  Each of them may be left out. -/
def ofJson? (j : Json) : Option PoolConfig := do
  match ← j.fieldsOf?
      ["primary", "replicas", "bind_dn", "password", "mode", "max_idle", "page_size"] with
  | [primary, replicas, bindName, password, mode, maxIdle, pageSize] =>
    let primary ← settingOfJson? Json.text? default.primary primary
    let replicas ← settingOfJson? (fun j => j.list?.bind (·.mapM Json.text?)) default.replicas
      replicas
    let bindName ← settingOfJson? Json.text? default.bindName bindName
    let password ← settingOfJson? Json.text? default.password password
    let mode ← settingOfJson? (Json.choice? AccessMode.choices) default.mode mode
    let maxIdle ← settingOfJson? (Json.nat? Text.maxSize) default.maxIdle maxIdle
    let pageSize ← settingOfJson? (Json.nat? Text.maxSize) default.pageSize pageSize
    some ⟨primary, replicas, bindName, password, mode, maxIdle, pageSize⟩
  | _ => none

/-- The settings as they are listed. -/
def describe (c : PoolConfig) : String :=
  "PoolConfig \x7b primary: " ++ Text.quoted c.primary ++
    ", replicas: " ++ Text.quotedList c.replicas ++
    ", bind_dn: " ++ Text.quoted c.bindName ++
    ", password: " ++ Text.quoted c.password ++
    ", mode: " ++ c.mode.describe ++
    ", max_idle: " ++ toString c.maxIdle ++
    ", page_size: " ++ toString c.pageSize ++ " \x7d"

end PoolConfig

end DirectoryQuery
