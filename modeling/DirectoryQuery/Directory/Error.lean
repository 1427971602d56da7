/-!
# Directory errors

The errors of a directory and of the pool in front of it, and what each says about the session it
came from.  An entry that is not there says nothing about the session; after every other error the
session may be in a bad state and is not used again.
-/

namespace DirectoryQuery

/-- An error of a directory or of the pool in front of it. -/
inductive DirectoryError where
  | connection (why : String)
  | authentication (why : String)
  | noServerAvailable (tried : Nat)
  | noSuchObject (name : String)
  | objectAlreadyExists (name : String)
  | permissionDenied (why : String)
  | schemaViolation (why : String)
  | operationNotAllowed (why : String)
  | protocol (why : String)
  | invalidConfig (why : String)
deriving DecidableEq

/-- Whether an error arose on the way to a directory or in it. -/
inductive ErrorCategory where
  | connection
  | operation
deriving DecidableEq

/-- What happens to a session when its user is done with it. -/
inductive Disposition where
  | release
  | evict
deriving DecidableEq

namespace DirectoryError

/-- The text of the error. -/
def message : DirectoryError → String
  | .connection why => "connection error: " ++ why
  | .authentication why => "authentication failed: " ++ why
  | .noServerAvailable tried =>
    "no directory server available (" ++ toString tried ++ " tried)"
  | .noSuchObject name => "no such object: " ++ name
  | .objectAlreadyExists name => "object already exists: " ++ name
  | .permissionDenied why => "permission denied: " ++ why
  | .schemaViolation why => "schema violation: " ++ why
  | .operationNotAllowed why => "operation not allowed: " ++ why
  | .protocol why => "protocol error: " ++ why
  | .invalidConfig why => "invalid configuration: " ++ why

/-- The category of the error. -/
def category : DirectoryError → ErrorCategory
  | .connection _ | .authentication _ | .noServerAvailable _ | .invalidConfig _ => .connection
  | _ => .operation

/-- Whether the error says nothing about the health of the session. -/
def isAcceptable : DirectoryError → Bool
  | .noSuchObject _ => true
  | _ => false

end DirectoryError

/-- What happens to a session after an operation, given its error if it failed. -/
def Disposition.after : Option DirectoryError → Disposition
  | some e => if e.isAcceptable then .release else .evict
  | none => .release

theorem Disposition.after_eq_evict_iff {error : Option DirectoryError} :
    Disposition.after error = .evict ↔ ∃ e, error = some e ∧ e.isAcceptable = false := by
  cases error with
  | none => simp [Disposition.after]
  | some e => cases h : e.isAcceptable <;> simp [Disposition.after, h]

end DirectoryQuery
