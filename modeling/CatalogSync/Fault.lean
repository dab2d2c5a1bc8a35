/-!
# Faults

What can go wrong in the bridge, by the part that failed. A fault says what was being worked on and
why that failed; it may be worth another attempt (`Fault.retryable`), and a fault of a remote peer
carries the status that the peer answered, when it answered.
-/

namespace CatalogSync

/-- A failure of an operation. -/
inductive Fault where
  -- The cluster's interface refused a call with a status, or could not be understood.
  | cluster (status : Option Nat)
  -- Input that cannot succeed unless its author changes it.
  | validation (subject reason : String)
  -- A registry endpoint failed.
  | registry (endpoint reason : String) (status : Option Nat)
  -- The storage tier failed for a key.
  | storage (key reason : String) (status : Option Nat)
  -- A document could not be read or written.
  | serialization (reason : String)
  -- The settings are unusable.
  | configuration (reason : String)
  -- The operation was cancelled before it finished.
  | cancelled (operation : String)
  -- The bridge itself failed.
  | internal (context reason : String)
  deriving DecidableEq, Repr

namespace Fault

/-- The subject or context of a fault that has none. -/
def unknownContext : String := "unknown"

def clusterReason : Option Nat → String
  | some code => s!"status {code}"
  | none => "malformed answer"

def message : Fault → String
  | cluster status => "kubernetes error: " ++ clusterReason status
  | validation subject reason => "validation error for " ++ subject ++ ": " ++ reason
  | registry endpoint reason _ => "registry error [" ++ endpoint ++ "]: " ++ reason
  | storage key reason _ => "storage error for " ++ key ++ ": " ++ reason
  | serialization reason => "serialization error: " ++ reason
  | configuration reason => "configuration error: " ++ reason
  | cancelled operation => "cancelled: " ++ operation
  | internal context reason => "internal error [" ++ context ++ "]: " ++ reason

/-- Whether a status blames the caller. -/
def blamesCaller : Option Nat → Bool
  | some code => 400 ≤ code && code < 500
  | none => false

/-- Whether another attempt may succeed. A remote peer may recover unless it blamed the caller. -/
def retryable : Fault → Bool
  | cluster status => !blamesCaller status
  | registry _ _ status => !blamesCaller status
  | storage _ _ status => !blamesCaller status
  | internal _ _ => true
  | validation _ _ => false
  | serialization _ => false
  | configuration _ => false
  | cancelled _ => false

def status : Fault → Option Nat
  | cluster status => status
  | registry _ _ status => status
  | storage _ _ status => status
  | _ => none

/-- Whether the cluster answered that the object does not exist. -/
def isNotFound : Fault → Bool
  | cluster (some 404) => true
  | _ => false

end Fault

end CatalogSync
