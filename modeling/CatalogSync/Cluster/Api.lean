import CatalogSync.Cluster.InferenceService
import CatalogSync.Http.Message
import CatalogSync.Http.Target
/-!
# The cluster's interface

Objects are read at paths. A refusal carries a code and a reason: the object that the cluster
describes the refusal with decides, and where there is none the status of the response counts. An
object that does not exist is told apart by the reason, not by the code.
-/

namespace CatalogSync.Cluster

open Json (Decodable)

/-- Reads at a path; there is no response when the exchange fails on the way. -/
abbrev interface : Interface := ⟨String, fun _ => Option Http.Response⟩

/-! ## §1 Refusals -/

structure Refusal where
  code : Nat
  -- The reason, for programs.
  reason : String
  deriving DecidableEq, Repr

instance : Decodable Refusal :=
  .ofRecord (Json.Outline.plain ["status", "message", "reason", "code"]) fun r => do
    let _status : String ← r.required "status"
    let _message : String ← r.withDefault "message" ""
    let code : Nat ← r.required "code"
    -- A code that is no status makes the whole description unreadable.
    if code < 65536 then return { code, reason := ← r.withDefault "reason" "" }
    else throw (.kind "a number of 16 bits")

/-- The reason of a refusal because an object does not exist. -/
def notFoundReason : String := "NotFound"

/-- The refusal that a response describes. -/
def refusal (r : Http.Response) : Refusal :=
  (r.decode? Refusal).getD ⟨r.status, "Failed to parse error data"⟩

/-! ## §2 Reads -/

/-- What a read brings: an object, a refusal, or nothing that can be understood. -/
inductive Found (α : Type) where
  | object (a : α)
  | refused (r : Refusal)
  -- The answer cannot be understood.
  | unusable

/-- Judge the response to a read. -/
def judge (α : Type) [Decodable α] : Option Http.Response → Found α
  | none => .unusable
  | some r =>
    if Http.Status.isFailure r.status then .refused (refusal r)
    else
      match r.decode? α with
      | some a => .object a
      | none => .unusable

/-- What a read at an address brings. Nothing is asked for at an address that cannot be sent. -/
def read (α : Type) [Decodable α] (address : String) : Proc interface (Found α) :=
  match Http.Target.parse? address with
  | none => .done .unusable
  | some target => .call target.path fun answer => .done (judge α answer)

/-- The objects at an address. -/
def list (α : Type) [Decodable α] (address : String) : Task interface (List α) :=
  .ofProc do
    match ← read (Listing α) address with
    | .object l => return .ok l.items
    | .refused r => return .error (.cluster (some r.code))
    | .unusable => return .error (.cluster none)

/-- The named one of the objects at an address, if it exists; every object has a name. -/
def get? (α : Type) [Decodable α] (address name : String) : Task interface (Option α) :=
  if name.isEmpty then throw (.cluster none)
  else
    .ofProc do
      match ← read α (address ++ "/" ++ name) with
      | .object a => return .ok (some a)
      | .refused r =>
        -- The reason decides, not the code: a path that does not exist has the same one.
        return if r.reason = notFoundReason then .ok none else .error (.cluster (some r.code))
      | .unusable => return .error (.cluster none)

/-! ## §3 Paths -/

def servingPath (ns : String) : String :=
  "/apis/serving.kserve.io/v1beta1/namespaces/" ++ ns ++ "/inferenceservices"

def allServingPath : String := "/apis/serving.kserve.io/v1beta1/inferenceservices"

def servicesPath (ns : String) : String := "/api/v1/namespaces/" ++ ns ++ "/services"

def accountsPath (ns : String) : String := "/api/v1/namespaces/" ++ ns ++ "/serviceaccounts"

def routesPath (ns : String) : String :=
  "/apis/route.openshift.io/v1/namespaces/" ++ ns ++ "/routes"

end CatalogSync.Cluster
