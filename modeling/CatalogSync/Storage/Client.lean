import CatalogSync.Effect.Retry
import CatalogSync.Http.Message
import CatalogSync.Storage.Wire
/-!
# The publisher's access to storage

Writes, key sets and listings as exchanges with the storage service. A failure on the way or a
status that does not blame the publisher is worth another attempt, as often as the policy allows.
-/

namespace CatalogSync.Storage

/-! ## §1 Calls -/

namespace Publishing

inductive Call where
  | upsert (key : ImportKey) (provenance : Provenance) (body : PostBody)
  -- Submit the keys of all current records.
  | keySet (keys : List ImportKey)
  | list

abbrev Call.Result : Call → Type
  | .upsert _ _ _ => WriteOutcome
  | .keySet _ => List ImportKey
  | .list => List ImportKey

abbrev interface : Interface := ⟨Call, fun c => Except Fault c.Result⟩

end Publishing

/-! ## §2 The client -/

structure Client where
  -- The base address, without a slash at its end.
  base : String
  -- How often a call is attempted.
  retry : RetryPolicy := .standard
  deriving DecidableEq, Repr

namespace Client

def connect (url : String) (retry : RetryPolicy := .standard) : Client :=
  ⟨Text.trimEndOf '/' url, retry⟩

/-- Make an exchange about a subject and take nothing but success. -/
def exchange (subject what : String) (r : Http.Request) : Task Http.interface Http.Response := do
  match ← Http.send r with
  | none => throw (.storage subject (what ++ " failed") none)
  | some answer =>
    if Http.Status.isSuccess answer.status then return answer
    else
      throw (.storage subject ("storage returned " ++ Http.Status.describe answer.status ++ ": " ++
        Text.trim answer.text) (some answer.status))

/-- Attempt a write once. A service that does not say what became of the write shows it by its
status. -/
def upsertOnce (c : Client) (key : ImportKey) (provenance : Provenance) (body : PostBody) :
    Task Http.interface WriteOutcome := do
  let answer ← exchange key.text "upsert" {
    method := .post
    url := c.base ++ upsertPath
    query := [(keyParameter, key.text), (typeParameter, provenance.name)]
    body := some body.toJson }
  match answer.decode? UpsertResponse with
  | some r => return r.outcome
  | none => return if answer.status = 201 then .created else .updated

def keySetOnce (c : Client) (keys : List ImportKey) : Task Http.interface (List ImportKey) := do
  let answer ← exchange keySetPath "key set submission" {
    method := .post
    url := c.base ++ keySetPath
    query := [(keyParameter, KeySet.join keys)] }
  match answer.decode? KeySetResponse with
  | some r => return r.removed
  | none => throw (.serialization "key set response")

def listOnce (c : Client) : Task Http.interface (List ImportKey) := do
  let answer ← exchange listPath "list" { method := .get, url := c.base ++ listPath }
  match answer.decode? ListResponse with
  | some r => Task.ofExcept (r.keys.mapM ImportKey.read)
  | none => throw (.serialization "list response")

/-- The answer to a call. -/
def reply (c : Client) : (call : Publishing.Call) → Task Http.interface call.Result
  | .upsert key provenance body => (c.upsertOnce key provenance body).retry c.retry
  | .keySet keys => (c.keySetOnce keys).retry c.retry
  | .list => c.listOnce.retry c.retry

end Client

end CatalogSync.Storage
