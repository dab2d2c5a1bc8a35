import CatalogSync.Http.Message
import CatalogSync.Storage.Backend
import CatalogSync.Storage.Wire
/-!
# The storage service

What the service does with a request, as procedures over the backend, the importer and one lock.
A write is compared with the stored record and carried out under the lock; so are the removal of
all records outside a key set and the removal of one record. A write that is older than the stored
record is ignored. The importer is told about a record once it has been stored, and until it has
been told successfully every accepted write tries again.
-/

namespace CatalogSync.Storage

namespace Service

/-! ## §1 Calls -/

inductive Call where
  | acquire
  | release
  | storage (c : Backend.Call)
  -- Tell the importer that a record is there.
  | imported (key : ImportKey)
  -- Tell the importer that a record is gone.
  | removed (key : ImportKey)

abbrev Call.Answer : Call → Type
  | .acquire => Unit
  | .release => Unit
  | .storage c => Except Fault c.Result
  | .imported _ => Except Fault Unit
  | .removed _ => Except Fault Unit

abbrev interface : Interface := ⟨Call, Call.Answer⟩

/-- A refused request: a status and a text. -/
structure Rejection where
  status : Nat
  text : String
  deriving DecidableEq, Repr

/-- The refusal that a fault leads to. -/
def Rejection.ofFault (f : Fault) : Rejection :=
  match f with
  | .validation _ _ => ⟨400, f.message⟩
  | _ => if f.isNotFound then ⟨404, f.message⟩ else ⟨500, f.message⟩

/-- A procedure of the service, which may refuse the request. -/
abbrev Action (α : Type) := ExceptT Rejection (Proc interface) α

def reject {α : Type} (status : Nat) (text : String) : Action α := throw ⟨status, text⟩

/-- Go on with a result, or refuse the request. -/
def accept {α : Type} (r : Except Fault α) : Action α := liftExcept (r.mapError Rejection.ofFault)
where
  /-- A result that is already there. -/
  liftExcept (r : Except Rejection α) : Action α := ExceptT.mk (.done r)

def storage (c : Backend.Call) : Action c.Result :=
  ExceptT.mk (.call (.storage c) fun r => .done (r.mapError Rejection.ofFault))

/-- Call the backend; a failure is noted and goes no further. -/
def tryStorage (c : Backend.Call) : Action Unit :=
  ExceptT.mk (.call (.storage c) fun _ => .done (.ok ()))

/-- Tell the importer that a record is there, and say whether that succeeded. -/
def tellImported (key : ImportKey) : Action Bool :=
  ExceptT.mk (.call (.imported key) fun (r : Except Fault Unit) => .done (.ok r.toBool))

/-- Tell the importer that a record is gone; a failure is noted and goes no further. -/
def tellRemoved (key : ImportKey) : Action Unit :=
  ExceptT.mk (.call (.removed key) fun _ => .done (.ok ()))

/-- Carry out an action under the lock, which is given back however the action ends. -/
def locked {α : Type} (a : Action α) : Action α :=
  ExceptT.mk (.call .acquire fun _ => a.run.bind fun r => .call .release fun _ => .done r)

/-! ## §2 Requests -/

inductive Request where
  | upsert (key type : Option String) (body : PostBody)
  -- Remove every record outside a key set.
  | keySet (keys : Option String)
  | list
  | fetch (key : Option String)
  | card (key : Option String)
  | remove (key : Option String)

inductive Reply where
  | written (key : ImportKey) (outcome : WriteOutcome)
  | pruned (keys : List ImportKey)
  | keys (keys : List ImportKey)
  | document (contentType : String) (body : Bytes)
  | card (text : String)
  | removed
  deriving DecidableEq, Repr

/-- What is said when a key is missing. -/
def missingKey : String := "need a 'key' parameter"

/-- The key that a parameter gives. -/
def requiredKey (parameter : Option String) : Action ImportKey :=
  match parameter.bind Text.trimmed? with
  | none => reject 400 missingKey
  | some raw => accept (ImportKey.read raw)

/-! ## §3 Writing -/

/-- The record that a write makes of its body. -/
def recordOf (body : PostBody) (marker : Nat) (provenance : Provenance) (imported : Bool) :
    StoredRecord where
  body := body.body
  lastUpdate := marker
  provenance := provenance
  modelCard := Text.nonEmpty? body.modelCard
  imported := imported

/-- Tell the importer about a record, and note it in the record when that succeeded. -/
def announce (key : ImportKey) (record : StoredRecord) : Action Unit := do
  if ← tellImported key then tryStorage (.put key { record with imported := true })

/-- Store a record unless a newer one is there. -/
def write (key : ImportKey) (body : PostBody) (marker : Nat) (provenance : Provenance) :
    Action WriteOutcome := do
  match ← storage (.get key) with
  | none =>
    let record := recordOf body marker provenance false
    storage (.put key record)
    announce key record
    return .created
  | some stored =>
    -- A write that is as old as the record replaces it.
    if marker < stored.lastUpdate then return .ignored
    else
      let record := recordOf body marker provenance stored.imported
      storage (.put key record)
      -- The importer has not been told yet, or could not be told.
      if stored.imported = false then announce key record
      return .updated

def upsert (key type : Option String) (body : PostBody) : Action Reply := do
  let key ← requiredKey key
  let marker ← accept body.marker
  -- A card travels with the record that it belongs to.
  if body.modelCardKey ≠ "" ∧ body.modelCardKey ≠ key.text then
    reject 400
      ("modelCardKey '" ++ body.modelCardKey ++ "' does not match key '" ++ key.text ++ "'")
  let outcome ← locked (write key body marker (Provenance.ofParameter type))
  return .written key outcome

/-! ## §4 Removing -/

/-- Remove records one after another and tell the importer about each; the keys that had no record
any more are left out of the result. -/
def prune : List ImportKey → Action (List ImportKey)
  | [] => return []
  | key :: rest => do
    if ← storage (.remove key) then
      tellRemoved key
      return key :: (← prune rest)
    -- The record was gone already.
    else prune rest

/-- Remove every record whose key is not in the set. -/
def keep (keys : SortedSet ImportKey) : Action (List ImportKey) := do
  let stored ← storage .list
  prune (stored.filter fun key => !keys.contains key)

def keySet (parameter : Option String) : Action Reply := do
  match parameter with
  | none => reject 400 missingKey
  | some raw =>
    -- One bad key refuses the whole set, because what is missing from the set is removed.
    let keys ← accept (KeySet.parse raw)
    return .pruned (← locked (keep (.ofList keys)))

/-- What is said when there is no record. -/
def noRecord (key : ImportKey) : String := "no record for key '" ++ key.text ++ "'"

def remove (parameter : Option String) : Action Reply := do
  let key ← requiredKey parameter
  locked do
    if ← storage (.remove key) then tellRemoved key
    else reject 404 (noRecord key)
  return .removed

/-! ## §5 Reading -/

/-- The record under a key. -/
def stored (key : ImportKey) : Action StoredRecord := do
  match ← storage (.get key) with
  | some record => return record
  | none => reject 404 (noRecord key)

def fetch (parameter : Option String) : Action Reply := do
  let record ← stored (← requiredKey parameter)
  return .document record.contentType record.body

def card (parameter : Option String) : Action Reply := do
  let key ← requiredKey parameter
  match (← stored key).modelCard with
  | some text => return .card text
  | none => reject 404 ("no model card for key '" ++ key.text ++ "'")

/-! ## §6 The service -/

def perform : Request → Action Reply
  | .upsert key type body => upsert key type body
  | .keySet keys => keySet keys
  | .list => do return .keys (← storage .list)
  | .fetch key => fetch key
  | .card key => card key
  | .remove key => remove key

/-- The answer to a request. -/
def answer (r : Request) : Proc interface (Except Rejection Reply) := (perform r).run

end Service

end CatalogSync.Storage
