import CatalogSync.Cluster.Object
import CatalogSync.Http.Target
import CatalogSync.Storage.Backend
/-!
# Records in a configuration map

All records are the entries of one configuration map of the cluster, which is created when it is
missing. A change reads the whole map, changes its own entry and replaces the map; when the map was
changed by others in between, the change is made again on the new map, at most three times in all.
Entries whose names are no keys belong to others and are left alone.
-/

namespace CatalogSync

open Json (Decodable)

/-- A configuration map of the cluster. -/
structure ConfigMap where
  metadata : Cluster.ObjectMeta := {}
  -- The version that the cluster gave the object.
  version : Option String := none
  -- The entries that are texts.
  texts : SortedMap String String := .empty
  -- The entries that are bytes.
  entries : SortedMap String Bytes := .empty
  deriving DecidableEq

namespace ConfigMap

def shape : Cluster.Kind :=
  .core "ConfigMap" [("binaryData", .map .bytes), ("data", .map .text), ("immutable", .flag),
    ("metadata", Cluster.ObjectMeta.shape)]

instance : Decodable ConfigMap where
  outline := shape.outline
  decode v := do
    let r ← shape.read v
    let entries : SortedMap String Storage.Payload ← r.orElse "binaryData" .empty
    let metadata : Json ← r.orElse "metadata" (.obj [])
    let version : Option String ← Json.Record.optional (← Json.object metadata) "resourceVersion"
    return {
      metadata := ← r.orElse "metadata" {}
      version
      texts := ← r.orElse "data" .empty
      entries := entries.mapValues (·.bytes) }

def storageName : String := "bac-import-model"

/-- A map without entries. -/
def fresh : ConfigMap := { metadata := { name := some storageName } }

/-- The names of entries that are keys, in ascending order. -/
def keys (m : ConfigMap) : List ImportKey :=
  m.entries.keys.filterMap fun name => (ImportKey.parse name).toOption

/-! ## §1 Calls to the cluster -/

inductive Call where
  | read
  | create (m : ConfigMap)
  -- Replace the map, provided that it still has the version of the new one.
  | replace (m : ConfigMap)

abbrev Call.Result : Call → Type
  | .read => Option ConfigMap
  | .create _ => ConfigMap
  | .replace _ => Unit

abbrev interface : Interface := ⟨Call, fun c => Except Fault c.Result⟩

def listPath (ns : String) : String := "/api/v1/namespaces/" ++ ns ++ "/configmaps"

def path (ns : String) : String := listPath ns ++ "/" ++ storageName

/-- What a call does. -/
def Call.verb : Call → String
  | .read => "get"
  | .create _ => "create"
  | .replace _ => "replace"

/-- Where a call goes in a namespace, if it can be sent. -/
def Call.path? (ns : String) (c : Call) : Option String :=
  (Http.Target.parse? (match c with
    | .create _ => listPath ns
    | _ => path ns)).map (·.path)

/-- Make a call. -/
def ask (c : Call) : Task interface c.Result := .ofProc (.call c .done)

/-- Whether a call was refused because others were faster. -/
def isConflict (f : Fault) : Bool := f == .cluster (some 409)

/-! ## §2 Reading and changing -/

/-- The map, created when it is missing. Another may create it at the same time. -/
def load : Task interface ConfigMap := do
  match ← ask .read with
  | some m => return m
  | none =>
    match ← (ask (.create fresh)).outcome with
    | .ok m => return m
    | .error f =>
      -- Another has created the map in the meantime.
      if isConflict f then
        match ← ask .read with
        | some m => return m
        | none => throw (.cluster (some 404))
      else throw f

/-- How often a change is tried. -/
def maxAttempts : Nat := 3

/-- Change the entries; up to `more` attempts follow one that others were faster than. Nothing is
written when there is nothing to change, and the result says whether something was. -/
def modify (change : SortedMap String Bytes → Option (SortedMap String Bytes)) :
    (more : Nat) → Task interface Bool
  | 0 => do
    let m ← load
    match change m.entries with
    | none => return false
    | some entries =>
      ask (.replace { m with entries })
      return true
  | more + 1 => do
    let m ← load
    match change m.entries with
    | none => return false
    | some entries =>
      match ← (ask (.replace { m with entries })).outcome with
      | .ok () => return true
      -- Another was faster, so the change is made again to what is there now.
      | .error f => if isConflict f then modify change more else throw f

/-- The entries without one, if it is there. -/
def without (name : String) (entries : SortedMap String Bytes) : Option (SortedMap String Bytes) :=
  if entries.contains name then some (entries.erase name) else none

/-! ## §3 The backend -/

def get (key : ImportKey) : Task interface (Option Storage.StoredRecord) := do
  let m ← load
  match m.entries.get? key.text with
  | none => return none
  | some entry => return some (← Task.ofExcept (Storage.StoredRecord.read key.text entry))

def put (key : ImportKey) (record : Storage.StoredRecord) : Task interface Unit := do
  let _ ← modify (fun entries => some (entries.insert key.text record.encode)) (maxAttempts - 1)

def remove (key : ImportKey) : Task interface Bool := modify (without key.text) (maxAttempts - 1)

def list : Task interface (List ImportKey) := do return (← load).keys

/-- The answer of the backend to a call. -/
def answer : (c : Storage.Backend.Call) → Proc interface (Except Fault c.Result)
  | .get key => (get key).proc
  | .put key record => (put key record).proc
  | .remove key => (remove key).proc
  | .list => list.proc

end ConfigMap

end CatalogSync
