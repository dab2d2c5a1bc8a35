import CatalogSync.Effect.Proc
import CatalogSync.Storage.Record
/-!
# Storage backends

A backend gets, puts and removes records by key and lists its keys in order. The backend in memory
is a map, and every call to it succeeds.
-/

namespace CatalogSync.Storage

namespace Backend

inductive Call where
  | get (key : ImportKey)
  | put (key : ImportKey) (record : StoredRecord)
  -- Remove the record under a key, and say whether there was one.
  | remove (key : ImportKey)
  -- All keys in ascending order.
  | list

abbrev Call.Result : Call → Type
  | .get _ => Option StoredRecord
  | .put _ _ => Unit
  | .remove _ => Bool
  | .list => List ImportKey

abbrev interface : Interface := ⟨Call, fun c => Except Fault c.Result⟩

end Backend

/-- The records by key. -/
abbrev Store := SortedMap ImportKey StoredRecord

namespace Store

/-- What a call brings, and the records after it. -/
def perform : (c : Backend.Call) → Store → c.Result × Store
  | .get key, s => (s.get? key, s)
  | .put key record, s => ((), s.insert key record)
  | .remove key, s => (s.contains key, s.erase key)
  | .list, s => (s.keys, s)

/-- The backend in memory. -/
def handler : Proc.Handler Backend.interface Store := fun c s =>
  match perform c s with
  | (result, s) => (.ok result, s)

end Store

end CatalogSync.Storage
