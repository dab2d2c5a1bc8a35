import CatalogSync.Http.Message
import CatalogSync.Storage.Wire
/-!
# Telling the importer

The importer learns about records from a location service: a new record is a location that points
back at the document of the storage service, and a removed record is a location less. A location
that is gone already is no failure.
-/

namespace CatalogSync.Storage

/-- Where the location service and the storage service are. -/
structure Notifier where
  -- The base address of the location service, without a slash at its end.
  location : String
  -- The base address of the storage service, without a slash at its end.
  storage : String
  deriving DecidableEq, Repr

namespace Notifier

def connect (location storage : String) : Notifier :=
  ⟨Text.trimEndOf '/' location, Text.trimEndOf '/' storage⟩

/-- Where the importer finds the document of a key. -/
def target (n : Notifier) (key : ImportKey) : String :=
  n.storage ++ fetchPath ++ "?" ++ keyParameter ++ "=" ++ key.text

/-- Make an exchange about a key; a refusal with an accepted status is none. -/
def exchange (key : ImportKey) (what : String) (accepted : List Nat) (r : Http.Request) :
    Task Http.interface Unit := do
  match ← Http.send r with
  | none => throw (.storage key.text (what ++ " failed") none)
  | some answer =>
    if Http.Status.isSuccess answer.status ∨ answer.status ∈ accepted then return ()
    else
      throw (.storage key.text (what ++ " returned " ++ Http.Status.describe answer.status)
        (some answer.status))

def imported (n : Notifier) (key : ImportKey) : Task Http.interface Unit :=
  exchange key "location upsert" [] {
    method := .post
    url := n.location ++ upsertPath
    query := [(keyParameter, key.text)]
    body := some (.obj [("target", .str (n.target key))]) }

def removed (n : Notifier) (key : ImportKey) : Task Http.interface Unit :=
  exchange key "location remove" [404] {
    method := .delete
    url := n.location ++ removePath
    query := [(keyParameter, key.text)] }

end Notifier

end CatalogSync.Storage
