import CatalogSync.Fault
import CatalogSync.Json.Printer
import CatalogSync.Json.Reader
import CatalogSync.Naming.ImportKey
import CatalogSync.Provenance
import CatalogSync.Text.Base64
/-!
# Stored records

What is stored under a key: the published document, its marker, where it comes from, its model card,
and whether the importer has been told about it. A record is written as JSON with its bytes in
base64, and reading what was written gives the record back.
-/

namespace CatalogSync.Storage

open Json (Decoded Decodable decode)

/-- Bytes that travel as base64. -/
structure Payload where
  bytes : Bytes
  deriving DecidableEq, Repr

instance : Decodable Payload where
  decode v := do
    match Text.Base64.decode? (← decode v) with
    | some bytes => return ⟨bytes⟩
    | none => throw (.refused "invalid base64")

def Payload.toJson (p : Payload) : Json := .str (Text.Base64.encode p.bytes)

structure StoredRecord where
  body : Bytes
  -- The time of the last change that the document shows, in milliseconds.
  lastUpdate : Nat
  provenance : Provenance := .unknown
  modelCard : Option String := none
  -- Whether the importer has been told about the key.
  imported : Bool := false
  deriving DecidableEq, Repr

namespace StoredRecord

/-- Whether a byte is a blank in front of a document. -/
def isBlank (b : UInt8) : Bool := b == 0x20 || b == 0x09 || b == 0x0A || b == 0x0C || b == 0x0D

/-- The type of the document, judged by its first byte that is no blank. -/
def contentType (r : StoredRecord) : String :=
  match r.body.find? fun b => !isBlank b with
  | some b => if b = 0x7B ∨ b = 0x5B then "application/json" else "application/yaml"
  | none => "application/yaml"

instance : Decodable StoredRecord := .ofRecord (Json.Outline.plain ["body", "lastUpdate",
    "provenance", "modelCard", "imported"]) fun r => do
  let body : Payload ← r.required "body"
  return {
    body := body.bytes
    lastUpdate := ← r.required "lastUpdate"
    provenance := ← r.withDefault "provenance" .unknown
    modelCard := ← r.optional "modelCard"
    imported := ← r.withDefault "imported" false }

def toJson (r : StoredRecord) : Json :=
  .obj ([("body", Payload.toJson ⟨r.body⟩), ("lastUpdate", .nat r.lastUpdate),
      ("provenance", .str r.provenance.name)] ++
    Json.optionalMember "modelCard" (r.modelCard.map .str) ++ [("imported", .bool r.imported)])

/-- The text under which a record is kept in a configuration map. -/
def encode (r : StoredRecord) : Bytes := Text.Utf8.encode r.toJson.compact

/-- The record that an entry describes; the fault names the key. -/
def read (key : String) (entry : Bytes) : Except Fault StoredRecord :=
  match Json.ofBytes? StoredRecord entry with
  | some (.ok r) => .ok r
  | some (.error e) => .error (.serialization ("stored record " ++ key ++ ": " ++ e.message))
  | none => .error (.serialization ("stored record " ++ key ++ ": malformed JSON"))

end StoredRecord

end CatalogSync.Storage
