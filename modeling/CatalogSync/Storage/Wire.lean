import CatalogSync.Storage.Record
/-!
# What travels between publisher and storage

The body of a write and the answers of the storage service, in their JSON forms.

A body that is no well-formed JSON is told apart from one that is JSON but no write: a member of the
wrong kind counts even when the text breaks off behind it.
-/

namespace CatalogSync.Storage

open Json (Decoded Decodable decode outline)

/-! ## §1 Writes -/

/-- The body of a write. -/
structure PostBody where
  body : Bytes := []
  -- The marker: milliseconds in decimal, or nothing for 0.
  lastUpdate : String := ""
  modelCardKey : String := ""
  -- The model card, or nothing.
  modelCard : String := ""
  deriving DecidableEq, Repr

namespace PostBody

def memberNames : List String :=
  ["body", "lastUpdateTimeSinceEpoch", "modelCardKey", "modelCard"]

/-- The members of a body that were given. -/
structure Given where
  body : Option Payload
  lastUpdate : Option String
  modelCardKey : Option String
  modelCard : Option String

/-- A member that was given; null is no value of a member. -/
def given {α : Type} [Decodable α] (r : Json.Record) (name : String) : Decoded (Option α) :=
  match r.find? name with
  | some v => (decode v).map some
  | none => .ok none

/-- Read the members that were given. -/
def readGiven (v : Json) : Decoded Given := do
  let r ← Json.record memberNames v
  return {
    body := ← given r "body"
    lastUpdate := ← given r "lastUpdateTimeSinceEpoch"
    modelCardKey := ← given r "modelCardKey"
    modelCard := ← given r "modelCard" }

/-- The body with the given members; the document must be among them. -/
def ofGiven (g : Given) : Decoded PostBody :=
  match g.body with
  | none => .error (.missing "body")
  | some payload => .ok {
      body := payload.bytes
      lastUpdate := g.lastUpdate.getD ""
      modelCardKey := g.modelCardKey.getD ""
      modelCard := g.modelCard.getD "" }

instance : Decodable PostBody where
  outline := .parts (Json.Outline.plain memberNames) none
  decode v := do ofGiven (← readGiven v)

def toJson (p : PostBody) : Json :=
  .obj [("body", Payload.toJson ⟨p.body⟩), ("lastUpdateTimeSinceEpoch", .str p.lastUpdate),
    ("modelCardKey", .str p.modelCardKey), ("modelCard", .str p.modelCard)]

/-- Why bytes are no body of a write. -/
inductive Malformed where
  | notJson
  | wrongShape
  deriving DecidableEq, Repr

/-- Judge a document that breaks off after the given part. A member that is given again counts as
soon as its name is read. -/
def judgePart (part : Option Json) (pending : Option String) : Malformed :=
  match part with
  | none => .notJson
  | some v =>
    match Json.record memberNames v, readGiven v with
    | .ok r, .ok _ =>
      if pending.any fun name => (r.find? name).isSome then .wrongShape else .notJson
    | _, _ => .wrongShape

/-- Read a body; only blanks may follow it. -/
def ofBytes (b : Bytes) : Except Malformed PostBody :=
  match Json.readAs (outline PostBody) (Json.documentChars b) with
  | .broken part pending => .error (judgePart part pending)
  | .whole v rest =>
    match (decode v : Decoded PostBody) with
    | .error _ => .error .wrongShape
    | .ok p => if (Json.skipSpace rest).isEmpty then .ok p else .error .notJson

/-- The marker of a body. -/
def marker (p : PostBody) : Except Fault Nat :=
  let raw := Text.trim p.lastUpdate
  if raw.isEmpty then .ok 0
  else
    match Natural.read64? raw.toList with
    | some n => .ok n
    | none => .error (.validation raw "lastUpdateTimeSinceEpoch must be epoch milliseconds")

end PostBody

/-! ## §2 Answers -/

inductive WriteOutcome where
  | created
  -- A record that is not newer was replaced.
  | updated
  -- A newer record was kept.
  | ignored
  deriving DecidableEq, Repr

namespace WriteOutcome

def name : WriteOutcome → String
  | created => "created"
  | updated => "updated"
  | ignored => "ignored"

instance : Decodable WriteOutcome where
  decode v := do
    let s ← Json.stateName v
    match [created, updated, ignored].find? fun o => o.name == s with
    | some o => return o
    | none => throw (.refused "unknown variant")

end WriteOutcome

structure UpsertResponse where
  key : ImportKey
  outcome : WriteOutcome

instance : Decodable UpsertResponse := .ofRecord (Json.Outline.plain ["key", "outcome"]) fun r => do
  return { key := ← r.required "key", outcome := ← r.required "outcome" }

def UpsertResponse.toJson (r : UpsertResponse) : Json :=
  .obj [("key", r.key.toJson), ("outcome", .str r.outcome.name)]

structure KeySetResponse where
  removed : List ImportKey

instance : Decodable KeySetResponse := .ofRecord (Json.Outline.plain ["removed"]) fun r => do
  return { removed := ← r.required "removed" }

def KeySetResponse.toJson (r : KeySetResponse) : Json :=
  .obj [("removed", .arr (r.removed.map ImportKey.toJson))]

structure ListResponse where
  -- The stored keys, as texts.
  keys : List String

instance : Decodable ListResponse := .ofRecord (Json.Outline.plain ["keys"]) fun r => do
  return { keys := ← r.required "keys" }

def ListResponse.toJson (r : ListResponse) : Json := .obj [("keys", .strs r.keys)]

/-! ## §3 Paths -/

def upsertPath : String := "/upsert"

def keySetPath : String := "/currentkeyset"

def listPath : String := "/list"

def fetchPath : String := "/fetch"

def cardPath : String := "/modelcard"

def removePath : String := "/remove"

def healthPath : String := "/healthz"

def keyParameter : String := "key"

def typeParameter : String := "type"

end CatalogSync.Storage
