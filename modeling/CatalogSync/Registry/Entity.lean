import CatalogSync.Registry.Property
/-!
# Registry entities

A registry knows registered models, their versions, the artifacts of a version, records of where a
version is served, and the environments that such records belong to. Entities are snapshots in the
registry's JSON form; times are texts of milliseconds.
-/

namespace CatalogSync.Registry

open Json (Decoded Decodable decode outline)

/-! ## §1 States -/

/-- The state of a model or a version. -/
inductive State where
  | live
  -- Archived: the bridge skips it.
  | archived
  -- A state that the bridge does not know.
  | unknown
  deriving DecidableEq, Repr

def State.name : State → String
  | live => "LIVE"
  | archived => "ARCHIVED"
  | unknown => "UNKNOWN"

instance : Decodable State where
  decode v := do
    let s ← Json.stateName v
    return if s = State.live.name then .live
      else if s = State.archived.name then .archived else .unknown

/-- The state of an artifact. -/
inductive ArtifactState where
  | unknown
  | pending
  | live
  | markedForDeletion
  | deleted
  | abandoned
  | reference
  deriving DecidableEq, Repr

namespace ArtifactState

def name : ArtifactState → String
  | unknown => "UNKNOWN"
  | pending => "PENDING"
  | live => "LIVE"
  | markedForDeletion => "MARKED_FOR_DELETION"
  | deleted => "DELETED"
  | abandoned => "ABANDONED"
  | reference => "REFERENCE"

def all : List ArtifactState :=
  [unknown, pending, live, markedForDeletion, deleted, abandoned, reference]

instance : Decodable ArtifactState where
  decode v := do
    let s ← Json.stateName v
    match all.find? fun state => state.name == s with
    | some state => return state
    | none => throw (.refused "unknown variant")

end ArtifactState

/-- What a serving record asks for. -/
inductive DesiredState where
  | deployed
  | undeployed
  | unknown
  deriving DecidableEq, Repr

def DesiredState.name : DesiredState → String
  | deployed => "DEPLOYED"
  | undeployed => "UNDEPLOYED"
  | unknown => "UNKNOWN"

instance : Decodable DesiredState where
  decode v := do
    let s ← Json.stateName v
    return if s = DesiredState.deployed.name then .deployed
      else if s = DesiredState.undeployed.name then .undeployed else .unknown

/-! ## §2 Models and versions -/

structure RegisteredModel where
  id : String
  name : String
  description : Option String := none
  owner : Option String := none
  state : State := .live
  properties : Properties := .empty
  lastUpdate : Option String := none
  deriving DecidableEq

namespace RegisteredModel

def isArchived (m : RegisteredModel) : Bool := m.state == .archived

/-- The time of the last update in milliseconds; 0 when it is not known. -/
def lastUpdateMillis (m : RegisteredModel) : Nat := Natural.millis m.lastUpdate

instance : Decodable RegisteredModel := .ofRecord (Json.Outline.plain ["id", "name", "description",
    "owner", "state", "customProperties", "lastUpdateTimeSinceEpoch"]) fun r => do
  return {
    id := ← r.required "id"
    name := ← r.required "name"
    description := ← r.optional "description"
    owner := ← r.optional "owner"
    state := ← r.withDefault "state" .live
    properties := ← r.withDefault "customProperties" SortedMap.empty
    lastUpdate := ← r.optional "lastUpdateTimeSinceEpoch" }

def toJson (m : RegisteredModel) : Json :=
  .obj ([("id", .str m.id), ("name", .str m.name)] ++
    Json.optionalMember "description" (m.description.map .str) ++
    Json.optionalMember "owner" (m.owner.map .str) ++
    [("state", .str m.state.name), ("customProperties", m.properties.toJson)] ++
    Json.optionalMember "lastUpdateTimeSinceEpoch" (m.lastUpdate.map .str))

end RegisteredModel

structure ModelVersion where
  id : String
  name : String
  -- The id of the model.
  modelId : String := ""
  description : Option String := none
  author : Option String := none
  state : State := .live
  properties : Properties := .empty
  lastUpdate : Option String := none
  deriving DecidableEq

namespace ModelVersion

def isArchived (v : ModelVersion) : Bool := v.state == .archived

/-- The time of the last update in milliseconds; 0 when it is not known. -/
def lastUpdateMillis (v : ModelVersion) : Nat := Natural.millis v.lastUpdate

instance : Decodable ModelVersion := .ofRecord (Json.Outline.plain ["id", "name",
    "registeredModelId", "description", "author", "state", "customProperties",
    "lastUpdateTimeSinceEpoch"]) fun r => do
  return {
    id := ← r.required "id"
    name := ← r.required "name"
    modelId := ← r.withDefault "registeredModelId" ""
    description := ← r.optional "description"
    author := ← r.optional "author"
    state := ← r.withDefault "state" .live
    properties := ← r.withDefault "customProperties" SortedMap.empty
    lastUpdate := ← r.optional "lastUpdateTimeSinceEpoch" }

def toJson (v : ModelVersion) : Json :=
  .obj ([("id", .str v.id), ("name", .str v.name), ("registeredModelId", .str v.modelId)] ++
    Json.optionalMember "description" (v.description.map .str) ++
    Json.optionalMember "author" (v.author.map .str) ++
    [("state", .str v.state.name), ("customProperties", v.properties.toJson)] ++
    Json.optionalMember "lastUpdateTimeSinceEpoch" (v.lastUpdate.map .str))

end ModelVersion

/-! ## §3 Artifacts -/

/-- A file or location that belongs to a version. -/
structure Artifact where
  id : String := ""
  name : Option String := none
  uri : Option String := none
  description : Option String := none
  formatName : Option String := none
  formatVersion : Option String := none
  state : ArtifactState := .unknown
  properties : Properties := .empty
  lastUpdate : Option String := none
  deriving DecidableEq

namespace Artifact

/-- The time of the last update in milliseconds; 0 when it is not known. -/
def lastUpdateMillis (a : Artifact) : Nat := Natural.millis a.lastUpdate

instance : Decodable Artifact := .ofRecord (Json.Outline.plain ["id", "name", "uri", "description",
    "modelFormatName", "modelFormatVersion", "state", "customProperties",
    "lastUpdateTimeSinceEpoch"]) fun r => do
  return {
    id := ← r.withDefault "id" ""
    name := ← r.optional "name"
    uri := ← r.optional "uri"
    description := ← r.optional "description"
    formatName := ← r.optional "modelFormatName"
    formatVersion := ← r.optional "modelFormatVersion"
    state := ← r.withDefault "state" .unknown
    properties := ← r.withDefault "customProperties" SortedMap.empty
    lastUpdate := ← r.optional "lastUpdateTimeSinceEpoch" }

def toJson (a : Artifact) : Json :=
  .obj ([("id", .str a.id)] ++
    Json.optionalMember "name" (a.name.map .str) ++
    Json.optionalMember "uri" (a.uri.map .str) ++
    Json.optionalMember "description" (a.description.map .str) ++
    Json.optionalMember "modelFormatName" (a.formatName.map .str) ++
    Json.optionalMember "modelFormatVersion" (a.formatVersion.map .str) ++
    [("state", .str a.state.name), ("customProperties", a.properties.toJson)] ++
    Json.optionalMember "lastUpdateTimeSinceEpoch" (a.lastUpdate.map .str))

end Artifact

/-! ## §4 Serving -/

/-- The registry's record of a deployment of one of its models. -/
structure ServingRecord where
  id : String
  name : Option String := none
  modelId : String
  -- The id of the version that is served, where the record names one.
  versionId : Option String := none
  environmentId : String
  -- The name of the deployment, where the record gives it.
  runtime : Option String := none
  desiredState : DesiredState := .deployed
  properties : Properties := .empty
  deriving DecidableEq

namespace ServingRecord

def isDeployed (r : ServingRecord) : Bool := r.desiredState == .deployed

instance : Decodable ServingRecord := .ofRecord (Json.Outline.plain ["id", "name",
    "registeredModelId", "modelVersionId", "servingEnvironmentId", "runtime", "desiredState",
    "customProperties"]) fun r => do
  return {
    id := ← r.required "id"
    name := ← r.optional "name"
    modelId := ← r.required "registeredModelId"
    versionId := ← r.optional "modelVersionId"
    environmentId := ← r.required "servingEnvironmentId"
    runtime := ← r.optional "runtime"
    desiredState := ← r.withDefault "desiredState" .deployed
    properties := ← r.withDefault "customProperties" SortedMap.empty }

def toJson (r : ServingRecord) : Json :=
  .obj ([("id", .str r.id)] ++
    Json.optionalMember "name" (r.name.map .str) ++
    [("registeredModelId", .str r.modelId)] ++
    Json.optionalMember "modelVersionId" (r.versionId.map .str) ++
    [("servingEnvironmentId", .str r.environmentId)] ++
    Json.optionalMember "runtime" (r.runtime.map .str) ++
    [("desiredState", .str r.desiredState.name), ("customProperties", r.properties.toJson)])

end ServingRecord

/-- An environment in which versions are served; its name is a namespace of the cluster. -/
structure Environment where
  id : String
  name : String
  description : Option String := none
  deriving DecidableEq

namespace Environment

instance : Decodable Environment := .ofRecord (Json.Outline.plain ["id", "name",
    "description"]) fun r => do
  return {
    id := ← r.required "id"
    name := ← r.required "name"
    description := ← r.optional "description" }

def toJson (e : Environment) : Json :=
  .obj ([("id", .str e.id), ("name", .str e.name)] ++
    Json.optionalMember "description" (e.description.map .str))

end Environment

/-! ## §5 The model catalog beside a registry -/

/-- A model of the catalog beside the registry. -/
structure CatalogModel where
  name : String := ""
  readme : Option String := none
  deriving DecidableEq

namespace CatalogModel

instance : Decodable CatalogModel := .ofRecord (Json.Outline.plain ["name", "readme"]) fun r => do
  return { name := ← r.withDefault "name" "", readme := ← r.optional "readme" }

def toJson (m : CatalogModel) : Json :=
  .obj ([("name", .str m.name)] ++ Json.optionalMember "readme" (m.readme.map .str))

end CatalogModel

/-- Where a model of the catalog comes from. -/
structure CatalogOrigin where
  -- The source of the catalog.
  source : String
  -- The repository within the source.
  repository : String
  -- The model within the repository.
  model : String
  deriving DecidableEq, Repr

/-- A page of a listing. -/
structure Page (α : Type) where
  items : List α
  -- The token of the next page; empty on the last one.
  nextToken : String

instance {α : Type} [Decodable α] : Decodable (Page α) :=
  .ofRecord [("items", outline (List α)), ("nextPageToken", .whole)] fun r => do
    return { items := ← r.withDefault "items" [], nextToken := ← r.withDefault "nextPageToken" "" }

end CatalogSync.Registry
