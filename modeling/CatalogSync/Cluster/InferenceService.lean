import CatalogSync.Cluster.Object
/-!
# Inference services

The cluster's description of a model that is being served: what is to be served, and what the
serving runtime reports about it.
-/

namespace CatalogSync.Cluster

open Json (Decodable outline)

/-! ## §1 What is to be served -/

structure ModelFormat where
  name : String
  version : Option String := none
  deriving DecidableEq, Repr

instance : Decodable ModelFormat := .ofRecord (Json.Outline.plain ["name", "version"]) fun r => do
  return { name := ← r.required "name", version := ← r.optional "version" }

/-- Where the files of a model are kept, when no address is given. -/
structure ModelStorage where
  -- The key of the storage secret.
  key : Option String := none
  -- The path within the bucket.
  path : Option String := none
  deriving DecidableEq, Repr

instance : Decodable ModelStorage := .ofRecord (Json.Outline.plain ["key", "path"]) fun r => do
  return { key := ← r.optional "key", path := ← r.optional "path" }

structure ModelSpec where
  format : Option ModelFormat := none
  runtime : Option String := none
  -- The address of the files.
  storageUri : Option String := none
  -- Where the files are kept.
  storage : Option ModelStorage := none
  deriving DecidableEq, Repr

instance : Decodable ModelSpec := .ofRecord [("modelFormat", outline ModelFormat),
    ("runtime", .whole), ("storageUri", .whole), ("storage", outline ModelStorage)] fun r => do
  return {
    format := ← r.optional "modelFormat"
    runtime := ← r.optional "runtime"
    storageUri := ← r.optional "storageUri"
    storage := ← r.optional "storage" }

/-- Where the files of a model are: their address, or their path within the bucket. -/
def ModelSpec.location? (m : ModelSpec) : Option String :=
  match m.storageUri.bind Text.nonEmpty? with
  | some uri => some uri
  | none => ((m.storage.bind (·.path)).bind Text.nonEmpty?).map ("s3://" ++ ·)

structure Predictor where
  model : Option ModelSpec := none
  -- The account under which the predictor runs.
  serviceAccount : Option String := none
  deriving DecidableEq, Repr

instance : Decodable Predictor := .ofRecord [("model", outline ModelSpec),
    ("serviceAccountName", .whole)] fun r => do
  return { model := ← r.optional "model", serviceAccount := ← r.optional "serviceAccountName" }

/-! ## §2 What is reported -/

structure Address where
  url : Option String := none
  deriving DecidableEq, Repr

instance : Decodable Address := .ofRecord (Json.Outline.plain ["url"]) fun r => do
  return { url := ← r.optional "url" }

structure Condition where
  type : String
  -- Whether it holds: `True`, `False` or `Unknown`.
  status : String
  -- The reason, for programs.
  reason : Option String := none
  -- The reason, for people.
  message : Option String := none
  lastTransition : Option String := none
  deriving DecidableEq, Repr

instance : Decodable Condition := .ofRecord (Json.Outline.plain ["type", "status", "reason",
    "message", "lastTransitionTime"]) fun r => do
  return {
    type := ← r.required "type"
    status := ← r.required "status"
    reason := ← r.optional "reason"
    message := ← r.optional "message"
    lastTransition := ← r.optional "lastTransitionTime" }

structure ModelStatus where
  -- How far the model has followed its description.
  transition : Option String := none
  deriving DecidableEq, Repr

instance : Decodable ModelStatus := .ofRecord (Json.Outline.plain ["transitionStatus"]) fun r => do
  return { transition := ← r.optional "transitionStatus" }

structure ComponentStatus where
  url : Option String := none
  address : Option Address := none
  -- The latest revision that was ready.
  latestReadyRevision : Option String := none
  deriving DecidableEq, Repr

instance : Decodable ComponentStatus := .ofRecord [("url", .whole), ("address", outline Address),
    ("latestReadyRevision", .whole)] fun r => do
  return {
    url := ← r.optional "url"
    address := ← r.optional "address"
    latestReadyRevision := ← r.optional "latestReadyRevision" }

structure ServingStatus where
  -- The address from outside, once there is one.
  url : Option String := none
  address : Option Address := none
  conditions : List Condition := []
  model : Option ModelStatus := none
  components : SortedMap String ComponentStatus := .empty
  deriving DecidableEq

instance : Decodable ServingStatus := .ofRecord [("url", .whole), ("address", outline Address),
    ("conditions", outline (List Condition)), ("modelStatus", outline ModelStatus),
    ("components", outline (SortedMap String ComponentStatus))] fun r => do
  return {
    url := ← r.optional "url"
    address := ← r.optional "address"
    conditions := ← r.withDefault "conditions" []
    model := ← r.optional "modelStatus"
    components := ← r.withDefault "components" .empty }

namespace ServingStatus

/-- Whether a condition is reported to hold. -/
def holds (s : ServingStatus) (type : String) : Bool :=
  s.conditions.any fun c => c.type == type && c.status == "True"

/-- The address of the predictor within the cluster, if it is reported. -/
def predictorUrl? (s : ServingStatus) : Option String := do
  let predictor ← s.components.get? "predictor"
  (predictor.address.bind (·.url)) <|> predictor.url

end ServingStatus

/-! ## §3 The object -/

structure InferenceService where
  metadata : ObjectMeta
  predictor : Predictor := {}
  status : Option ServingStatus := none
  deriving DecidableEq

namespace InferenceService

/-- What is to be served. -/
structure Spec where
  predictor : Predictor

instance : Decodable Spec := .ofRecord [("predictor", outline Predictor)] fun r => do
  return { predictor := ← r.withDefault "predictor" {} }

/-- The list form leaves nothing out, not even the status. -/
instance : Decodable InferenceService where
  outline := .parts [("metadata", outline ObjectMeta), ("spec", outline Spec),
    ("status", outline ServingStatus)] none
  decode v := do
    let r ← Json.fullRecord ["metadata", "spec", "status"] v
    let spec : Spec ← r.required "spec"
    return {
      metadata := ← r.required "metadata"
      predictor := spec.predictor
      status := ← r.optional "status" }

end InferenceService

end CatalogSync.Cluster
