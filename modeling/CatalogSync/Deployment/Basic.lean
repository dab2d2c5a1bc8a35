import CatalogSync.Cluster.InferenceService
import CatalogSync.Fault
import CatalogSync.Naming.Name
import CatalogSync.Naming.Tag
import CatalogSync.Text.LowerCase
/-!
# Deployments

A deployment is what the bridge keeps of an inference service: who it is, what its labels and
annotations say, where it can be reached, and what is reported of it.

A deployment that no registry manages is published once it is ready: conditions are reported, the
model is up to date, the three conditions that matter hold, and there is an address.
-/

namespace CatalogSync

open Cluster (InferenceService ServingStatus)

/-- A model that is being served. -/
structure Deployment where
  ns : String
  name : String
  labels : SortedMap String String := .empty
  annotations : SortedMap String String := .empty
  -- The reported address, unless it is empty.
  statusUrl : Option String := none
  artifactLocation : Option String := none
  -- The framework and its version in lower case.
  modelFormat : Option String := none
  status : ServingStatus := {}
  deriving DecidableEq

/-- The ids of the model and the version that a deployment claims to serve. -/
structure RegistryHints where
  modelId : String
  versionId : String
  deriving DecidableEq, Repr

/-- Why a deployment is not ready. -/
inductive Unready where
  | noConditions
  -- The model has not followed its description yet.
  | modelNotUpToDate
  | condition (type : String)
  | noUrl
  deriving DecidableEq, Repr

/-- The wording of a reason. -/
def Unready.message : Unready → String
  | noConditions => "no status conditions"
  | modelNotUpToDate => "model status not up to date"
  | condition type => type
  | noUrl => "no status URL"

/-- What the cluster knows about the way a deployment is reached. -/
structure ServingDetails where
  -- The address of the predictor within the cluster.
  internalUrl : Option String := none
  -- Whether callers must identify themselves.
  authentication : Bool := false
  deriving DecidableEq, Repr

namespace Deployment

/-! ## §1 From the cluster -/

def modelLabel : String := "modelregistry.opendatahub.io/registered-model-id"

def versionLabel : String := "modelregistry.opendatahub.io/model-version-id"

/-- What the names of annotations with catalog properties begin with. -/
def annotationStart : String := "rhdh.modelcatalog.io/"

/-- A framework with its version, in lower case. -/
def formatName (f : Cluster.ModelFormat) : String :=
  Text.lower (match f.version.bind Text.nonEmpty? with
    | some version => f.name ++ "-" ++ version
    | none => f.name)

/-- The namespace of an inference service, which it must have. -/
def namespaceOf (s : InferenceService) : Except Fault String :=
  match s.metadata.ns with
  | none => .error (.validation s.metadata.anyName "InferenceService must be namespaced")
  | some ns => .ok ns

/-- The deployment that an inference service describes. -/
def ofService (s : InferenceService) : Except Fault Deployment := do
  let ns ← namespaceOf s
  let status := s.status.getD {}
  return {
    ns
    name := s.metadata.anyName
    labels := s.metadata.labels
    annotations := s.metadata.annotations
    statusUrl := status.url.bind Text.nonEmpty?
    artifactLocation := s.predictor.model.bind (·.location?)
    modelFormat := (s.predictor.model.bind (·.format)).map formatName
    status }

def displayName (d : Deployment) : String := d.ns ++ "/" ++ d.name

/-! ## §2 Registries -/

/-- The ids that the labels give, when both are there. -/
def registryHints? (d : Deployment) : Option RegistryHints := do
  let modelId ← (d.labels.get? modelLabel).bind Text.nonEmpty?
  let versionId ← (d.labels.get? versionLabel).bind Text.nonEmpty?
  some { modelId, versionId }

/-- Whether a registry manages the deployment: one of the labels is there. -/
def isRegistryManaged (d : Deployment) : Bool :=
  -- A label without a value suffices here, but gives no id above.
  d.labels.contains modelLabel || d.labels.contains versionLabel

/-- The annotation that holds a catalog property. -/
def annotationName (property : String) : String :=
  annotationStart ++ String.ofList ((Text.lowerCase property).toList.filter (· != ' '))

/-- The trimmed text of a catalog property that an annotation gives. -/
def annotation? (d : Deployment) (property : String) : Option String :=
  (d.annotations.get? (annotationName property)).bind Text.trimmed?

/-! ## §3 Readiness -/

/-- The conditions that must hold, in the order in which they are looked at. -/
def requiredConditions : List String := ["IngressReady", "PredictorReady", "Ready"]

/-- What keeps the deployment from being published, if anything. -/
def unready? (d : Deployment) : Option Unready :=
  if d.status.conditions.isEmpty then some .noConditions
  else if d.status.model.bind (·.transition) != some "UpToDate" then some .modelNotUpToDate
  else
    match requiredConditions.find? fun type => !d.status.holds type with
    | some type => some (.condition type)
    -- What has no address cannot be published, even when everything else is ready.
    | none => if d.statusUrl.isNone then some .noUrl else none

def isReady (d : Deployment) : Bool := d.unready?.isNone

/-- The time of the latest change of a condition in milliseconds; 0 when none is known. -/
def lastUpdateMillis (d : Deployment) : Nat :=
  ((d.status.conditions.filterMap (·.lastTransition)).filterMap Instant.millis?).foldl
    (fun latest t => max latest t.toNat) 0

/-! ## §4 Addresses -/

/-- Whether an address is one within the cluster. -/
def isClusterInternal (url : String) : Bool := Text.contains url "svc.cluster.local"

/-- The address to publish and the address within the cluster. A reported address that is itself
within the cluster gives way to the one of the predictor. -/
def apiUrls (statusUrl : String) (internalUrl : Option String) : String × Option String :=
  let internal := internalUrl.bind Text.nonEmpty?
  if isClusterInternal statusUrl then (internal.getD statusUrl, internal) else (statusUrl, internal)

end Deployment

end CatalogSync
