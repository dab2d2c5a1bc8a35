import CatalogSync.Sync.Publish
/-!
# Full passes

A pass publishes every live version of every registry and every ready deployment that no registry
covers, and then submits the keys of all of them, so that the storage service removes the records of
everything else. A deployment that is not ready keeps its key and so its record.

Keys are only submitted when everything could be listed: after a failed listing the keys that it
would have contributed are not known, and submitting the others would remove live records. That a
single entry cannot be published does not keep a pass from submitting its keys.
-/

namespace CatalogSync.Sync

open Registry (RegisteredModel ModelVersion)

/-! ## §1 What a pass has done -/

/-- What a pass did. -/
structure Summary where
  -- The number of entries that were sent, stale ones included.
  upserted : Nat
  -- The number of entries that could not be built or sent.
  failed : Nat
  keys : List ImportKey
  -- The keys whose records were removed.
  removed : List ImportKey
  submitted : Bool
  deriving DecidableEq, Repr

/-- What a pass has done so far. -/
structure Progress where
  upserted : Nat := 0
  failed : Nat := 0
  keys : SortedSet ImportKey := .empty
  -- The deployments that serve a version, by namespace and name.
  served : List (String × String) := []
  -- Whether everything could be listed.
  complete : Bool := true

namespace Progress

def incomplete (p : Progress) : Progress := { p with complete := false }

def fail (p : Progress) : Progress := { p with failed := p.failed + 1 }

/-- An entry was published or not. -/
def count (p : Progress) (r : Except Fault ImportKey) : Progress :=
  match r with
  | .ok _ => { p with upserted := p.upserted + 1 }
  | .error _ => p.fail

def add (p : Progress) (key : ImportKey) : Progress := { p with keys := SortedSet.add p.keys key }

def serve (p : Progress) (deployments : List Deployment) : Progress :=
  { p with served := p.served ++ deployments.map fun d => (d.ns, d.name) }

def serves (p : Progress) (d : Deployment) : Bool := p.served.contains (d.ns, d.name)

/-- What the pass did, with the answer to its keys where they were submitted. -/
def summary (p : Progress) (removed : Option (List ImportKey)) : Summary where
  upserted := p.upserted
  failed := p.failed
  keys := p.keys.toList
  removed := removed.getD []
  submitted := removed.isSome

end Progress

/-! ## §2 The versions of a registry -/

/-- What the versions of one registry are published with. -/
structure Scope where
  style : Style
  deployments : List Deployment
  endpoint : String
  records : Correlation.Records

/-- The sources of a version: its artifacts, and the deployment that is published with it. -/
def versionSources (s : Scope) (model : RegisteredModel) (version : ModelVersion) :
    Action Catalog.Sources := do
  let artifacts ← inquire s.endpoint (Registry.artifactsOf version)
  match s.records.server? model version s.deployments with
  | none => return .ofVersion s.style.defaults model version artifacts none none
  | some d =>
    return .ofVersion s.style.defaults model version artifacts (some d) (← details? d)

def publishVersion (s : Scope) (model : RegisteredModel) (version : ModelVersion) :
    Action ImportKey := do
  publish s.style (← versionSources s model version) (some s.endpoint)

/-- Treat a version: note its key and its deployments, and publish it. -/
def visitVersion (s : Scope) (model : RegisteredModel) (p : Progress) (version : ModelVersion) :
    Proc interface Progress :=
  match ImportKey.forModelVersion model.name version.name with
  -- A version without a key covers no deployments.
  | .error _ => return p.fail
  | .ok key => do
    -- The key is kept and the deployments are covered, whatever becomes of the entry.
    let serving := s.deployments.filter fun d => (s.records.strategy? model version d).isSome
    return ((p.add key).serve serving).count (← (publishVersion s model version).proc)

/-- Treat the versions of a model that are in use. -/
def visitModel (s : Scope) (p : Progress) (model : RegisteredModel) : Proc interface Progress := do
  match ← (inquire s.endpoint (Registry.question (.versions model.id))).proc with
  | .error _ => return p.incomplete
  | .ok versions => (versions.filter (!·.isArchived)).foldlM (visitVersion s model) p

/-- What is listed of a registry at the start. -/
def listRegistry : Registry.Inquiry (List RegisteredModel × Correlation.Records) := do
  let models ← Registry.question .models
  return (models, ← Correlation.readRecords)

def visitRegistry (style : Style) (deployments : List Deployment) (p : Progress)
    (endpoint : String) : Proc interface Progress := do
  match ← (inquire endpoint listRegistry).proc with
  | .error _ => return p.incomplete
  | .ok (models, records) =>
    (models.filter (!·.isArchived)).foldlM (visitModel ⟨style, deployments, endpoint, records⟩) p

/-! ## §3 Deployments that no registry covers -/

/-- Publish a deployment that no registry covers. -/
def publishDeployment (style : Style) (d : Deployment) : Action ImportKey := do
  let details ← details? d
  publish style (.ofDeployment style.defaults d details) none

/-- Treat a deployment: unless a registry covers it, note its key, and publish it if it is ready. -/
def visitDeployment (style : Style) (p : Progress) (d : Deployment) : Proc interface Progress :=
  if d.isRegistryManaged || p.serves d then return p
  else
    match ImportKey.forDeployment d.ns d.name with
    | .error _ => return p.fail
    | .ok key => do
      let p := p.add key
      -- One that is not ready keeps its record until it is.
      if d.isReady then return p.count (← (publishDeployment style d).proc) else return p

/-! ## §4 The pass -/

/-- Treat every registry and then every deployment. -/
def visitAll (style : Style) (directory : Registry.Directory) : Proc interface Progress := do
  let listed ← deployments.proc
  let start : Progress := { complete := listed.isOk }
  -- Without a list of deployments, the versions are published all the same.
  let deployments := listed.toOption.getD []
  let p ← directory.toList.foldlM (visitRegistry style deployments) start
  deployments.foldlM (visitDeployment style) p

/-- A full pass over the given registries. -/
def pass (style : Style) (directory : Registry.Directory) : Action Summary := do
  let p ← visitAll style directory
  -- What could not be listed must not be taken for what is gone.
  if p.complete then
    let removed ← storage (.keySet p.keys.toList)
    return p.summary (some removed)
  else return p.summary none

end CatalogSync.Sync
