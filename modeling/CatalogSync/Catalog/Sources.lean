import CatalogSync.Catalog.Entry
import CatalogSync.Deployment.Basic
import CatalogSync.Settings.Config
/-!
# What an entry is made from

A registered version with its model and artifacts, a deployment with the details of how it is
reached, and the fallbacks for what none of them says. A property is looked up in the version, then
in the model, then in the annotations of the deployment.
-/

namespace CatalogSync.Catalog

/-- What stands in an entry when no source says it. -/
structure Defaults where
  owner : String := defaultOwner
  lifecycle : String := defaultLifecycle
  deriving DecidableEq, Repr

/-- The names of the properties that the catalog knows. -/
inductive Property where
  | owner
  | lifecycle
  | description
  | ethics
  | howToUse
  | support
  | training
  | usage
  | license
  | homepage
  | apiSpec
  | apiType
  | techDocs
  deriving DecidableEq, Repr

def Property.name : Property → String
  | owner => "Owner"
  | lifecycle => "Lifecycle"
  | description => "Description"
  | ethics => "Ethics"
  | howToUse => "How to use"
  | support => "Support"
  | training => "Training"
  | usage => "Usage"
  | license => "License"
  | homepage => "Homepage URL"
  | apiSpec => "API Spec"
  | apiType => "API Type"
  | techDocs => "TechDocs"

/-- The sources of one entry. -/
structure Sources where
  deployment : Option Deployment := none
  serving : Option ServingDetails := none
  model : Option Registry.RegisteredModel := none
  version : Option Registry.ModelVersion := none
  artifacts : List Registry.Artifact := []
  -- What stands in when no source says it.
  defaults : Defaults := {}

namespace Sources

/-- The sources of a registered version, which a deployment may serve. -/
def ofVersion (defaults : Defaults) (model : Registry.RegisteredModel)
    (version : Registry.ModelVersion) (artifacts : List Registry.Artifact)
    (deployment : Option Deployment) (serving : Option ServingDetails) : Sources :=
  { deployment, serving, model := some model, version := some version, artifacts, defaults }

/-- The sources of a deployment that no registry knows. -/
def ofDeployment (defaults : Defaults) (deployment : Deployment)
    (serving : Option ServingDetails) : Sources :=
  { deployment := some deployment, serving, defaults }

/-- The model and the version, when both are there. -/
def registered? (s : Sources) : Option (Registry.RegisteredModel × Registry.ModelVersion) := do
  some (← s.model, ← s.version)

def provenance (s : Sources) : Provenance :=
  if s.registered?.isSome then .registry else .clusterOnly

/-- The deployment with its address, when it has one. -/
def served? (s : Sources) : Option (Deployment × String) := do
  let d ← s.deployment
  let url ← d.statusUrl.bind Text.nonEmpty?
  some (d, url)

/-- The trimmed text of a property, unless no source gives it. -/
def named? (s : Sources) (name : String) : Option String :=
  (s.version.bind fun v => Registry.Properties.text? v.properties name) <|>
    (s.model.bind fun m => Registry.Properties.text? m.properties name) <|>
      s.deployment.bind (·.annotation? name)

/-- The trimmed text of a property that the catalog knows. -/
def property? (s : Sources) (p : Property) : Option String := s.named? p.name

/-- Where in the catalog the version was taken from; all three parts must be there. -/
def cardOrigin? (s : Sources) : Option Registry.CatalogOrigin := do
  let version ← s.version
  let source ← Registry.Properties.text? version.properties "_registeredFromCatalogSourceName"
  let repository ←
    Registry.Properties.text? version.properties "_registeredFromCatalogRepositoryName"
  let model ← Registry.Properties.text? version.properties "_registeredFromCatalogModelName"
  some { source, repository, model }

end Sources

end CatalogSync.Catalog
