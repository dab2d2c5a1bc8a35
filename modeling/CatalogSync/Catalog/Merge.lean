import CatalogSync.Catalog.Sources
/-!
# Building an entry

One function for each part of an entry, each reading the same sources. The key, the names, the tags
and the owner are sanitized; a model has a server exactly when a deployment with an address serves
it.
-/

namespace CatalogSync.Catalog

open Registry (Artifact)

namespace Sources

/-! ## §1 Names -/

/-- The key of the entry: that of the version, or else that of the deployment. -/
def key (s : Sources) : Except Fault ImportKey :=
  match s.registered?, s.deployment with
  | some (model, version), _ => ImportKey.forModelVersion model.name version.name
  | none, some d => ImportKey.forDeployment d.ns d.name
  | none, none =>
    .error (.internal "merge" "catalog entry has neither a registry version nor a deployment")

def joinNames (a b : String) : String := Name.sanitize (Name.sanitize a ++ "-" ++ Name.sanitize b)

def serverName (d : Deployment) : String := joinNames d.ns d.name

def modelName (s : Sources) : String :=
  match s.registered?, s.deployment with
  | some (model, version), _ => joinNames model.name version.name
  | none, some d => serverName d
  | none, none => ""

/-! ## §2 Texts -/

/-- The owner: a property, the owner that the registry recorded, or the default. -/
def owner (s : Sources) : String :=
  -- A text of which nothing is left counts as missing.
  (((s.property? .owner).bind Name.sanitize?) <|>
    ((s.model.bind (·.owner)).bind Name.sanitize?)).getD s.defaults.owner

def lifecycle (s : Sources) : String :=
  ((s.property? .lifecycle).bind Name.sanitize?).getD s.defaults.lifecycle

/-- The description: a property, that of the version, or that of the model. -/
def description (s : Sources) : String :=
  (s.property? .description <|>
    ((s.version.bind (·.description)).bind Text.trimmed? <|>
      (s.model.bind (·.description)).bind Text.trimmed?)).getD ""

/-! ## §3 Tags -/

/-- The tags that the labels of a deployment make. -/
def labelTags (d : Deployment) : SortedSet String :=
  .ofList (d.labels.entries.filterMap fun (name, value) =>
    Tag.normalize? (joinNames name value))

/-- The labels of a version, its model and its artifacts. -/
def registryLabels (model : Registry.RegisteredModel) (version : Registry.ModelVersion)
    (artifacts : List Artifact) : List String :=
  Registry.Properties.labels model.properties ++ Registry.Properties.labels version.properties ++
    artifacts.flatMap fun a => Registry.Properties.labels a.properties

/-- The tags of the model, the framework of the deployment included. -/
def modelTags (s : Sources) : SortedSet String :=
  let tags : SortedSet String := match s.registered?, s.deployment with
    | some (model, version), _ =>
      .ofList ((registryLabels model version s.artifacts).filterMap Tag.normalize?)
    | none, some d => labelTags d
    | none, none => .empty
  SortedSet.addAll tags (((s.deployment.bind (·.modelFormat)).bind Tag.normalize?).toList)

/-! ## §4 Links and annotations -/

/-- The address of an artifact, unless it is empty. -/
def artifactUri? (a : Artifact) : Option String := a.uri.bind Text.nonEmpty?

/-- Where the files are: the first address of an artifact, or what the deployment says. -/
def artifactLocation? (s : Sources) : Option String :=
  s.artifacts.findSome? artifactUri? <|> s.deployment.bind (·.artifactLocation)

/-- The links to the endpoints of one component. -/
def componentLinks (name : String) (status : Cluster.ComponentStatus) : List Link :=
  match status.url.bind Text.nonEmpty? with
  | none => []
  | some url =>
    let name := Name.sanitize name
    [⟨Text.trimEndOf '/' url ++ "/docs", name ++ " FastAPI URL"⟩,
     ⟨url, name ++ " model serving URL"⟩]

def servingLinks (s : Sources) : List Link :=
  match s.served? with
  | none => []
  | some (d, url) =>
    ⟨url, "API URL"⟩ ::
      d.status.components.entries.flatMap fun (name, status) => componentLinks name status

/-- The link to an artifact: titled by its description, its name, or neither. -/
def artifactLink? (a : Artifact) : Option Link := do
  let url ← artifactUri? a
  let title := a.description.bind Text.trimmed? <|> a.name.bind Name.sanitize?
  some ⟨url, title.getD "Model artifact"⟩

def modelLinks (s : Sources) : List Link := s.artifacts.filterMap artifactLink? ++ s.servingLinks

/-- Where the documentation is, when that is an address of the web. -/
def techDocs? (s : Sources) : Option String :=
  (s.property? .techDocs).filter fun url =>
    Text.startsWith url "http://" || Text.startsWith url "https://"

/-- The map with a member more, where there is a value. -/
def annotate (m : SortedMap String String) (name : String) (value : Option String) :
    SortedMap String String :=
  match value with
  | some v => m.insert name v
  | none => m

/-- The annotations of the model. -/
def modelAnnotations (s : Sources) : SortedMap String String :=
  annotate (annotate .empty "rhdh.modelcatalog.io/model-name" (s.deployment.map (·.name)))
    "TechDocs" s.techDocs?

/-! ## §5 Parts -/

def modelPart (s : Sources) : Model where
  name := s.modelName
  owner := s.owner
  lifecycle := s.lifecycle
  description := s.description
  tags := s.modelTags
  artifactLocation := s.artifactLocation?
  ethics := s.property? .ethics
  howToUse := s.property? .howToUse
  license := s.property? .license
  support := s.property? .support
  training := s.property? .training
  usage := s.property? .usage
  links := s.modelLinks
  annotations := s.modelAnnotations

/-- The annotation with the address within the cluster. -/
def internalUrlAnnotation : String := "rhdh.modelcatalog.io/internal-service-url"

/-- The annotation with the address from outside. -/
def externalUrlAnnotation : String := "rhdh.modelcatalog.io/external-route-url"

/-- The address of the predictor within the cluster, as it was looked up or is reported. -/
def internalUrl? (s : Sources) (d : Deployment) : Option String :=
  s.serving.bind (·.internalUrl) <|> d.status.predictorUrl?

/-- The API of a deployment with an address. -/
def apiPart (s : Sources) (d : Deployment) (statusUrl : String) : Api :=
  let (url, internal) := Deployment.apiUrls statusUrl (s.internalUrl? d)
  -- An address from outside is one that differs from the address within the cluster.
  let external := if url.isEmpty || internal == some url then none else some url
  { url
    spec := (s.property? .apiSpec).getD unknownSpec
    type := ((s.property? .apiType).map ApiType.ofProperty).getD .openApi
    tags := labelTags d
    annotations :=
      annotate (annotate .empty internalUrlAnnotation internal) externalUrlAnnotation external }

/-- The server, when a deployment with an address serves the model. -/
def serverPart? (s : Sources) : Option Server :=
  s.served?.map fun (d, url) => {
    name := serverName d
    owner := s.owner
    lifecycle := s.lifecycle
    description := s.description
    tags := labelTags d
    homepage := s.property? .homepage
    usage := s.property? .usage
    authentication := (s.serving.map (·.authentication)).getD false
    annotations := .empty
    api := s.apiPart d url
    links := s.servingLinks }

/-- The time of the last change: the newest that the registry gives, or else the newest change of a
condition of the deployment. -/
def lastUpdate (s : Sources) : Nat :=
  match s.registered?, s.deployment with
  | some (model, version), _ =>
    (s.artifacts.map Artifact.lastUpdateMillis).foldl max
      (max model.lastUpdateMillis version.lastUpdateMillis)
  | none, some d => d.lastUpdateMillis
  | none, none => 0

/-- The entry that the sources make. -/
def entry (s : Sources) : Except Fault Entry := do
  let key ← s.key
  return {
    key
    provenance := s.provenance
    lastUpdate := s.lastUpdate
    model := s.modelPart
    server := s.serverPart?
    cardOrigin := s.cardOrigin? }

end Sources

end CatalogSync.Catalog
