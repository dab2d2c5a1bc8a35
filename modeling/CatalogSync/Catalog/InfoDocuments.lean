import CatalogSync.Catalog.Entry
import CatalogSync.Yaml.Node
/-!
# Catalog-info documents

An entry as a stream of YAML documents: a component for the server, a resource for the model and,
when the model is served, an API. The component depends on the resource and the API, which both say
that they are dependencies of the component. An entry that is not served has a component that
stands for the model itself.
-/

namespace CatalogSync.Catalog

namespace InfoDocuments

/-! ## §1 Parts of a document -/

/-- What identifies and describes an entity. -/
structure Metadata where
  name : String
  -- The description; an empty one is left out.
  description : String
  -- Where the documentation of the entity is, relative to the catalog.
  docs : String
  annotations : SortedMap String String
  tags : SortedSet String
  links : List Link

/-- The annotation that says where the documentation is. -/
def docsAnnotation : String := "backstage.io/techdocs-ref"

/-- A member with a list, unless it is empty. -/
def listMember (name : String) (items : List Yaml) : List (String × Yaml) :=
  if items.isEmpty then [] else [(name, .list items)]

def link (l : Link) : Yaml :=
  .map [("url", .text l.url), ("title", .text l.title), ("icon", .text "WebAsset"),
    ("type", .text "website")]

def Metadata.toYaml (m : Metadata) : Yaml :=
  let annotations := m.annotations.insert docsAnnotation m.docs
  .map ([("name", .text m.name)] ++
    (if m.description.isEmpty then [] else [("description", .text m.description)]) ++
    [("annotations", .map (annotations.entries.map fun e => (e.1, .text e.2)))] ++
    listMember "tags" (m.tags.toList.map .text) ++ listMember "links" (m.links.map link))

/-- The members that every document has in front. -/
def header (kind : String) (m : Metadata) : List (String × Yaml) :=
  [("apiVersion", .text "backstage.io/v1alpha1"), ("kind", .text kind), ("metadata", m.toYaml)]

/-- The members that every description has in front. -/
def common (type lifecycle owner : String) : List (String × Yaml) :=
  [("type", .text type), ("lifecycle", .text lifecycle), ("owner", .text ("user:" ++ owner))]

def profile (name : String) : List (String × Yaml) :=
  [("profile", .map [("displayName", .text name)])]

def componentRef (name : String) : String := "component:" ++ name

def resourceRef (name : String) : String := "resource:" ++ name

def apiRef (name : String) : String := "api:" ++ name

/-! ## §2 Documents -/

/-- A document: the members of its root. -/
abbrev Document := List (String × Yaml)

def componentName (m : Model) (s : Option Server) : String := (s.map (·.name)).getD m.name

/-- The component, described by the server or else by the model. -/
def component (m : Model) (s : Option Server) : Document :=
  let name := componentName m s
  let metadata : Metadata := match s with
    | some s => ⟨name, s.description, "./", s.annotations, s.tags, s.links⟩
    | none => ⟨name, m.description, "./", .empty, m.tags, m.links⟩
  let lifecycle := (s.map (·.lifecycle)).getD m.lifecycle
  let owner := (s.map (·.owner)).getD m.owner
  let dependencies := resourceRef m.name :: (s.map fun s => apiRef s.name).toList
  header "Component" metadata ++
    [("spec", .map (common "model-server" lifecycle owner ++
      listMember "dependsOn" (dependencies.map .text) ++
      listMember "providesApis" ((s.map (·.name)).toList.map .text) ++ profile name))]

def resource (m : Model) (component : String) : Document :=
  header "Resource" ⟨m.name, m.description, "resource/", m.annotations, m.tags, m.links⟩ ++
    [("spec", .map (common "ai-model" m.lifecycle m.owner ++
      [("dependencyOf", .list [.text (componentRef component)])] ++ profile m.name))]

/-- The definition of an API; there must be one, so a placeholder stands for one not known. -/
def definition (a : Api) : String :=
  if a.spec.isEmpty || a.spec == unknownSpec then "no-definition-yet" else a.spec

def api (s : Server) (component : String) : Document :=
  header "API" ⟨s.name, s.description, "api/", s.api.annotations, s.api.tags, s.links⟩ ++
    [("spec", .map (common s.api.type.name s.lifecycle s.owner ++
      [("definition", .text (definition s.api)),
       ("dependencyOf", .list [.text (componentRef component)])] ++ profile s.name))]

def ofParts (m : Model) (s : Option Server) : List Document :=
  let name := componentName m s
  [component m s, resource m name] ++ (s.map fun s => api s name).toList

/-- The documents as one text. -/
def render (documents : List Document) : String := Text.join "---\n" (documents.map Yaml.document)

end InfoDocuments

end CatalogSync.Catalog
