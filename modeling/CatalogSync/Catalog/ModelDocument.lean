import CatalogSync.Catalog.Entry
import CatalogSync.Json.Printer
/-!
# The model catalog document

An entry as one JSON document: the list of its models, which is always one, and the server when
there is one. Members without content are left out.
-/

namespace CatalogSync.Catalog

namespace ModelDocument

/-- A member with annotations, unless there are none. -/
def annotations (m : SortedMap String String) : List (String × Json) :=
  if m.isEmpty then []
  else [("annotations", .obj (m.entries.map fun e => (e.1, .str e.2)))]

/-- A member with tags, unless there are none. -/
def tags (s : SortedSet String) : List (String × Json) :=
  if s.isEmpty then [] else [("tags", .strs s.toList)]

/-- A member with a text, unless there is none. -/
def text (name : String) (value : Option String) : List (String × Json) :=
  Json.optionalMember name (value.map .str)

def model (m : Model) : Json :=
  .obj (annotations m.annotations ++ text "artifactLocationURL" m.artifactLocation ++
    [("description", .str m.description)] ++ text "ethics" m.ethics ++
    text "howToUseURL" m.howToUse ++ text "license" m.license ++
    [("lifecycle", .str m.lifecycle), ("name", .str m.name), ("owner", .str m.owner)] ++
    text "support" m.support ++ tags m.tags ++ text "training" m.training ++ text "usage" m.usage)

def api (a : Api) : Json :=
  .obj (annotations a.annotations ++ [("spec", .str a.spec)] ++ tags a.tags ++
    [("type", .str a.type.name), ("url", .str a.url)])

def server (s : Server) : Json :=
  .obj (annotations s.annotations ++
    [("API", api s.api), ("authentication", .bool s.authentication),
     ("description", .str s.description)] ++ text "homepageURL" s.homepage ++
    [("lifecycle", .str s.lifecycle), ("name", .str s.name), ("owner", .str s.owner)] ++
    tags s.tags ++ text "usage" s.usage)

def ofParts (m : Model) (s : Option Server) : Json :=
  .obj ([("models", .arr [model m])] ++ Json.optionalMember "modelServer" (s.map server))

end ModelDocument

end CatalogSync.Catalog
