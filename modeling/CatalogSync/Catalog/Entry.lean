import CatalogSync.Naming.ImportKey
import CatalogSync.Provenance
import CatalogSync.Registry.Entity
/-!
# Catalog entries

An entry describes a model and, when the model is served, the server with its API. Entries do not
depend on where the data came from or on the format in which they are published.
-/

namespace CatalogSync.Catalog

/-- A link shown with an entry. -/
structure Link where
  url : String
  title : String
  deriving DecidableEq, Repr

/-- The kind of an API. -/
inductive ApiType where
  | openApi
  | asyncApi
  | graphQl
  | grpc
  deriving DecidableEq, Repr

namespace ApiType

def name : ApiType → String
  | openApi => "openapi"
  | asyncApi => "asyncapi"
  | graphQl => "graphql"
  | grpc => "grpc"

/-- The kind that a property names; any other text means OpenAPI. -/
def ofProperty (value : String) : ApiType :=
  let s := Text.trim value
  if s = asyncApi.name then asyncApi
  else if s = graphQl.name then graphQl
  else if s = grpc.name then grpc
  else openApi

end ApiType

structure Model where
  name : String := ""
  owner : String := ""
  lifecycle : String := ""
  description : String := ""
  tags : SortedSet String := .empty
  artifactLocation : Option String := none
  ethics : Option String := none
  howToUse : Option String := none
  license : Option String := none
  support : Option String := none
  training : Option String := none
  usage : Option String := none
  links : List Link := []
  annotations : SortedMap String String := .empty
  deriving DecidableEq

structure Api where
  -- The address that is called.
  url : String := ""
  -- The definition, or where it is.
  spec : String := ""
  type : ApiType := .openApi
  tags : SortedSet String := .empty
  -- The addresses from outside and within the cluster.
  annotations : SortedMap String String := .empty
  deriving DecidableEq

structure Server where
  name : String := ""
  owner : String := ""
  lifecycle : String := ""
  description : String := ""
  tags : SortedSet String := .empty
  homepage : Option String := none
  usage : Option String := none
  -- Whether callers must identify themselves.
  authentication : Bool := false
  annotations : SortedMap String String := .empty
  api : Api := {}
  links : List Link := []
  deriving DecidableEq

/-- An entry of the catalog. -/
structure Entry where
  key : ImportKey
  provenance : Provenance
  -- The time of the last change in milliseconds.
  lastUpdate : Nat
  model : Model
  -- The server, when the model is served.
  server : Option Server
  cardOrigin : Option Registry.CatalogOrigin
  deriving DecidableEq

/-- The definition of an API that is not known. -/
def unknownSpec : String := "TBD"

end CatalogSync.Catalog
