import CatalogSync.Http.Message
import CatalogSync.Registry.Query
import CatalogSync.Text.Split
/-!
# Registries over HTTP

A registry answers questions at paths under its base address. Listings come in pages, which are
followed until a page is empty, names no next page, or names itself again; a listing that does not
end after a thousand pages is an error. A model card that does not exist is no error.
-/

namespace CatalogSync.Registry

open Json (Decodable)

structure Client where
  -- The base address, without a slash at its end.
  endpoint : String
  token : Option String
  deriving DecidableEq

namespace Client

def connect (url : String) (token : Option String) : Client := ⟨Text.trimEndOf '/' url, token⟩

/-! ## §1 Addresses -/

def registryPath : String := "/api/model_registry/v1alpha3"

def catalogPath : String := "/api/model_catalog/v1alpha1"

/-- The number of entities asked for in a page. -/
def pageSize : Nat := 100

/-- The largest number of pages of a listing. -/
def maxPages : Nat := 1000

def address (c : Client) (path : String) : String := c.endpoint ++ registryPath ++ path

/-- A segment of a path; only its spaces are encoded. -/
def segment (s : String) : String :=
  String.ofList (s.toList.flatMap fun ch => if ch = ' ' then ['%', '2', '0'] else [ch])

/-- The address of a model card. -/
def cardAddress (c : Client) (o : CatalogOrigin) : String :=
  c.endpoint ++ catalogPath ++ "/sources/" ++ segment o.source ++ "/models/" ++
    segment o.repository ++ "/" ++ segment o.model

/-! ## §2 Exchanges -/

/-- Get the JSON document at an address. -/
def get (α : Type) [Decodable α] (c : Client) (url : String) (query : List (String × String)) :
    Task Http.interface α := do
  match ← Http.send { method := .get, url, query, token := c.token } with
  | none => throw (.registry c.endpoint ("GET " ++ url ++ " failed") none)
  | some r =>
    if Http.Status.isSuccess r.status then
      match r.decode? α with
      | some a => return a
      | none => throw (.registry c.endpoint ("invalid JSON from " ++ url) none)
    else
      throw (.registry c.endpoint ("GET " ++ url ++ " returned " ++ Http.Status.describe r.status ++
        ": " ++ r.text) (some r.status))

def pageQuery (token : String) : List (String × String) :=
  ("pageSize", Natural.render pageSize) ::
    if token.isEmpty then [] else [("nextPageToken", token)]

/-- Collect the pages of a listing, at most the given number of them. -/
def collect (α : Type) [Decodable α] (c : Client) (url : String) :
    Nat → String → List α → Task Http.interface (List α)
  | 0, _, _ =>
    throw (.registry c.endpoint
      ("GET " ++ url ++ " exceeded " ++ Natural.render maxPages ++ " pages") none)
  | pages + 1, token, found => do
    let page ← get (Page α) c url (pageQuery token)
    let found := found ++ page.items
    -- A registry that repeats its token, or sends an empty page, would be asked forever.
    if page.nextToken.isEmpty || page.nextToken == token || page.items.isEmpty then return found
    else collect α c url pages page.nextToken found

def list (α : Type) [Decodable α] (c : Client) (path : String) : Task Http.interface (List α) :=
  collect α c (c.address path) maxPages "" []

/-- The text of a model card, where there is one. -/
def card (c : Client) (o : CatalogOrigin) : Task Http.interface (Option String) := do
  match ← (get CatalogModel c (c.cardAddress o) []).outcome with
  | .ok model => return model.readme.bind Text.nonEmpty?
  -- A catalog that does not know the model has no card for it.
  | .error e => if e.status = some 404 then return none else throw e

/-- The reply to a question. -/
def reply (c : Client) : (q : Query) → Task Http.interface q.Reply
  | .models => list RegisteredModel c "/registered_models"
  | .model id => get RegisteredModel c (c.address ("/registered_models/" ++ id)) []
  | .versions id => list ModelVersion c ("/registered_models/" ++ id ++ "/versions")
  | .version id => get ModelVersion c (c.address ("/model_versions/" ++ id)) []
  | .artifacts id => list Artifact c ("/model_versions/" ++ id ++ "/artifacts")
  | .records => list ServingRecord c "/inference_services"
  | .environment id => get Environment c (c.address ("/serving_environments/" ++ id)) []
  | .card o => card c o

def describe (c : Client) : String :=
  "registry " ++ c.endpoint ++ (if c.token.isSome then " with a token" else "")

end Client

end CatalogSync.Registry
