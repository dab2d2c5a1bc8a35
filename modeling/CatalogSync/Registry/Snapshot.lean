import CatalogSync.Registry.Query
/-!
# Registries at one moment

The whole content of a registry as a value. A snapshot answers every question that can be put to a
registry: listings as they are, look-ups by the first entity with the id, and a look-up that finds
nothing with the fault of an unknown entity. A model card that does not exist is no fault.

A snapshot can be read from a JSON object with one list or map for each kind of entity.
-/

namespace CatalogSync.Registry

/-- The content of a registry. -/
structure Snapshot where
  models : List RegisteredModel := []
  -- The versions of all models.
  versions : List ModelVersion := []
  -- The artifacts by the id of their version.
  artifacts : SortedMap String (List Artifact) := .empty
  records : List ServingRecord := []
  environments : List Environment := []
  -- The model cards by the address of their model.
  cards : SortedMap String String := .empty

namespace Snapshot

instance : Json.Decodable Snapshot where
  decode v := do
    let r ← Json.object v
    return {
      models := ← r.orElse "models" []
      versions := ← r.orElse "versions" []
      artifacts := ← r.orElse "artifacts" .empty
      records := ← r.orElse "records" []
      environments := ← r.orElse "environments" []
      cards := ← r.orElse "cards" .empty }

/-- How a catalog model is addressed. -/
def cardName (o : CatalogOrigin) : String := o.source ++ "/" ++ o.repository ++ "/" ++ o.model

/-- The fault of a look-up that finds nothing. -/
def unknown (endpoint : String) : Fault := .registry endpoint "not found" (some 404)

/-- An entity that was looked up at an endpoint. -/
def require {α : Type} (endpoint : String) : Option α → Except Fault α
  | some a => .ok a
  | none => .error (unknown endpoint)

/-- The reply to a question that is put to the registry at an endpoint. -/
def reply (s : Snapshot) (endpoint : String) : (q : Query) → Except Fault q.Reply
  | .models => .ok s.models
  | .model id => require endpoint (s.models.find? (·.id == id))
  | .versions modelId => .ok (s.versions.filter (·.modelId == modelId))
  | .version id => require endpoint (s.versions.find? (·.id == id))
  | .artifacts versionId => .ok ((s.artifacts.get? versionId).getD [])
  | .records => .ok s.records
  | .environment id => require endpoint (s.environments.find? (·.id == id))
  | .card origin => .ok (s.cards.get? (cardName origin))

end Snapshot

end CatalogSync.Registry
