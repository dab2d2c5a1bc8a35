import CatalogSync.Effect.Proc
import CatalogSync.Registry.Entity
/-!
# Questions to a registry

The read access that a registry offers, as questions with a kind of reply each. Where a registry
is reached over the network, in memory, or not at all is up to who answers.
-/

namespace CatalogSync.Registry

/-- A question to one registry. -/
inductive Query where
  | models
  | model (id : String)
  | versions (modelId : String)
  | version (id : String)
  | artifacts (versionId : String)
  | records
  | environment (id : String)
  -- The model card of a catalog model.
  | card (origin : CatalogOrigin)
  deriving DecidableEq, Repr

abbrev Query.Reply : Query → Type
  | .models => List RegisteredModel
  | .model _ => RegisteredModel
  | .versions _ => List ModelVersion
  | .version _ => ModelVersion
  | .artifacts _ => List Artifact
  | .records => List ServingRecord
  | .environment _ => Environment
  | .card _ => Option String

def Query.replyJson : (q : Query) → q.Reply → Json
  | .models, l => .arr (l.map RegisteredModel.toJson)
  | .model _, m => m.toJson
  | .versions _, l => .arr (l.map ModelVersion.toJson)
  | .version _, v => v.toJson
  | .artifacts _, l => .arr (l.map Artifact.toJson)
  | .records, l => .arr (l.map ServingRecord.toJson)
  | .environment _, e => e.toJson
  | .card _, text => Json.optionalStr text

abbrev interface : Interface := ⟨Query, fun q => Except Fault q.Reply⟩

/-- A question to the registry at an endpoint. -/
structure Addressed where
  endpoint : String
  query : Query
  deriving DecidableEq, Repr

/-- Questions to any of several registries. -/
abbrev addressed : Interface := ⟨Addressed, fun a => Except Fault a.query.Reply⟩

/-- The known registries: their endpoints in ascending order. -/
abbrev Directory := SortedSet String

end CatalogSync.Registry
