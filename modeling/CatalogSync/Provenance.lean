import CatalogSync.Json.Decoder
/-!
# Provenance

Where a catalog record comes from: from a registry, or from the cluster alone.
-/

namespace CatalogSync

/-- Where a record comes from. -/
inductive Provenance where
  -- From the entities of a registry, perhaps with a deployment.
  | registry
  -- From a deployment alone.
  | clusterOnly
  -- It was not said.
  | unknown
  deriving DecidableEq, Repr

namespace Provenance

def name : Provenance → String
  | registry => "kubeflow"
  | clusterOnly => "kserve"
  | unknown => "unknown"

/-- The provenance with a name; any other name is unknown. -/
def ofName (s : String) : Provenance :=
  if s = registry.name then registry
  else if s = clusterOnly.name then clusterOnly
  else unknown

def ofParameter (value : Option String) : Provenance := (value.map ofName).getD unknown

instance : Json.Decodable Provenance where
  decode v := do return ofName (← Json.stateName v)

/-- Reading a name gives the provenance back. -/
@[simp] theorem ofName_name (p : Provenance) : ofName p.name = p := by
  cases p <;> decide

end Provenance

end CatalogSync
