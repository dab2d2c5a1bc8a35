import CatalogSync.Text.Class
import CatalogSync.Text.Split
/-!
# Route hints

A hint says which route of the cluster leads to a registry. It is written `name` or
`namespace:name`, and several hints are separated by commas; entries that are no hint are skipped.
-/

namespace CatalogSync

/-- The name of a route in the cluster. -/
structure RouteHint where
  ns : String
  name : String
  deriving DecidableEq, Repr

namespace RouteHint

def defaultNamespace : String := "istio-system"

/-- The hint that a text holds; both parts must be there when there is a colon. -/
def parse? (raw : String) : Option RouteHint :=
  match Text.trimmed? raw with
  | none => none
  | some s =>
    match Text.splitOnce ':' s with
    | none => some ⟨defaultNamespace, s⟩
    | some (ns, name) => if ns.isEmpty || name.isEmpty then none else some ⟨ns, name⟩

/-- The hints of a list separated by commas. -/
def parseList (raw : String) : List RouteHint := (Text.split ',' raw).filterMap parse?

end RouteHint

end CatalogSync
