import CatalogSync.Cluster.Api
import CatalogSync.Settings.RouteHint
/-!
# Routes

A route leads to a host once one of its ingresses has been admitted. It leads there over TLS when
the route says anything about TLS.
-/

namespace CatalogSync.Cluster

open Json (Decodable outline)

namespace Route

def text? (v : Json) (name : String) : Option String :=
  match v.member? name with
  | some (.str s) => some s
  | _ => none

def items (v : Json) (name : String) : List Json :=
  match v.member? name with
  | some (.arr l) => l
  | _ => []

/-- Whether a condition says that the route has been admitted. -/
def isAdmission (condition : Json) : Bool :=
  text? condition "type" == some "Admitted" && text? condition "status" == some "True"

/-- Whether an ingress of the route has been admitted. -/
def isAdmitted (route : Json) : Bool :=
  let status := (route.member? "status").getD .null
  (items status "ingress").any fun ingress => (items ingress "conditions").any isAdmission

/-- The base address of an admitted route. -/
def url? (route : Json) : Option String :=
  let spec := (route.member? "spec").getD .null
  if isAdmitted route then do
    let host ← (text? spec "host").bind Text.nonEmpty?
    -- Any settings for encryption, even empty ones, mean that it is used.
    let scheme := match spec.member? "tls" with
      | none => "http"
      | some .null => "http"
      | some _ => "https"
    some (scheme ++ "://" ++ host)
  else none

end Route

/-- An object of which only the metadata is checked. -/
structure DynamicObject where
  content : Json

/-- The metadata is given once; all other members are kept, so they must stand for something. -/
instance : Decodable DynamicObject where
  outline := .parts [("metadata", outline ObjectMeta)] (some .whole)
  decode v := do
    let r ← Json.knownMembers ["metadata"] [] (← Json.members v)
    let _metadata : ObjectMeta ← r.withDefault "metadata" {}
    return { content := v }

/-- The base address that a hint leads to, if its route exists and has been admitted. -/
def resolveRoute (hint : RouteHint) : Task interface (Option String) := do
  let route ← get? DynamicObject (routesPath hint.ns) hint.name
  return route.bind fun r => Route.url? r.content

end CatalogSync.Cluster
