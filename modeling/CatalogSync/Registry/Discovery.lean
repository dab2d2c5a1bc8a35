import CatalogSync.Registry.Rest
import CatalogSync.Settings.Config
/-!
# Finding registries

Registries are reached at the configured addresses and at the routes that the configured hints
lead to. A hint that leads nowhere, fails or takes too long is left out; no registry at all is a
valid result and means that every deployment stands alone.
-/

namespace CatalogSync.Registry

/-- How the search for a route ended. -/
inductive RouteAnswer where
  | found (url : String)
  -- The route does not exist or has not been admitted.
  | absent
  | failed (fault : Fault)
  -- The search took too long.
  | timedOut
  deriving DecidableEq, Repr

def RouteAnswer.url? : RouteAnswer → Option String
  | found url => some url
  | _ => none

abbrev routes : Interface := ⟨RouteHint, fun _ => RouteAnswer⟩

namespace Directory

/-- The directory of the registries at the given addresses. -/
def ofUrls (urls : List String) (token : Option String) : Directory :=
  .ofList (urls.map fun url => (Client.connect url token).endpoint)

end Directory

/-- The addresses that hints lead to, in the order of the hints. -/
def resolveAll : List RouteHint → Proc routes (List String)
  | [] => return []
  | hint :: rest => do
    let answer ← Proc.ask (I := routes) hint
    let urls ← resolveAll rest
    -- Only an address counts; a failed search is treated like a route that does not exist.
    return answer.url?.toList ++ urls

/-- The registries of a configuration. -/
def discover (config : Config) : Proc routes Directory := do
  let resolved ← resolveAll config.routeHints
  return Directory.ofUrls (config.registryUrls ++ resolved) config.registryToken

end CatalogSync.Registry
