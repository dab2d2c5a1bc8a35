import CatalogSync.Json.Decoder
import CatalogSync.Settings.Config
/-!
# Settings as a document

The raw settings as the members of a JSON object; a member that is missing or null was not given.
-/

namespace CatalogSync

instance : Json.Decodable Settings where
  decode v := do
    let r ← Json.object v
    return {
      format := ← r.optional "format"
      pollingInterval := ← r.optional "polling_interval"
      defaultOwner := ← r.optional "default_owner"
      defaultLifecycle := ← r.optional "default_lifecycle"
      registryRoutes := ← r.optional "registry_routes"
      registryUrl := ← r.optional "registry_url"
      registryToken := ← r.optional "registry_token"
      storageUrl := ← r.optional "storage_url"
      podIp := ← r.optional "pod_ip"
      maxConcurrentReconciles := ← r.optional "max_concurrent_reconciles"
      httpTimeoutSecs := ← r.optional "http_timeout_secs" }

end CatalogSync
