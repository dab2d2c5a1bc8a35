import CatalogSync.Naming.Name
import CatalogSync.Settings.Choice
import CatalogSync.Settings.RouteHint
import CatalogSync.Time.Span
/-!
# Configuration

`Settings` holds the raw values as they were given, `Config` the values the bridge works with.
`Config.ofSettings` applies the defaults: a value that is missing, blank or unusable is replaced,
and only a storage tier that cannot be located is an error.
-/

namespace CatalogSync

/-! ## §1 Values -/

/-- The owner of an entry that names none. -/
def defaultOwner : String := "rhdh-rhoai-bridge"

/-- The lifecycle of an entry that names none. -/
def defaultLifecycle : String := "development"

/-- The port of the storage tier. -/
def storagePort : Nat := 7070

/-- The settings as they were given. -/
structure Settings where
  format : Option String := none
  -- The time between two full passes.
  pollingInterval : Option String := none
  -- The owner of entries that name none.
  defaultOwner : Option String := none
  -- The lifecycle of entries that name none.
  defaultLifecycle : Option String := none
  registryRoutes : Option String := none
  registryUrl : Option String := none
  registryToken : Option String := none
  storageUrl : Option String := none
  -- The host of the storage tier when it has no address.
  podIp : Option String := none
  maxConcurrentReconciles : Option Nat := none
  -- The longest time for a call, in seconds.
  httpTimeoutSecs : Option Nat := none
  deriving Repr

/-- The values the bridge works with. -/
structure Config where
  format : OutputFormat := .catalogInfoYaml
  pollingInterval : Span := .ofSecs 120
  defaultOwner : String := CatalogSync.defaultOwner
  defaultLifecycle : String := CatalogSync.defaultLifecycle
  routeHints : List RouteHint := []
  registryUrls : List String := []
  registryToken : Option String := none
  storageUrl : String := "http://localhost:" ++ Natural.render storagePort
  maxConcurrentReconciles : Nat := 32
  httpTimeout : Span := .ofSecs 30
  deriving Repr

namespace Config

/-! ## §2 Reading settings -/

/-- A setting without line breaks and without blanks at its ends, unless nothing is left. -/
def clean (value : Option String) : Option String :=
  value.bind fun v => Text.trimmed? (Name.stripLineBreaks v)

/-- A positive length of time, or the fallback. -/
def interval (value : Option String) (fallback : Span) : Span :=
  match value.bind fun raw => (Span.parse raw).toOption with
  | some span => if span.nanos = 0 then fallback else span
  | none => fallback

def positive (value : Option Nat) (fallback : Nat) : Nat :=
  match value with
  | some n => if n = 0 then fallback else n
  | none => fallback

/-- The addresses of a list separated by commas, without slashes at their ends. -/
def addresses (raw : String) : List String :=
  (Text.split ',' raw).filterMap fun s => Text.nonEmpty? (Text.trimEndOf '/' (Text.trim s))

/-- The address of the storage tier. -/
def locateStorage (settings : Settings) : Except Fault String :=
  match clean settings.storageUrl, clean settings.podIp with
  | some url, _ => .ok (Text.trimEndOf '/' url)
  | none, some host => .ok ("http://" ++ host ++ ":" ++ Natural.render storagePort)
  | none, none =>
    .error (.configuration "neither STORAGE_URL nor POD_IP is set; cannot locate the storage tier")

/-- The configuration that the settings describe. -/
def ofSettings (settings : Settings) : Except Fault Config := do
  let fallback : Config := {}
  let storageUrl ← locateStorage settings
  return {
    format := ((clean settings.format).map OutputFormat.ofSetting).getD fallback.format
    pollingInterval := interval (clean settings.pollingInterval) fallback.pollingInterval
    defaultOwner := ((clean settings.defaultOwner).bind Name.sanitize?).getD fallback.defaultOwner
    defaultLifecycle :=
      ((clean settings.defaultLifecycle).bind Name.sanitize?).getD fallback.defaultLifecycle
    routeHints := ((clean settings.registryRoutes).map RouteHint.parseList).getD []
    registryUrls := ((clean settings.registryUrl).map addresses).getD []
    registryToken := clean settings.registryToken
    storageUrl
    maxConcurrentReconciles :=
      positive settings.maxConcurrentReconciles fallback.maxConcurrentReconciles
    httpTimeout := .ofSecs (positive settings.httpTimeoutSecs 30) }

end Config

end CatalogSync
