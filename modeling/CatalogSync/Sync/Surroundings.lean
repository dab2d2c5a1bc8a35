import CatalogSync.Correlation.Search
import CatalogSync.Registry.Discovery
import CatalogSync.Storage.Client
/-!
# The surroundings of the bridge

Everything that the bridge asks of others: deployments of the cluster, questions to registries,
searches for routes, calls to the storage service, and the request for a full pass. Cycles and
passes are procedures over these calls, so any number of them can be interleaved at their calls.
-/

namespace CatalogSync.Sync

inductive Call where
  | deployment (ns name : String)
  | deployments
  -- Read how a deployment is reached.
  | details (d : Deployment)
  | registry (question : Registry.Addressed)
  | route (hint : RouteHint)
  | storage (c : Storage.Publishing.Call)
  | requestPass

abbrev Call.Answer : Call → Type
  | .deployment _ _ => Except Fault (Option Deployment)
  | .deployments => Except Fault (List Deployment)
  | .details _ => Except Fault ServingDetails
  | .registry question => Except Fault question.query.Reply
  | .route _ => Registry.RouteAnswer
  | .storage c => Except Fault c.Result
  | .requestPass => Unit

abbrev interface : Interface := ⟨Call, Call.Answer⟩

/-- A procedure of the bridge that may fail. -/
abbrev Action (α : Type) := Task interface α

/-! ## §1 Calls that may fail -/

def deployment (ns name : String) : Action (Option Deployment) :=
  .ofProc (.call (.deployment ns name) .done)

def deployments : Action (List Deployment) := .ofProc (.call .deployments .done)

def storage (c : Storage.Publishing.Call) : Action c.Result := .ofProc (.call (.storage c) .done)

/-- Make an inquiry at a registry. -/
def inquire {α : Type} (endpoint : String) (i : Registry.Inquiry α) : Action α :=
  .ofProc (i.proc.through fun q => .call (.registry ⟨endpoint, q⟩) .done)

/-! ## §2 Calls that do not fail -/

def requestPass : Proc interface Unit := .call .requestPass .done

/-- The version that a deployment serves, if a registry knows it. -/
def correlate (directory : Registry.Directory) (d : Deployment) :
    Proc interface (Option Correlation.Match) :=
  (Correlation.correlate directory d).through fun question => .call (.registry question) .done

def discover (config : Config) : Proc interface Registry.Directory :=
  (Registry.discover config).through fun hint => .call (.route hint) .done

/-- How a deployment is reached, for one that has an address; nothing when that cannot be read. -/
def details? (d : Deployment) : Proc interface (Option ServingDetails) :=
  if d.statusUrl.isNone then return none
  else .call (.details d) fun (r : Except Fault ServingDetails) => .done r.toOption

end CatalogSync.Sync
