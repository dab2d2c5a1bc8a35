import CatalogSync.Cluster.Api
import CatalogSync.Deployment.Basic
/-!
# Reading deployments from the cluster

One deployment, all of them, and the details of how one is reached. Inference services without a
namespace are left out of the list. The predictor's service is the first service that the
deployment owns and whose name ends in `-predictor`.
-/

namespace CatalogSync.Deployment

open Cluster (InferenceService Service ServiceAccount)

/-! ## §1 Details of serving -/

/-- What the name of a predictor's service ends in. -/
def predictorEnding : String := "-predictor"

/-- The port under which a service is reached: the number of the port behind its first port, or the
first port itself. -/
def portOf (s : Service) : Int :=
  match s.ports with
  | [] => 0
  | p :: _ =>
    match p.target with
    | some (.number n) => n
    -- The port behind it may be given by a name, which says no number.
    | _ => p.port

/-- A port as it stands in an address; the standard port is left out. -/
def portText (port : Int) : String :=
  if port = 0 ∨ port = 80 then ""
  else ":" ++ (if port < 0 then "-" else "") ++ Natural.render port.natAbs

/-- The address of the predictor within the cluster. -/
def predictorServiceUrl? (services : List Service) (deployment : String) : Option String := do
  let s ← services.find? fun s => s.metadata.ownedBy deployment &&
    (s.metadata.name.map (Text.endsWith · predictorEnding)).getD false
  let name ← s.metadata.name
  let ns ← s.metadata.ns
  some ("http://" ++ name ++ "." ++ ns ++ ".svc.cluster.local" ++ portText (portOf s))

/-! ## §2 Reads -/

def fetch (ns name : String) : Task Cluster.interface (Option Deployment) := do
  match ← Cluster.get? InferenceService (Cluster.servingPath ns) name with
  | none => return none
  | some s => return some (← Task.ofExcept (ofService s))

/-- Every deployment that has a namespace. -/
def fetchAll : Task Cluster.interface (List Deployment) := do
  return (← Cluster.list InferenceService Cluster.allServingPath).filterMap fun s =>
    (ofService s).toOption

/-- How a deployment is reached. The services are not asked for unless the accounts are known. -/
def fetchDetails (d : Deployment) : Task Cluster.interface ServingDetails := do
  let accounts ← Cluster.list ServiceAccount (Cluster.accountsPath d.ns)
  let services ← Cluster.list Service (Cluster.servicesPath d.ns)
  return {
    internalUrl := predictorServiceUrl? services d.name
    authentication := accounts.any fun a => a.metadata.ownedBy d.name }

end CatalogSync.Deployment
