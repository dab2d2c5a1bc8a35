import CatalogSync.Sync.Publish
/-!
# One deployment at a time

A cycle reads one deployment, finds the version that it serves, and publishes the entry. A
deployment that is gone leads to a full pass, which alone removes records. When several deployments
serve one version, a cycle publishes the same one that a full pass does, whichever of them it was
started for.
-/

namespace CatalogSync

/-- Whether two deployments are the same one, by namespace and name. -/
def Deployment.isSame (a b : Deployment) : Bool := a.ns == b.ns && a.name == b.name

/-- A list of deployments with one of them as it is now: it takes the place of the first that is the
same, or stands at the end. -/
def Deployment.update (d : Deployment) : List Deployment → List Deployment
  | [] => [d]
  | other :: rest => if other.isSame d then d :: rest else other :: d.update rest

namespace Sync

/-- What is to be done after a cycle that did not fail. -/
inductive Next where
  -- Nothing until the deployment changes.
  | settled
  -- Another cycle after a while.
  | again (after : Span)
  deriving DecidableEq, Repr

/-- How long to wait for a deployment that is not ready. -/
def unreadyDelay : Span := .ofSecs 10

/-- The deployment that is published with a version which the given deployment serves. -/
def serverOf (found : Correlation.Match) (d : Deployment) : Action Deployment := do
  let listed ← deployments
  let records ← inquire found.endpoint Correlation.readRecords
  match records.server? found.model found.version (d.update listed) with
  -- The deployment was read before the list, and is published as it was read.
  | some chosen => return if chosen.isSame d then d else chosen
  -- The evidence has gone since the version was found.
  | none => return d

/-- Publish a version which a deployment serves. -/
def publishMatch (style : Style) (found : Correlation.Match) (d : Deployment) : Action Unit := do
  let server ← serverOf found d
  let details ← details? server
  let _ ← publish style (.ofVersion style.defaults found.model found.version found.artifacts
    (some server) details) (some found.endpoint)

/-- Publish a deployment that no registry knows. -/
def publishAlone (style : Style) (d : Deployment) : Action Unit := do
  let details ← details? d
  let _ ← publish style (.ofDeployment style.defaults d details) none

/-- What a cycle does with a deployment that exists. -/
def settle (style : Style) (directory : Registry.Directory) (d : Deployment) : Action Next := do
  match ← correlate directory d with
  | some found =>
    publishMatch style found d
    return .settled
  | none =>
    -- Its registry may know the version later, so nothing is published in its place.
    if d.isRegistryManaged then return .settled
    else if d.isReady then
      publishAlone style d
      return .settled
    else return .again unreadyDelay

/-- The cycle for the deployment with a name. -/
def cycle (style : Style) (directory : Registry.Directory) (ns name : String) : Action Next := do
  match ← deployment ns name with
  | some d => settle style directory d
  | none =>
    -- Only a pass removes records.
    requestPass
    return .settled

end Sync

end CatalogSync
