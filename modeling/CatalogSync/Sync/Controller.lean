import CatalogSync.Sync.Bridge
/-!
# Reacting to changes in the cluster

A change of an inference service starts a cycle for its deployment. What follows is decided by the
end of the cycle: nothing, another cycle after the delay that it asks for, or, when it failed,
another cycle after a fixed delay.
-/

namespace CatalogSync.Sync.Controller

inductive Reaction where
  | awaitChange
  -- Another cycle after a while.
  | requeue (after : Span)
  deriving DecidableEq, Repr

def Reaction.ofNext : Next → Reaction
  | .settled => awaitChange
  | .again after => requeue after

/-- How long to wait after a cycle that failed. -/
def failureDelay : Span := .ofSecs 30

/-- What follows a cycle that failed. -/
def onFailure : Reaction := .requeue failureDelay

/-- React to a change of an inference service. -/
def onChange (b : Bridge) (cancel : Cancellation) (s : Cluster.InferenceService) :
    Proc interface (Except Fault Reaction) :=
  match Deployment.namespaceOf s with
  | .error f => return .error f
  | .ok ns => do return (← b.reconcile cancel ns s.metadata.anyName).map Reaction.ofNext

end CatalogSync.Sync.Controller
