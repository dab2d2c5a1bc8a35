import CatalogSync.Sync.Cycle
import CatalogSync.Sync.Pass
/-!
# The bridge

A bridge knows its registries and how it makes entries. Where it was set up from a configuration,
it searches for its registries again at the start of every full pass. A cycle or a pass may be
cancelled after any of its calls; it then ends at once, with the fault of a cancelled operation.
-/

namespace CatalogSync

/-- A procedure that is abandoned after the given number of calls, with another result. -/
def Proc.abandon {I : Interface} {α : Type} (instead : α) : Nat → Proc I α → Proc I α
  | 0, _ => .done instead
  | _ + 1, .done a => .done a
  | n + 1, .call c resume => .call c fun answer => (resume answer).abandon instead n

namespace Sync

/-- How many calls are made before an operation is cancelled, if it is. -/
abbrev Cancellation := Option Nat

/-- Run a procedure that may be cancelled. -/
def cancellable {α : Type} (cancel : Cancellation) (instead : α) (p : Proc interface α) :
    Proc interface α :=
  match cancel with
  | none => p
  | some calls => p.abandon instead calls

/-- Where the registries of a bridge come from. -/
inductive Origin where
  -- They never change.
  | fixed
  -- They are searched for as a configuration says.
  | configured (config : Config)

/-- A bridge between registries, cluster and catalog. -/
structure Bridge where
  style : Style
  directory : Registry.Directory
  origin : Origin := .fixed

namespace Bridge

/-- The bridge that a configuration describes. -/
def ofConfig (config : Config) : Proc interface Bridge := do
  return {
    style := ⟨config.format, ⟨config.defaultOwner, config.defaultLifecycle⟩⟩
    directory := ← discover config
    origin := .configured config }

/-- The bridge with its registries searched for again, where a configuration says how. -/
def refresh (b : Bridge) : Proc interface Bridge :=
  match b.origin with
  | .fixed => return b
  | .configured config => do return { b with directory := ← discover config }

/-- The cycle for the deployment with a name. -/
def reconcile (b : Bridge) (cancel : Cancellation) (ns name : String) :
    Proc interface (Except Fault Next) :=
  cancellable cancel (.error (.cancelled ("reconcile " ++ ns ++ "/" ++ name)))
    (cycle b.style b.directory ns name).proc

/-- A full pass, and the bridge after it. -/
def fullPass (b : Bridge) (cancel : Cancellation) :
    Proc interface (Except Fault Summary × Bridge) :=
  cancellable cancel (.error (.cancelled "full pass"), b) do
    let b ← b.refresh
    return (← (pass b.style b.directory).proc, b)

end Bridge

end Sync

end CatalogSync
