import CatalogSync.Deployment.Basic
import CatalogSync.Naming.Name
import CatalogSync.Registry.Entity
/-!
# Evidence that a deployment serves a version

Three kinds of evidence tie a deployment to a registered version, the strongest first: the labels
of the deployment name the version; a serving record of the registry does; or the registry keeps no
serving records at all and the deployment is named after the version.

Of several deployments that serve one version, the one with the strongest evidence is published,
and of equals the first by namespace and name.
-/

namespace CatalogSync

open Registry (RegisteredModel ModelVersion ServingRecord)

namespace Correlation

/-! ## §1 Kinds of evidence -/

/-- Why a deployment is taken to serve a version. -/
inductive Strategy where
  -- The labels of the deployment name the version.
  | labels
  -- A serving record names the version and leads to the deployment.
  | servingEnvironment
  -- The deployment is named after the version.
  | nameHeuristic
  deriving DecidableEq, Repr

def Strategy.name : Strategy → String
  | labels => "labels"
  | servingEnvironment => "serving_environment"
  | nameHeuristic => "name_heuristic"

/-- The strength of a kind of evidence; a smaller rank is stronger. -/
def Strategy.rank : Strategy → Nat
  | labels => 0
  | servingEnvironment => 1
  | nameHeuristic => 2

/-- The name of a deployment that is named after a version. -/
def heuristicName (model : RegisteredModel) (version : ModelVersion) : String :=
  Name.sanitize model.name ++ "-" ++ Name.sanitize version.name

/-- Whether a record leads to a deployment, given the name of the record's environment: the record
asks for a deployment in that namespace, whose name begins with the record's runtime. -/
def recordServes (record : ServingRecord) (d : Deployment) (environment : String) : Bool :=
  match record.runtime.bind Text.nonEmpty? with
  -- A record without a runtime would lead to every deployment, so it leads to none.
  | none => false
  | some runtime =>
    record.isDeployed && environment == d.ns && Text.startsWith d.name runtime

/-! ## §2 Versions whose surroundings are known -/

/-- What is known of a registry's serving records. -/
structure Records where
  records : List ServingRecord
  -- The names of the environments by their ids.
  environments : SortedMap String String

namespace Records

/-- Whether a record of a version leads to a deployment. -/
def serves (r : Records) (version : ModelVersion) (d : Deployment) : Bool :=
  r.records.any fun record => record.versionId == some version.id &&
    (r.environments.get? record.environmentId).any (recordServes record d ·)

/-- The strongest evidence that a deployment serves a version. -/
def strategy? (r : Records) (model : RegisteredModel) (version : ModelVersion) (d : Deployment) :
    Option Strategy :=
  if d.registryHints? = some ⟨model.id, version.id⟩ then some .labels
  else if r.serves version d then some .servingEnvironment
  -- Names count only where the registry keeps no serving records at all.
  else if r.records.isEmpty && d.name == heuristicName model version then some .nameHeuristic
  else none

end Records

/-! ## §3 The deployment that is published -/

/-- A deployment with the evidence that it serves a version. -/
structure Candidate where
  strategy : Strategy
  deployment : Deployment
  deriving DecidableEq

/-- Whether a candidate is preferred to another. -/
def Candidate.precedes (a b : Candidate) : Bool :=
  a.strategy.rank < b.strategy.rank ||
    (a.strategy.rank == b.strategy.rank &&
      (a.deployment.ns < b.deployment.ns ||
        (a.deployment.ns == b.deployment.ns && a.deployment.name < b.deployment.name)))

/-- The better of the best so far and a further candidate. -/
def Candidate.better (best : Option Candidate) (c : Candidate) : Option Candidate :=
  match best with
  | none => some c
  -- Of equals the earlier one stays.
  | some b => if c.precedes b then some c else some b

/-- The first candidate that none precedes. -/
def Candidate.best? (candidates : List Candidate) : Option Candidate :=
  candidates.foldl better none

/-- The deployments that serve a version, with the evidence. -/
def Records.candidates (r : Records) (model : RegisteredModel) (version : ModelVersion)
    (deployments : List Deployment) : List Candidate :=
  deployments.filterMap fun d => (r.strategy? model version d).map fun s => ⟨s, d⟩

/-- The deployment that is published with a version. -/
def Records.server? (r : Records) (model : RegisteredModel) (version : ModelVersion)
    (deployments : List Deployment) : Option Deployment :=
  (Candidate.best? (r.candidates model version deployments)).map (·.deployment)

end Correlation

end CatalogSync
