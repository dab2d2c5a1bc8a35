import CatalogSync.Correlation.Evidence
import CatalogSync.Registry.Query
/-!
# Finding the version that a deployment serves

Registries are asked in the order of their endpoints. At each, the kinds of evidence are tried from
the strongest on, and the first version in use that one of them leads to is taken. A registry that
fails is passed over. What a registry does not know is no failure; that its artifacts cannot be read
is none either.
-/

namespace CatalogSync

open Registry (RegisteredModel ModelVersion Artifact ServingRecord Query Directory)

namespace Registry

/-- A task that asks one registry. -/
abbrev Inquiry (α : Type) := Task Registry.interface α

/-- Ask a question. -/
def question (q : Query) : Inquiry q.Reply := .ofProc (.call q .done)

/-- The result of an inquiry, or nothing where the registry does not know what was asked for. -/
def known? {α : Type} (i : Inquiry α) : Inquiry (Option α) := do
  match ← i.outcome with
  | .ok a => return some a
  | .error f => if f.status = some 404 then return none else throw f

/-- The artifacts of a version, or none where they cannot be read. -/
def artifactsOf (version : ModelVersion) : Inquiry (List Artifact) :=
  (question (.artifacts version.id)).orElse []

/-- Make an inquiry at the registry with an endpoint. -/
def inquire {α : Type} (endpoint : String) (i : Inquiry α) :
    Proc Registry.addressed (Except Fault α) :=
  i.proc.through fun q => .call ⟨endpoint, q⟩ .done

end Registry

namespace Correlation

open Registry (Inquiry question known? artifactsOf inquire)

/-! ## §1 Versions in use -/

structure Registered where
  model : RegisteredModel
  version : ModelVersion
  deriving DecidableEq

/-- The version and the model with the given ids, if both are known and in use and the version does
not belong to another model. -/
def live? (modelId versionId : String) : Inquiry (Option Registered) := do
  match ← known? (question (.version versionId)) with
  | none => return none
  | some version =>
    -- A version that names no model may belong to any.
    if version.isArchived || (version.modelId != "" && version.modelId != modelId) then return none
    else
      match ← known? (question (.model modelId)) with
      | none => return none
      | some model => return if model.isArchived then none else some { model, version }

/-! ## §2 The three kinds of evidence -/

def byLabels (d : Deployment) : Inquiry (Option Registered) :=
  match d.registryHints? with
  | none => return none
  | some hints => live? hints.modelId hints.versionId

/-- The names of environments as far as they have been asked for; an environment that the registry
does not know has no name. -/
abbrev KnownEnvironments := SortedMap String (Option String)

/-- The name of an environment, asked for at most once. -/
def environmentName (id : String) (known : KnownEnvironments) :
    Inquiry (Option String × KnownEnvironments) :=
  match known.get? id with
  | some name => return (name, known)
  | none => do
    let name := (← known? (question (.environment id))).map (·.name)
    return (name, known.insert id name)

/-- The version in use that the first fitting record names. -/
def byRecords (d : Deployment) : List ServingRecord → KnownEnvironments →
    Inquiry (Option Registered)
  | [], _ => return none
  | record :: rest, known =>
    match record.versionId with
    -- A record may name a model only.
    | none => byRecords d rest known
    | some versionId => do
      let (name, known) ← environmentName record.environmentId known
      if name.any (recordServes record d ·) then
        match ← live? record.modelId versionId with
        | some found => return some found
        -- What the record names is gone or archived; a later record may name another version.
        | none => byRecords d rest known
      else byRecords d rest known

/-- The first version in use, of models in use, that a deployment is named after. -/
def byName (d : Deployment) : List RegisteredModel → Inquiry (Option Registered)
  | [] => return none
  | model :: rest =>
    if model.isArchived then byName d rest
    else do
      let versions ← question (.versions model.id)
      match versions.find? fun v => !v.isArchived && heuristicName model v == d.name with
      | some version => return some { model, version }
      | none => byName d rest

/-! ## §3 One registry -/

structure Found where
  strategy : Strategy
  registered : Registered
  deriving DecidableEq

/-- The version that a registry's records or names lead to. -/
def byListing (d : Deployment) : Inquiry (Option Found) := do
  let records ← question .records
  match ← byRecords d records .empty with
  | some found => return some ⟨.servingEnvironment, found⟩
  | none =>
    -- Names count only where there are no records at all.
    if records.isEmpty then
      return (← byName d (← question .models)).map (⟨.nameHeuristic, ·⟩)
    else return none

/-- The version that a deployment serves according to one registry. -/
def search (d : Deployment) : Inquiry (Option Found) := do
  match ← byLabels d with
  | some found => return some ⟨.labels, found⟩
  | none => byListing d

/-! ## §4 All registries -/

/-- A version that a deployment serves, with what its registry says of it. -/
structure Match where
  endpoint : String
  strategy : Strategy
  model : RegisteredModel
  version : ModelVersion
  artifacts : List Artifact
  deriving DecidableEq

/-- The match at one registry. -/
def matchAt (endpoint : String) (d : Deployment) : Inquiry (Option Match) := do
  match ← search d with
  | none => return none
  | some ⟨strategy, model, version⟩ =>
    let artifacts ← artifactsOf version
    return some { endpoint, strategy, model, version, artifacts }

/-- The match at the first of the given registries that has one. -/
def firstMatch (d : Deployment) : List String → Proc Registry.addressed (Option Match)
  | [] => return none
  | endpoint :: rest => do
    match ← inquire endpoint (matchAt endpoint d) with
    | .ok (some found) => return some found
    -- A registry that fails is passed over like one without a match.
    | _ => firstMatch d rest

/-- The version that a deployment serves, if a registry knows it. -/
def correlate (directory : Directory) (d : Deployment) : Proc Registry.addressed (Option Match) :=
  firstMatch d directory.toList

/-! ## §5 The environments of records -/

/-- Name the environments of records; an environment that the registry does not know is left out. -/
def nameEnvironments : List ServingRecord → SortedMap String String →
    Inquiry (SortedMap String String)
  | [], names => return names
  | record :: rest, names =>
    if names.contains record.environmentId then nameEnvironments rest names
    else do
      match ← known? (question (.environment record.environmentId)) with
      | some e => nameEnvironments rest (names.insert record.environmentId e.name)
      | none => nameEnvironments rest names

def environmentNames (records : List ServingRecord) : Inquiry (SortedMap String String) :=
  nameEnvironments records .empty

/-- What is known of a registry's serving records. -/
def readRecords : Inquiry Records := do
  let records ← question .records
  return { records, environments := ← environmentNames records }

end Correlation

end CatalogSync
