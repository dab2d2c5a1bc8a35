import CatalogSync.Proofs.Catalog.Merge
import CatalogSync.Proofs.Correlation.Matching
import CatalogSync.Proofs.Sync.KeySet
/-!
# What is published for a version

Both a cycle and a full pass publish versions. What they send for a version follows from the world
alone (`World.versionUpserts`): from the version, its artifacts and its model card, and from the
deployment that is published with it. `upserts_publishVersion` says so for a pass and
`upserts_publishMatch` for a cycle, whichever of the deployments of the version it was started for.
-/

namespace CatalogSync.Sync

open Proc (Handler)
open Registry (RegisteredModel ModelVersion Directory Reads Replies Query)
open Correlation (Match server?_mem server?_isSome_iff)

variable {σ : Type} {h : Handler interface σ}

/-! ## §1 What follows from the world -/

namespace World

variable (w : World)

/-- How a deployment is reached, for one that has an address. -/
def details? (d : Deployment) : Option ServingDetails :=
  if d.statusUrl.isNone then none else (w.details d).toOption

/-- The deployment that is published with a version. -/
def server? (endpoint : String) (model : RegisteredModel) (version : ModelVersion) :
    Option Deployment :=
  (w.registry endpoint).evidence.server? model version w.deployments

def artifacts (endpoint : String) (version : ModelVersion) : List Registry.Artifact :=
  (w.registry endpoint (.artifacts version.id)).toOption.getD []

/-- The sources of the entry of a version. -/
def versionSources (style : Style) (endpoint : String) (model : RegisteredModel)
    (version : ModelVersion) : Catalog.Sources :=
  .ofVersion style.defaults model version (w.artifacts endpoint version)
    (w.server? endpoint model version) ((w.server? endpoint model version).bind w.details?)

/-- The model card of an entry of a registry. -/
def card? (endpoint : String) (entry : Catalog.Entry) : Option String :=
  entry.cardOrigin.bind fun origin =>
    (w.registry endpoint (.card origin)).toOption.getD none

/-- What is sent for a version: one record, unless the version can have no key. -/
def versionUpserts (style : Style) (endpoint : String) (model : RegisteredModel)
    (version : ModelVersion) : List Upsert :=
  match (w.versionSources style endpoint model version).entry with
  | .ok entry => [.ofEntry style entry (w.card? endpoint entry)]
  | .error _ => []

end World

/-- An entry has the key and the origin of its sources. -/
theorem of_entry {sources : Catalog.Sources} {entry : Catalog.Entry}
    (hentry : sources.entry = .ok entry) :
    sources.key = .ok entry.key ∧ sources.provenance = entry.provenance := by
  obtain ⟨key, hkey, rfl⟩ := Catalog.Sources.entry_eq_ok_iff.mp hentry
  exact ⟨hkey, rfl⟩

/-- A record that publishing sends is one of the entry that the sources make. -/
theorem exists_entry_of_mem_publish {style : Style} {sources : Catalog.Sources}
    {endpoint : Option String} {s : σ} {u : Upsert}
    (hu : u ∈ upserts ((publish style sources endpoint).proc.trace h s)) :
    ∃ entry card, sources.entry = .ok entry ∧ u = .ofEntry style entry card := by
  rw [upserts_publish] at hu
  cases hentry : sources.entry with
  | error f =>
    rw [hentry] at hu
    cases hu
  | ok entry =>
    rw [hentry] at hu
    exact ⟨entry, _, rfl, List.mem_singleton.mp hu⟩

/-! ## §2 Steady answers -/

section

variable {w : World} {endpoint : String}

theorem run_details? (cluster : w.AnsweredCluster h) (d : Deployment) (s : σ) :
    ((details? d).run h s).1 = w.details? d := by
  unfold details? World.details?
  by_cases hurl : d.statusUrl.isNone = true
  · rw [if_pos hurl, if_pos hurl]
    rfl
  · rw [if_neg hurl, if_neg hurl]
    exact congrArg Except.toOption (cluster.details d s)

variable (registry : w.AnsweredAt h endpoint)
include registry

theorem run_artifactsOf (version : ModelVersion) (s : σ) :
    ((inquire endpoint (Registry.artifactsOf version)).proc.run h s).1 =
      .ok (w.artifacts endpoint version) := by
  rw [run_inquire]
  show Except.ok ((h (.registry ⟨endpoint, .artifacts version.id⟩) s).1.toOption.getD []) = _
  rw [registry]
  rfl

theorem cardFrom_of_answeredAt (entry : Catalog.Entry) (s : σ) :
    cardFrom h s (some endpoint) entry = w.card? endpoint entry := by
  unfold cardFrom World.card?
  simp only [Option.bind_some, registry _ s]

/-- Publishing at a registry sends what the sources make, with the model card of that registry. -/
theorem upserts_publish_of_answeredAt (style : Style) (sources : Catalog.Sources) (s : σ) :
    upserts ((publish style sources (some endpoint)).proc.trace h s) =
      match sources.entry with
      | .ok entry => [.ofEntry style entry (w.card? endpoint entry)]
      | .error _ => [] := by
  rw [upserts_publish]
  cases sources.entry with
  | error f => rfl
  | ok entry =>
    show [Upsert.ofEntry style entry (cardFrom h s (some endpoint) entry)] = _
    rw [cardFrom_of_answeredAt registry]

end

/-! ## §3 In a full pass -/

/-- What the versions of a registry are published with, where everything could be read. -/
abbrev World.scope (w : World) (style : Style) (endpoint : String) : Scope :=
  ⟨style, w.deployments, endpoint, (w.registry endpoint).evidence⟩

theorem sendsNothing_versionSources (scope : Scope) (model : RegisteredModel)
    (version : ModelVersion) : SendsNothing (versionSources scope model version).proc := by
  refine Task.calls_bind (sendsNothing_inquire _ _) fun artifacts => ?_
  split
  · trivial
  · exact Task.calls_bind ((sendsNothing_details? _).bind fun _ => trivial) fun _ => trivial

section

variable {w : World} {endpoint : String} (cluster : w.AnsweredCluster h)
  (registry : w.AnsweredAt h endpoint)
include cluster registry

theorem run_versionSources (style : Style) (model : RegisteredModel) (version : ModelVersion)
    (s : σ) : ((versionSources (w.scope style endpoint) model version).proc.run h s).1 =
      .ok (w.versionSources style endpoint model version) := by
  unfold versionSources World.versionSources World.server?
  rw [Task.run_bind, run_artifactsOf registry]
  cases hserver : (w.registry endpoint).evidence.server? model version w.deployments with
  | none =>
    simp only [Task.andThen]
    rfl
  | some d =>
    simp only [Task.andThen]
    rw [Task.run_lift_bind, run_details? cluster]
    rfl

/-- A pass sends for a version what follows from the world. -/
theorem upserts_publishVersion (style : Style) (model : RegisteredModel) (version : ModelVersion)
    (s : σ) : upserts ((publishVersion (w.scope style endpoint) model version).proc.trace h s) =
      w.versionUpserts style endpoint model version := by
  unfold publishVersion
  rw [Task.trace_bind, upserts_append, run_versionSources cluster registry,
    upserts_of_sendsNothing (sendsNothing_versionSources _ model version), List.nil_append]
  exact upserts_publish_of_answeredAt registry style _ _

end

/-! ## §4 In a cycle -/

theorem sendsNothing_serverOf (found : Match) (d : Deployment) :
    SendsNothing (serverOf found d).proc := by
  refine Task.calls_bind ⟨rfl, fun _ => trivial⟩ fun listed => ?_
  refine Task.calls_bind (sendsNothing_inquire _ _) fun records => ?_
  split <;> trivial

section

variable {w : World} {found : Match} (cluster : w.AnsweredCluster h)
  (registry : w.AnsweredAt h found.endpoint) (hr : (w.registry found.endpoint).Consistent)
  (hw : w.Distinct)

include registry hr in
theorem run_readRecords (s : σ) :
    ((inquire found.endpoint Correlation.readRecords).proc.run h s).1 =
      .ok (w.registry found.endpoint).evidence := by
  have steady : ∀ q s, (registryAt h found.endpoint q s).1 = w.registry found.endpoint q := registry
  -- No listing fails, so what is read is what the content gives.
  have hlisted := Registry.any_listingFailed_of_calls steady hr.calls_readRecords s
  obtain ⟨records, hrun, hrecords⟩ :=
    (Registry.reads_readRecords (Replies.shownBy_of_steady steady) s).ok hlisted
  rw [run_inquire, hrun, hrecords]

include cluster registry hr hw in
/-- A cycle publishes the same deployment that a pass does. -/
theorem run_serverOf {d : Deployment} (hd : d ∈ w.deployments)
    (hmatch : ((w.registry found.endpoint).evidence.strategy? found.model found.version
      d).isSome = true) (s : σ) :
    ∃ server, w.server? found.endpoint found.model found.version = some server ∧
      ((serverOf found d).proc.run h s).1 = .ok server := by
  have hsome : (w.server? found.endpoint found.model found.version).isSome = true :=
    (server?_isSome_iff _ _ _ _).mpr ⟨d, hd, hmatch⟩
  obtain ⟨server, hserver⟩ := Option.isSome_iff_exists.mp hsome
  refine ⟨server, hserver, ?_⟩
  unfold serverOf
  rw [Task.run_bind]
  show (Task.andThen _ (h .deployments s).1 |>.run h (h .deployments s).2).1 = _
  rw [cluster.deployments]
  show ((inquire found.endpoint Correlation.readRecords >>= _).proc.run h _).1 = _
  rw [Task.run_bind, run_readRecords registry hr]
  simp only [Task.andThen, hw.update_eq hd]
  unfold World.server? at hserver
  rw [hserver]
  show Except.ok (if server.isSame d then d else server) = _
  -- The deployment that the cycle was started for is as it is listed.
  by_cases hsame : server.isSame d = true
  · rw [if_pos hsame, hw.eq_of_isSame (server?_mem hserver) hd hsame]
  · rw [if_neg hsame]

include cluster registry hr hw in
/-- A cycle sends for the version that it has found what follows from the world. -/
theorem upserts_publishMatch {d : Deployment} (hd : d ∈ w.deployments)
    (hmatch : ((w.registry found.endpoint).evidence.strategy? found.model found.version
      d).isSome = true) (hartifacts : found.artifacts = w.artifacts found.endpoint found.version)
    (style : Style) (s : σ) : upserts ((publishMatch style found d).proc.trace h s) =
      w.versionUpserts style found.endpoint found.model found.version := by
  obtain ⟨server, hserver, hrun⟩ := run_serverOf cluster registry hr hw hd hmatch s
  -- The sources of the cycle are those of the pass.
  have hsources : w.versionSources style found.endpoint found.model found.version =
      .ofVersion style.defaults found.model found.version found.artifacts (some server)
        (w.details? server) := by
    unfold World.versionSources
    rw [hserver, hartifacts]
    rfl
  unfold publishMatch
  rw [Task.trace_bind, upserts_append, hrun,
    upserts_of_sendsNothing (sendsNothing_serverOf found d), List.nil_append]
  show upserts ((_ >>= _ : Action Unit).proc.trace h _) = _
  rw [Task.trace_lift_bind, upserts_append,
    upserts_of_sendsNothing (sendsNothing_details? server), List.nil_append,
    run_details? cluster]
  rw [Task.trace_bind, upserts_append, ← hsources, upserts_publish_of_answeredAt registry]
  -- The end of the task calls nothing.
  have hrest (r : Except Fault ImportKey) (s' : σ) :
      upserts ((Task.andThen (fun _ => (pure () : Action Unit)) r).trace h s') = [] := by
    cases r <;> rfl
  rw [hrest, List.append_nil]
  rfl

end

/-! ## §5 Every version in use is published by a pass -/

theorem upserts_subset {t t' : List (Event interface)} (ht : t ⊆ t') : upserts t ⊆ upserts t' :=
  List.filterMap_subset _ ht

section

variable {w : World} {endpoint : String} (cluster : w.AnsweredCluster h)
  (registry : w.AnsweredAt h endpoint) (hr : (w.registry endpoint).Consistent)

include cluster registry in
/-- What is sent for a version is sent when the version is visited. -/
theorem upserts_visitVersion (style : Style) (model : RegisteredModel) (version : ModelVersion)
    (p : Progress) (s : σ) :
    upserts ((visitVersion (w.scope style endpoint) model p version).trace h s) =
      w.versionUpserts style endpoint model version := by
  rw [← upserts_publishVersion cluster registry style model version s]
  unfold visitVersion
  cases hkey : ImportKey.forModelVersion model.name version.name with
  | ok key =>
    show upserts ((_ >>= _ : Proc interface Progress).trace h s) = _
    rw [Proc.trace_bind, upserts_append]
    exact List.append_nil _
  | error f =>
    -- Without a key there is no entry, and so nothing to send.
    rw [upserts_publishVersion cluster registry]
    unfold World.versionUpserts
    cases hentry : (w.versionSources style endpoint model version).entry with
    | error f => rfl
    | ok entry =>
      have hsome : ImportKey.forModelVersion model.name version.name = .ok entry.key :=
        (of_entry hentry).1
      rw [hkey] at hsome
      cases hsome

include registry hr in
theorem any_listingFailed_listRegistry (s : σ) :
    (listRegistry.proc.trace (registryAt h endpoint) s).any Registry.listingFailed = false := by
  refine Registry.any_listingFailed_of_calls (r := w.registry endpoint) registry ?_ s
  refine Task.calls_bind ⟨?_, fun _ => trivial⟩ fun models => ?_
  · show Query.models.fails (w.registry endpoint .models) = false
    rw [hr.models_eq]
    rfl
  · exact Task.calls_bind hr.calls_readRecords fun _ => trivial

include registry hr in
theorem run_listRegistry (s : σ) : ((inquire endpoint listRegistry).proc.run h s).1 =
    .ok ((w.registry endpoint).models, (w.registry endpoint).evidence) := by
  obtain ⟨listed, hrun, hlisted⟩ :=
    (reads_listRegistry (Replies.shownBy_of_steady (r := w.registry endpoint) registry) s).ok
      (any_listingFailed_listRegistry registry hr s)
  rw [run_inquire, hrun, hlisted]

include registry hr in
theorem trace_visitModel_subset (scope : Scope) (hscope : scope.endpoint = endpoint)
    {model : RegisteredModel} {version : ModelVersion}
    (hlive : (w.registry endpoint).Live model version) (p : Progress) (s : σ) :
    ∃ p' s', (visitVersion scope model p' version).trace h s' ⊆
      (visitModel scope p model).trace h s := by
  subst hscope
  have hversions : ((inquire scope.endpoint (Registry.question (.versions model.id))).proc.run h
      s).1 = .ok ((w.registry scope.endpoint).versions model.id) := by
    rw [run_inquire]
    exact (registry _ s).trans (hr.versions_eq hlive.model_mem)
  unfold visitModel
  rw [Proc.trace_bind, hversions]
  obtain ⟨p', s', hsub⟩ := Proc.trace_subset_trace_foldlM h (visitVersion scope model)
    (l := ((w.registry scope.endpoint).versions model.id).filter (!·.isArchived)) (a := version)
    (List.mem_filter.mpr ⟨hlive.version_mem, by rw [hlive.version_live]; rfl⟩) p _
  exact ⟨p', s', List.Subset.trans hsub (List.subset_append_right _ _)⟩

include registry hr in
theorem trace_visitRegistry_subset (style : Style) (deployments : List Deployment)
    {model : RegisteredModel} {version : ModelVersion}
    (hlive : (w.registry endpoint).Live model version) (p : Progress) (s : σ) :
    ∃ p' s', (visitVersion ⟨style, deployments, endpoint, (w.registry endpoint).evidence⟩ model p'
        version).trace h s' ⊆
      (visitRegistry style deployments p endpoint).trace h s := by
  unfold visitRegistry
  rw [Proc.trace_bind, run_listRegistry registry hr]
  obtain ⟨p₁, s₁, hsub₁⟩ := Proc.trace_subset_trace_foldlM h
    (visitModel ⟨style, deployments, endpoint, (w.registry endpoint).evidence⟩)
    (l := (w.registry endpoint).models.filter (!·.isArchived)) (a := model)
    (List.mem_filter.mpr ⟨hlive.model_mem, by rw [hlive.model_live]; rfl⟩) p _
  obtain ⟨p₂, s₂, hsub₂⟩ := trace_visitModel_subset registry hr
    ⟨style, deployments, endpoint, (w.registry endpoint).evidence⟩ rfl hlive p₁ s₁
  exact ⟨p₂, s₂, List.Subset.trans (List.Subset.trans hsub₂ hsub₁) (List.subset_append_right _ _)⟩

include cluster registry hr in
/-- A pass sends, for every version in use of a registry that answers consistently, what follows
from the world. -/
theorem versionUpserts_subset_pass (style : Style) {directory : Directory}
    (hendpoint : endpoint ∈ directory.toList) {model : RegisteredModel} {version : ModelVersion}
    (hlive : (w.registry endpoint).Live model version) (s : σ) :
    w.versionUpserts style endpoint model version ⊆
      upserts ((pass style directory).proc.trace h s) := by
  obtain ⟨p₁, s₁, hsub₁⟩ := Proc.trace_subset_trace_foldlM h (visitRegistry style w.deployments)
    hendpoint { complete := true } (h .deployments s).2
  obtain ⟨p₂, s₂, hsub₂⟩ := trace_visitRegistry_subset registry hr style w.deployments hlive p₁ s₁
  -- The visits of the registries are a part of the pass.
  have hhalves : (directory.toList.foldlM (visitRegistry style w.deployments)
      { complete := true }).trace h (h .deployments s).2 ⊆
      (pass style directory).proc.trace h s := by
    rw [trace_pass, trace_visitAll, cluster.deployments]
    refine List.Subset.trans ?_ (List.subset_append_left _ _)
    refine List.Subset.trans ?_ (List.subset_cons_self _ _)
    unfold halves
    rw [Proc.trace_bind]
    exact List.subset_append_left _ _
  have htrace := List.Subset.trans (List.Subset.trans hsub₂ hsub₁) hhalves
  rw [← upserts_visitVersion cluster registry style model version p₂ s₂]
  exact upserts_subset htrace

end

/-! ## §6 No listing fails where all answers are consistent -/

section

variable {w : World} {endpoint : String} (registry : w.AnsweredAt h endpoint)
  (hr : (w.registry endpoint).Consistent)
include registry hr

theorem any_listingFailed_visitModel (scope : Scope) (hscope : scope.endpoint = endpoint)
    {model : RegisteredModel} (hmodel : model ∈ (w.registry endpoint).models) (p : Progress)
    (s : σ) : ((visitModel scope p model).trace h s).any listingFailed = false := by
  subst hscope
  have hversions : (h (.registry ⟨scope.endpoint, .versions model.id⟩) s).1 =
      .ok ((w.registry scope.endpoint).versions model.id) :=
    (registry _ s).trans (hr.versions_eq hmodel)
  unfold visitModel
  rw [Proc.trace_bind, List.any_append, Bool.or_eq_false_iff]
  constructor
  · show (listingFailed ⟨.registry _, _⟩ || _) = false
    simp only [hversions]
    rfl
  · have hrun : ((inquire scope.endpoint (Registry.question (.versions model.id))).proc.run h
        s).1 = .ok ((w.registry scope.endpoint).versions model.id) := hversions
    rw [hrun]
    exact Proc.any_trace_foldlM (fun version _ p s =>
      any_listingFailed_of_quiet (quiet_visitVersion scope model version p) s) p _

theorem any_listingFailed_visitRegistry (style : Style) (deployments : List Deployment)
    (p : Progress) (s : σ) :
    ((visitRegistry style deployments p endpoint).trace h s).any listingFailed = false := by
  unfold visitRegistry
  rw [Proc.trace_bind, List.any_append, Bool.or_eq_false_iff]
  constructor
  · rw [trace_inquire, any_listingFailed_addressed]
    exact any_listingFailed_listRegistry registry hr s
  · rw [run_listRegistry registry hr]
    refine Proc.any_trace_foldlM (fun model hmodel p s => ?_) p _
    exact any_listingFailed_visitModel registry hr _ rfl (List.mem_filter.mp hmodel).1 p s

end

theorem any_listingFailed_pass {w : World} (cluster : w.AnsweredCluster h)
    {directory : Directory} (registries : ∀ endpoint ∈ directory.toList,
      w.AnsweredAt h endpoint ∧ (w.registry endpoint).Consistent) (style : Style) (s : σ) :
    ((pass style directory).proc.trace h s).any listingFailed = false := by
  rw [trace_pass, List.any_append, Bool.or_eq_false_iff, trace_visitAll, List.any_cons,
    cluster.deployments]
  constructor
  · show ((halves style directory (.ok w.deployments)).trace h _).any listingFailed = false
    unfold halves
    rw [Proc.trace_bind, List.any_append, Bool.or_eq_false_iff]
    constructor
    · refine Proc.any_trace_foldlM (fun endpoint hendpoint p s => ?_) _ _
      obtain ⟨registry, hr⟩ := registries endpoint hendpoint
      exact any_listingFailed_visitRegistry registry hr style _ p s
    · exact Proc.any_trace_foldlM (fun d _ p s =>
        any_listingFailed_of_quiet (quiet_visitDeployment style p d) s) _ _
  · dsimp only
    split <;> rfl

end CatalogSync.Sync
