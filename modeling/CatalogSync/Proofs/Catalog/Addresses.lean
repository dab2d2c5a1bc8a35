import CatalogSync.Proofs.Catalog.Presence
import Mathlib.Data.Option.Basic
/-!
# The addresses of an API

A served model is reached at the address that its deployment reports. The predictor may also have an
address within the cluster: the one that was looked up, or else one that the deployment reports for
it. The API shows that one in an annotation exactly when it is known, and shows it as its own
address when the reported address is within the cluster too (`api_addresses`).

The annotation with the address from outside is there exactly when the address of the API differs
from the known one within the cluster. So it never holds an address within the cluster as long as
one is known; otherwise a reported address is taken for one from outside, wherever it leads.
-/

namespace CatalogSync

/-! ## §1 Addresses within the cluster -/

namespace Deployment

/-- An address within the cluster. -/
def WithinCluster (url : String) : Prop := "svc.cluster.local".toList <:+: url.toList

theorem isClusterInternal_iff {url : String} :
    isClusterInternal url = true ↔ WithinCluster url := Text.occursIn_iff

end Deployment

namespace Catalog

open Deployment (WithinCluster isClusterInternal_iff)

/-! ## §2 The address of the predictor -/

namespace Sources

variable {s : Sources} {d : Deployment}

/-- What the sources give as the address of the predictor: what was looked up, or else the address
that is reported for it, or else the address at which it reports to be. -/
inductive Gives (s : Sources) (d : Deployment) : String → Prop where
  | lookedUp {url : String} (hurl : s.serving.bind (·.internalUrl) = some url) : Gives s d url
  | reported {predictor : Cluster.ComponentStatus} {url : String}
      (hnone : s.serving.bind (·.internalUrl) = none)
      (hpredictor : d.status.components.get? "predictor" = some predictor)
      (hurl : predictor.address.bind (·.url) = some url) : Gives s d url
  | own {predictor : Cluster.ComponentStatus} {url : String}
      (hnone : s.serving.bind (·.internalUrl) = none)
      (hpredictor : d.status.components.get? "predictor" = some predictor)
      (haddress : predictor.address.bind (·.url) = none) (hurl : predictor.url = some url) :
      Gives s d url

/-- An address of the predictor is known: the one that the sources give, unless it is empty. -/
structure Knows (s : Sources) (d : Deployment) (url : String) : Prop where
  given : s.Gives d url
  filled : url ≠ ""

theorem predictorUrl?_eq_some_iff {status : Cluster.ServingStatus} {url : String} :
    status.predictorUrl? = some url ↔ ∃ predictor,
      status.components.get? "predictor" = some predictor ∧
        (predictor.address.bind (·.url) = some url ∨
          predictor.address.bind (·.url) = none ∧ predictor.url = some url) := by
  rw [Cluster.ServingStatus.predictorUrl?, Option.bind_eq_bind, Option.bind_eq_some_iff]
  simp only [Option.orElse_eq_some]

theorem internalUrl?_eq_some_iff {url : String} :
    s.internalUrl? d = some url ↔ s.Gives d url := by
  rw [internalUrl?, Option.orElse_eq_some, predictorUrl?_eq_some_iff]
  constructor
  · rintro (hurl | ⟨hnone, predictor, hpredictor, hurl | ⟨haddress, hurl⟩⟩)
    · exact .lookedUp hurl
    · exact .reported hnone hpredictor hurl
    · exact .own hnone hpredictor haddress hurl
  · intro hgives
    cases hgives with
    | lookedUp hurl => exact .inl hurl
    | reported hnone hpredictor hurl => exact .inr ⟨hnone, _, hpredictor, .inl hurl⟩
    | own hnone hpredictor haddress hurl =>
      exact .inr ⟨hnone, _, hpredictor, .inr ⟨haddress, hurl⟩⟩

/-- The address of the predictor, where it is known. -/
def known? (s : Sources) (d : Deployment) : Option String := (s.internalUrl? d).bind Text.nonEmpty?

theorem known?_eq_some_iff {url : String} : s.known? d = some url ↔ s.Knows d url := by
  simp only [known?, Option.bind_eq_some_iff, Text.nonEmpty?_eq_some_iff, internalUrl?_eq_some_iff]
  constructor
  · rintro ⟨_, hgiven, rfl, hfilled⟩
    exact ⟨hgiven, hfilled⟩
  · intro hknows
    exact ⟨url, hknows.given, rfl, hknows.filled⟩

theorem known?_eq_none_iff : s.known? d = none ↔ ∀ url, ¬ s.Knows d url := by
  rw [Option.eq_none_iff_forall_ne_some]
  simp only [ne_eq, known?_eq_some_iff]

/-! ## §3 The API -/

theorem apiUrls_eq (status : String) : Deployment.apiUrls status (s.internalUrl? d) =
    (if Deployment.isClusterInternal status then (s.known? d).getD status else status,
      s.known? d) := by
  unfold Deployment.apiUrls known?
  dsimp only
  split <;> rfl

theorem get?_annotate_self (m : SortedMap String String) (name : String) (value : Option String) :
    (annotate m name value).get? name = value.or (m.get? name) := by
  cases value with
  | none => rfl
  | some v => rw [annotate, SortedMap.get?_insert, if_pos rfl, Option.some_or]

theorem get?_annotate_of_ne {m : SortedMap String String} {name other : String}
    {value : Option String} (hne : other ≠ name) :
    (annotate m name value).get? other = m.get? other := by
  cases value with
  | none => rfl
  | some v => rw [annotate, SortedMap.get?_insert, if_neg hne]

variable {status : String}

theorem url_apiPart : (s.apiPart d status).url =
    if Deployment.isClusterInternal status then (s.known? d).getD status else status := by
  rw [apiPart, apiUrls_eq]

theorem internal_apiPart :
    (s.apiPart d status).annotations.get? internalUrlAnnotation = s.known? d := by
  have hne : internalUrlAnnotation ≠ externalUrlAnnotation := by decide
  rw [apiPart, apiUrls_eq]
  dsimp only
  rw [get?_annotate_of_ne hne, get?_annotate_self, SortedMap.empty, SortedMap.get?_empty,
    Option.or_none]

theorem external_apiPart :
    (s.apiPart d status).annotations.get? externalUrlAnnotation =
      if (s.apiPart d status).url.isEmpty || s.known? d == some (s.apiPart d status).url then none
      else some (s.apiPart d status).url := by
  have hne : externalUrlAnnotation ≠ internalUrlAnnotation := by decide
  rw [url_apiPart, apiPart, apiUrls_eq]
  dsimp only
  rw [get?_annotate_self, get?_annotate_of_ne hne, SortedMap.empty, SortedMap.get?_empty,
    Option.or_none]

/-- A reported address within the cluster gives way to the one that is known. -/
theorem url_of_within {url : String} (hwithin : WithinCluster status) (hknown : s.Knows d url) :
    (s.apiPart d status).url = url := by
  rw [url_apiPart, if_pos (isClusterInternal_iff.mpr hwithin), known?_eq_some_iff.mpr hknown]
  rfl

/-- Any other reported address stays, and so does each while none is known. -/
theorem url_of_stays (hstays : WithinCluster status → ∀ url, ¬ s.Knows d url) :
    (s.apiPart d status).url = status := by
  rw [url_apiPart]
  by_cases hwithin : WithinCluster status
  · rw [if_pos (isClusterInternal_iff.mpr hwithin), known?_eq_none_iff.mpr (hstays hwithin)]
    rfl
  · rw [if_neg (mt isClusterInternal_iff.mp hwithin)]

/-- The annotation with the address from outside holds the reported address, unless that is the one
that is known, or has given way to it. -/
theorem external_eq_some_iff {url : String} (hstatus : status ≠ "") :
    (s.apiPart d status).annotations.get? externalUrlAnnotation = some url ↔
      url = status ∧ ¬ s.Knows d status ∧
        (WithinCluster status → ∀ known, ¬ s.Knows d known) := by
  rw [external_apiPart]
  by_cases hstays : WithinCluster status → ∀ known, ¬ s.Knows d known
  · have hfilled : status.isEmpty = false := by simpa using hstatus
    rw [url_of_stays hstays, hfilled, Bool.false_or]
    by_cases hknows : s.Knows d status
    · rw [known?_eq_some_iff.mpr hknows, if_pos (beq_self_eq_true _)]
      simp [hknows]
    · have hne : ¬ (s.known? d == some status) = true := by
        simpa [known?_eq_some_iff] using hknows
      rw [if_neg hne, Option.some.injEq]
      constructor
      · rintro rfl
        exact ⟨rfl, hknows, hstays⟩
      · rintro ⟨rfl, -, -⟩
        rfl
  · obtain ⟨hwithin, known, hknown⟩ : WithinCluster status ∧ ∃ known, s.Knows d known := by
      simpa using hstays
    rw [url_of_within hwithin hknown, known?_eq_some_iff.mpr hknown, beq_self_eq_true, Bool.or_true,
      if_pos rfl]
    constructor
    · intro hnone
      cases hnone
    · intro hexternal
      exact absurd hexternal.2.2 hstays

/-- The API of a served model: its annotation with the address within the cluster holds exactly the
known one, which is also its own address when the reported one is within the cluster. The annotation
with the address from outside keeps to the addresses that are not within the cluster and differ from
the known one, exactly unless the reported one is within the cluster and none is known. -/
theorem api_addresses (hserved : s.served? = some (d, status)) :
    ∃ server, s.serverPart? = some server ∧
      (∀ url, server.api.annotations.get? internalUrlAnnotation = some url ↔ s.Knows d url) ∧
      (∀ url, WithinCluster status → s.Knows d url → server.api.url = url) ∧
      ((WithinCluster status → ∀ url, ¬ s.Knows d url) → server.api.url = status) ∧
      (∀ url, server.api.annotations.get? externalUrlAnnotation = some url ↔
        url = status ∧ ¬ s.Knows d status ∧
          (WithinCluster status → ∀ known, ¬ s.Knows d known)) ∧
      ((∀ url, server.api.annotations.get? externalUrlAnnotation = some url ↔
          url = status ∧ ¬ WithinCluster status ∧ ¬ s.Knows d status) ↔
        ¬ (WithinCluster status ∧ ∀ known, ¬ s.Knows d known)) := by
  have hstatus : status ≠ "" := (served?_eq_some_iff.mp hserved).2.2
  have hserver : ∃ server, s.serverPart? = some server ∧ server.api = s.apiPart d status := by
    rw [serverPart?, hserved]
    exact ⟨_, rfl, rfl⟩
  obtain ⟨server, hserver, hapi⟩ := hserver
  refine ⟨server, hserver, ?_⟩
  rw [hapi]
  refine ⟨?_, ?_, url_of_stays, ?_, ?_⟩
  · intro url
    rw [internal_apiPart, known?_eq_some_iff]
  · intro url hwithin hknown
    exact url_of_within hwithin hknown
  · intro url
    exact external_eq_some_iff hstatus
  · simp only [external_eq_some_iff hstatus]
    constructor
    · rintro hrule ⟨hwithin, hunknown⟩
      exact ((hrule status).mp ⟨rfl, hunknown status, fun _ => hunknown⟩).2.1 hwithin
    · intro hnot url
      constructor
      · rintro ⟨rfl, hknows, hstays⟩
        exact ⟨rfl, fun hwithin => hnot ⟨hwithin, hstays hwithin⟩, hknows⟩
      · rintro ⟨rfl, hwithin, hknows⟩
        exact ⟨rfl, hknows, fun h => absurd h hwithin⟩

/-- A deployment at an address, with what it reports of its predictor. -/
def reporting (status : String) (predictor : Cluster.ComponentStatus) : Deployment :=
  { ns := "ns", name := "mnist", statusUrl := some status,
    status := { components := .ofList [("predictor", predictor)] } }

/-- A reported address within the cluster gives way to that of the predictor, which is no address
from outside. -/
theorem api_addresses_predictor :
    let d := reporting "http://mnist.ns.svc.cluster.local" { url := some "http://mnist:80" }
    ∃ server, (ofDeployment {} d none).serverPart? = some server ∧
      server.api.url = "http://mnist:80" ∧
      server.api.annotations.get? internalUrlAnnotation = some "http://mnist:80" ∧
      server.api.annotations.get? externalUrlAnnotation = none := by
  intro d
  obtain ⟨server, hserver, hinternal, hurl, -, hexternal, -⟩ :=
    api_addresses (s := ofDeployment {} d none) (d := d) rfl
  have hwithin : WithinCluster "http://mnist.ns.svc.cluster.local" :=
    isClusterInternal_iff.mp (by decide)
  have hknown : (ofDeployment {} d none).Knows d "http://mnist:80" :=
    ⟨.own rfl rfl rfl rfl, by decide⟩
  refine ⟨server, hserver, hurl _ hwithin hknown, (hinternal _).mpr hknown, ?_⟩
  rw [Option.eq_none_iff_forall_ne_some]
  intro url hsome
  exact ((hexternal url).mp hsome).2.2 hwithin _ hknown

/-- A reported address within the cluster is shown as one from outside when the predictor reports
none. -/
theorem internal_shown_as_external :
    let d := reporting "http://mnist.ns.svc.cluster.local" {}
    ∃ server, (ofDeployment {} d none).serverPart? = some server ∧
      WithinCluster "http://mnist.ns.svc.cluster.local" ∧
      server.api.annotations.get? externalUrlAnnotation =
        some "http://mnist.ns.svc.cluster.local" :=
  ⟨_, rfl, isClusterInternal_iff.mp (by decide), rfl⟩

end Sources

end Catalog

end CatalogSync
