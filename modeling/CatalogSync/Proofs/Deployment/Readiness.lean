import CatalogSync.Deployment.Source
import CatalogSync.Proofs.Effect.Ensures
/-!
# Deployments that may be published

A deployment is published without a registry only when it is ready and carries neither of the labels
by which a registry claims it. Both are tests on what the cluster reports (`Deployment.Ready`,
`Deployment.Unclaimed`). That the reported address is not empty is due to the way deployments are
read: whatever the cluster answers, only what `Deployment.ofService` makes is shown
(`Deployment.described_of_fetch`, `Deployment.described_of_fetchAll`).
-/

namespace CatalogSync.Deployment

open Cluster (InferenceService)

variable {d : Deployment}

/-! ## §1 Reads -/

/-- A deployment as it is read: an inference service describes it. -/
def Described (d : Deployment) : Prop := ∃ service, ofService service = .ok d

theorem Described.statusUrl_ne_empty (hd : d.Described) : ∀ url ∈ d.statusUrl, url ≠ "" := by
  obtain ⟨service, hservice⟩ := hd
  unfold ofService at hservice
  cases hns : namespaceOf service with
  | error f =>
    rw [hns] at hservice
    cases hservice
  | ok ns =>
    rw [hns] at hservice
    cases hservice
    intro url hurl
    obtain ⟨_, -, hurl⟩ := Option.bind_eq_some_iff.mp hurl
    exact (Text.nonEmpty?_eq_some_iff.mp hurl).2

section

variable {σ : Type} (h : Proc.Handler Cluster.interface σ)

/-- A deployment that is read is described, whatever the cluster answers. -/
theorem described_of_fetch {ns name : String} {s : σ}
    (hread : ((fetch ns name).proc.run h s).1 = .ok (some d)) : d.Described := by
  have hfetch : (fetch ns name).Ensures (fun _ _ => True)
      (fun _ found => ∀ d ∈ found, d.Described) [] := by
    refine .bind (.trivial _) fun now found _ _ => ?_
    cases found with
    | none => exact .pure fun d hd => nomatch hd
    | some service =>
      refine .bind (Q := fun _ d => ofService service = .ok d) (.ofExcept _ fun d hd => hd)
        fun _ d' _ hd' => .pure fun d hd => ?_
      obtain rfl := Option.some.inj hd
      exact ⟨service, hd'⟩
  exact hfetch.result (Proc.ends_run h _ s) (some d) hread d rfl

theorem described_of_fetchAll {s : σ} {listed : List Deployment}
    (hread : (fetchAll.proc.run h s).1 = .ok listed) : ∀ d ∈ listed, d.Described := by
  have hfetch : fetchAll.Ensures (fun _ _ => True)
      (fun _ listed => ∀ d ∈ listed, d.Described) [] := by
    refine .bind (.trivial _) fun now services _ _ => .pure fun d hd => ?_
    obtain ⟨service, -, hservice⟩ := List.mem_filterMap.mp hd
    cases hof : ofService service with
    | error f =>
      rw [hof] at hservice
      cases hservice
    | ok d' =>
      rw [hof] at hservice
      obtain rfl := Option.some.inj hservice
      exact ⟨service, hof⟩
  exact hfetch.result (Proc.ends_run h _ s) listed hread

end

/-! ## §2 Tests -/

/-- What makes a deployment ready. -/
structure Ready (d : Deployment) : Prop where
  reported : d.status.conditions ≠ []
  upToDate : d.status.model.bind (·.transition) = some "UpToDate"
  holds : ∀ type ∈ ["IngressReady", "PredictorReady", "Ready"],
    ∃ c ∈ d.status.conditions, c.type = type ∧ c.status = "True"
  reached : ∃ url, d.statusUrl = some url ∧ url ≠ ""

/-- None of the labels is there by which a registry claims a deployment. -/
structure Unclaimed (d : Deployment) : Prop where
  model : d.labels.get? modelLabel = none
  version : d.labels.get? versionLabel = none

theorem holds_iff (status : Cluster.ServingStatus) (type : String) :
    status.holds type = true ↔ ∃ c ∈ status.conditions, c.type = type ∧ c.status = "True" := by
  simp [Cluster.ServingStatus.holds]

theorem isReady_iff (hd : d.Described) : d.isReady = true ↔ d.Ready := by
  have hconditions : (requiredConditions.find? fun type => !d.status.holds type) = none ↔
      ∀ type ∈ ["IngressReady", "PredictorReady", "Ready"],
        ∃ c ∈ d.status.conditions, c.type = type ∧ c.status = "True" := by
    simp only [List.find?_eq_none, Bool.not_eq_true', Bool.not_eq_false, holds_iff,
      requiredConditions]
  unfold isReady unready?
  constructor
  · intro hready
    split at hready
    · cases hready
    next hreported =>
      split at hready
      · cases hready
      next hupToDate =>
        split at hready
        · cases hready
        next hholds =>
          split at hready
          · cases hready
          next hurl =>
            obtain ⟨url, hurl⟩ := Option.ne_none_iff_exists'.mp
              (fun hnone => hurl (Option.isNone_iff_eq_none.mpr hnone))
            exact {
              reported := fun hnil => hreported (List.isEmpty_iff.mpr hnil)
              upToDate := by simpa using hupToDate
              holds := hconditions.mp hholds
              reached := ⟨url, hurl, hd.statusUrl_ne_empty url hurl⟩ }
  · intro ⟨hreported, hupToDate, hholds, url, hurl, _⟩
    rw [if_neg (fun hempty => hreported (List.isEmpty_iff.mp hempty)), if_neg (by simp [hupToDate]),
      hconditions.mpr hholds]
    dsimp only
    rw [hurl]
    rfl

theorem isRegistryManaged_eq_false_iff : d.isRegistryManaged = false ↔ d.Unclaimed := by
  simp only [isRegistryManaged, SortedMap.contains, Bool.or_eq_false_iff, Option.isSome_eq_false_iff,
    Option.isNone_iff_eq_none]
  exact ⟨fun h => ⟨h.1, h.2⟩, fun h => ⟨h.model, h.version⟩⟩

end CatalogSync.Deployment
