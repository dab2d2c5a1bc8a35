import CatalogSync.Proofs.Sync.FullPass
import CatalogSync.Proofs.Sync.Publication
/-!
# Cycles and passes publish the same records

A cycle reaches a version from a deployment, a full pass by listing the registries. Where the
deployments are read as they are and the registry of the version answers consistently, both send the
same record for it: the same key, the same provenance and the same body. Neither the storage service
nor the other registries have to answer in any particular way.
-/

namespace CatalogSync.Sync

open Proc (Handler)
open Registry (RegisteredModel ModelVersion Directory Replies)
open Correlation (Match)

variable {σ : Type} {h : Handler interface σ}

/-! ## §1 What a cycle sends -/

/-- A record that a cycle sends is one of the version that was found for the deployment, or of the
deployment itself when none was found, no registry manages it and it is ready. -/
inductive SentFor (h : Handler interface σ) (style : Style) (directory : Directory) (d : Deployment)
    (s : σ) (u : Upsert) : Prop where
  -- A version was found.
  | version {found : Match} (hfound : ((correlate directory d).run h s).1 = some found)
      (sent : u ∈ upserts ((publishMatch style found d).proc.trace h
        ((correlate directory d).run h s).2))
  -- No version was found.
  | alone (hfound : ((correlate directory d).run h s).1 = none)
      (unmanaged : d.isRegistryManaged = false) (ready : d.isReady = true)
      (sent : u ∈ upserts ((publishAlone style d).proc.trace h
        ((correlate directory d).run h s).2))

/-- What follows a task whose result is not used does not send anything. -/
theorem upserts_andThen_return {α β : Type} (t : Action α) (b : β) (s : σ) :
    upserts ((t >>= fun _ => (pure b : Action β)).proc.trace h s) = upserts (t.proc.trace h s) := by
  rw [Task.trace_bind, upserts_append]
  cases (t.proc.run h s).1 <;> simp [Task.andThen, upserts]

theorem sentFor_of_settle {style : Style} {directory : Directory} {d : Deployment} {s : σ}
    {u : Upsert} (hu : u ∈ upserts ((settle style directory d).proc.trace h s)) :
    SentFor h style directory d s u := by
  unfold settle at hu
  rw [Task.trace_lift_bind, upserts_append,
    upserts_of_sendsNothing (sendsNothing_correlate directory d), List.nil_append] at hu
  cases hfound : ((correlate directory d).run h s).1 with
  | some found =>
    rw [hfound] at hu
    apply SentFor.version hfound
    rwa [← upserts_andThen_return (publishMatch style found d) Next.settled]
  | none =>
    rw [hfound] at hu
    dsimp only at hu
    by_cases hmanaged : d.isRegistryManaged = true
    -- A deployment that a registry manages is left to that registry.
    · rw [if_pos hmanaged] at hu
      cases hu
    · rw [if_neg hmanaged] at hu
      by_cases hready : d.isReady = true
      · rw [if_pos hready] at hu
        apply SentFor.alone hfound (Bool.eq_false_iff.mpr hmanaged) hready
        rwa [← upserts_andThen_return (publishAlone style d) Next.settled]
      · rw [if_neg hready] at hu
        cases hu

/-- A cycle sends records only for the deployment that it has read. -/
theorem sentFor_of_cycle {style : Style} {directory : Directory} {ns name : String} {s : σ}
    {u : Upsert} (hu : u ∈ upserts ((cycle style directory ns name).proc.trace h s)) :
    ∃ d, (h (.deployment ns name) s).1 = .ok (some d) ∧
      SentFor h style directory d (h (.deployment ns name) s).2 u := by
  unfold cycle at hu
  rw [Task.trace_bind, upserts_append] at hu
  have hread : upserts ((deployment ns name).proc.trace h s) = [] := rfl
  rw [hread, List.nil_append] at hu
  change u ∈ upserts ((Task.andThen _ (h (.deployment ns name) s).1).trace h
    (h (.deployment ns name) s).2) at hu
  rcases hans : (h (.deployment ns name) s).1 with f | _ | d
  · rw [hans] at hu
    cases hu
  · -- A deployment that is gone leads to the request of a pass, and to nothing else.
    rw [hans] at hu
    cases hu
  · rw [hans] at hu
    exact ⟨d, rfl, sentFor_of_settle hu⟩

theorem sentFor_of_reconcile {b : Bridge} {cancel : Cancellation} {ns name : String} {s : σ}
    {u : Upsert} (hu : u ∈ upserts ((b.reconcile cancel ns name).trace h s)) :
    ∃ d, (h (.deployment ns name) s).1 = .ok (some d) ∧
      SentFor h b.style b.directory d (h (.deployment ns name) s).2 u :=
  sentFor_of_cycle (upserts_subset (trace_cancellable_front h cancel _ _ s).subset hu)

/-- The deployment that is read under a name is listed under that name. -/
theorem of_read {w : World} (cluster : w.AnsweredCluster h) {ns name : String} {s : σ}
    {d : Deployment} (hread : (h (.deployment ns name) s).1 = .ok (some d)) :
    d ∈ w.deployments ∧ d.ns = ns ∧ d.name = name := by
  rw [cluster.deployment] at hread
  have hfind := Except.ok.inj hread
  have hfits := List.find?_some hfind
  rw [Bool.and_eq_true, beq_iff_eq, beq_iff_eq] at hfits
  exact ⟨List.mem_of_find?_eq_some hfind, hfits.1, hfits.2⟩

/-! ## §2 What a search over the registries finds -/

theorem run_correlate (directory : Directory) (d : Deployment) (s : σ) :
    (correlate directory d).run h s =
      (Correlation.firstMatch d directory.toList).run (fun a s => h (.registry a) s) s :=
  Proc.run_through _ h _ s

/-- What is found was found by the search at one of the registries. -/
theorem search_of_correlate {directory : Directory} {d : Deployment} {s : σ} {found : Match}
    (hfound : ((correlate directory d).run h s).1 = some found) :
    found.endpoint ∈ directory.toList ∧ ∃ s' s'',
      ((Correlation.search d).proc.run (registryAt h found.endpoint) s').1 =
        .ok (some ⟨found.strategy, found.model, found.version⟩) ∧
      found.artifacts = (registryAt h found.endpoint
        (.artifacts found.version.id) s'').1.toOption.getD [] := by
  rw [run_correlate] at hfound
  obtain ⟨endpoint, hendpoint, s', hmatch⟩ := Correlation.exists_of_firstMatch hfound
  rw [Correlation.run_matchAt] at hmatch
  cases hsearch : ((Correlation.search d).proc.run
      (Correlation.registryOf (fun a s => h (.registry a) s) endpoint) s').1 with
  | error f =>
    rw [hsearch] at hmatch
    cases hmatch
  | ok result =>
    rw [hsearch] at hmatch
    cases result with
    | none => cases hmatch
    | some f =>
      cases hmatch
      exact ⟨hendpoint, s', _, hsearch, rfl⟩

/-- What was found at a registry that answers consistently is in use there, and matches the
deployment with the same evidence. -/
structure FoundIn (w : World) (d : Deployment) (found : Match) : Prop where
  live : (w.registry found.endpoint).Live found.model found.version
  -- The version matches with the same evidence.
  strategy : (w.registry found.endpoint).evidence.strategy? found.model found.version d =
    some found.strategy
  artifacts : found.artifacts = w.artifacts found.endpoint found.version

theorem foundIn_of_correlate {w : World} {directory : Directory} {d : Deployment} {s : σ}
    {found : Match} (hfound : ((correlate directory d).run h s).1 = some found)
    (registry : w.AnsweredAt h found.endpoint) (hr : (w.registry found.endpoint).Consistent) :
    FoundIn w d found := by
  obtain ⟨-, s', s'', hsearch, hartifacts⟩ := search_of_correlate hfound
  -- The search gives what it gives for the content of the registry.
  obtain ⟨result, hresult, hagrees⟩ :=
    (Correlation.yields_search hr d).run (k := registryAt h found.endpoint) registry s'
  obtain rfl : result = some ⟨found.strategy, found.model, found.version⟩ :=
    Except.ok.inj (hresult.symm.trans hsearch)
  refine ⟨hagrees.live _ rfl, hagrees.strategy _ rfl, ?_⟩
  rw [hartifacts]
  exact congrArg (fun answer => (Except.toOption answer).getD []) (registry _ s'')

/-! ## §3 One record from both -/

/-- A record that a cycle sends for a version, when the registry of the version answers consistently
and the deployments are read as they are, is sent by a full pass as well. -/
theorem reconcile_in_fullPass {b : Bridge} (hb : b.origin = .fixed) {w : World} (hw : w.Distinct)
    (cluster : w.AnsweredCluster h) {d : Deployment} (hd : d ∈ w.deployments) {s : σ}
    {found : Match}
    (hfound : ((correlate b.directory d).run h (h (.deployment d.ns d.name) s).2).1 = some found)
    (registry : w.AnsweredAt h found.endpoint) (hr : (w.registry found.endpoint).Consistent)
    (cancel : Cancellation) (s' : σ) :
    ∀ u ∈ upserts ((b.reconcile cancel d.ns d.name).trace h s),
      u ∈ upserts ((b.fullPass none).trace h s') := by
  intro u hu
  obtain ⟨read, hread, hsent⟩ := sentFor_of_reconcile hu
  obtain ⟨hlisted, hns, hname⟩ := of_read cluster hread
  -- The cycle has read the deployment in question, because no other has its name.
  obtain rfl : read = d := hw.eq_of_isSame hlisted hd (Deployment.isSame_iff.mpr ⟨hns, hname⟩)
  cases hsent with
  -- A version was found, so the deployment is not published alone.
  | alone hnone =>
    rw [hfound] at hnone
    cases hnone
  | @version found' hfound' sent =>
    obtain rfl : found = found' := Option.some.inj (hfound.symm.trans hfound')
    -- Both send what follows from the world for the version that was found.
    have hin := foundIn_of_correlate hfound registry hr
    rw [upserts_publishMatch cluster registry hr hw hd (by rw [hin.strategy]; rfl) hin.artifacts]
      at sent
    rw [trace_fullPass_fixed hb]
    exact versionUpserts_subset_pass cluster registry hr b.style (search_of_correlate hfound).1
      hin.live s' sent

/-- A deployment whose labels name the version of the registry. -/
def served (name : String) : Deployment where
  ns := "ns"
  name := name
  labels := .ofList [(Deployment.modelLabel, "1"), (Deployment.versionLabel, "2")]

/-- Two deployments that serve one version. -/
def rivals : World where
  deployments := [served "a", served "b"]
  details _ := .ok {}
  registry := mnist.reply

theorem wellFormed_mnist : mnist.WellFormed where
  model_id := by decide +kernel
  models_distinct := by decide +kernel
  versions_distinct := by decide +kernel
  parent := by decide +kernel

/-- The cycle for the second of the two sends the record of the first, as a pass does. -/
theorem reconcile_rival_in_fullPass :
    ∃ u ∈ upserts ((mnistBridge.reconcile none "ns" "b").trace rivals.surroundings ()),
      u ∈ upserts ((mnistBridge.fullPass none).trace rivals.surroundings ()) := by
  have hsent : 0 < (upserts ((mnistBridge.reconcile none "ns" "b").trace
      rivals.surroundings ())).length := by decide +kernel
  have hdistinct : rivals.Distinct := by
    unfold World.Distinct
    decide +kernel
  have hfound : ((correlate mnistBridge.directory (served "b")).run rivals.surroundings ()).1 =
      some { endpoint := "https://registry", strategy := .labels,
             model := { id := "1", name := "mnist" },
             version := { id := "2", name := "v1", modelId := "1" }, artifacts := [] } := by
    decide +kernel
  obtain ⟨u, hu⟩ := List.exists_mem_of_length_pos hsent
  exact ⟨u, hu, reconcile_in_fullPass (b := mnistBridge) rfl hdistinct
    rivals.answeredCluster_surroundings (List.mem_cons_of_mem _ List.mem_cons_self) hfound
    (rivals.answeredAt_surroundings _) (Registry.Snapshot.consistent wellFormed_mnist _) none ()
    u hu⟩

end CatalogSync.Sync
