import CatalogSync.Proofs.Sync.Agreement
/-!
# Records that the next pass removes

A cycle may send a record whose key the next full pass does not submit, although nothing has changed
and every call succeeds. The pass then removes the record, and the next event brings it back.

This happens to records of deployments alone, and for one reason where no two deployments have one
name. A serving record that names a version in use together with a model that is not the version's
leads a cycle nowhere, so that the cycle takes the deployment to stand alone. A pass does not look
at the model that the record names, and takes the deployment to serve the version (`World.Misled`).
The key of the deployment is then submitted only if it is current for another reason, in the world
without the deployment. Records of versions are always kept.
-/

namespace CatalogSync.Sync

open Proc (Handler)
open Registry (RegisteredModel ModelVersion Directory Replies)
open Correlation (Match Stray)

variable {σ : Type} {h : Handler interface σ}

/-! ## §1 Keys and origins of what is sent -/

/-- What publishing sends has the key and the origin of its sources. -/
theorem of_mem_upserts_publish {style : Style} {sources : Catalog.Sources}
    {endpoint : Option String} {s : σ} {u : Upsert}
    (hu : u ∈ upserts ((publish style sources endpoint).proc.trace h s)) :
    sources.key = .ok u.key ∧ sources.provenance = u.provenance := by
  obtain ⟨entry, card, hentry, rfl⟩ := exists_entry_of_mem_publish hu
  exact of_entry hentry

/-- What a cycle sends for a deployment that stands alone is published from the deployment. -/
theorem upserts_publishAlone (h : Handler interface σ) (style : Style) (d : Deployment) (s : σ) :
    ∃ details s', upserts ((publishAlone style d).proc.trace h s) =
      upserts ((publish style (.ofDeployment style.defaults d details) none).proc.trace h s') := by
  unfold publishAlone
  rw [Task.trace_lift_bind, upserts_append, upserts_of_sendsNothing (sendsNothing_details? d),
    List.nil_append, upserts_andThen_return (publish style _ none) ()]
  exact ⟨_, _, rfl⟩

/-- What a cycle sends for a version is published from the version, unless the deployment that is
published with it cannot be chosen; then nothing is sent. -/
theorem upserts_publishMatch_eq (h : Handler interface σ) (style : Style) (found : Match)
    (d : Deployment) (s : σ) : upserts ((publishMatch style found d).proc.trace h s) = [] ∨
      ∃ server details s', upserts ((publishMatch style found d).proc.trace h s) =
        upserts ((publish style (.ofVersion style.defaults found.model found.version
          found.artifacts (some server) details) (some found.endpoint)).proc.trace h s') := by
  unfold publishMatch
  rw [Task.trace_bind, upserts_append, upserts_of_sendsNothing (sendsNothing_serverOf found d),
    List.nil_append]
  cases ((serverOf found d).proc.run h s).1 with
  | error f => exact .inl rfl
  | ok server =>
    simp only [Task.andThen]
    rw [Task.trace_lift_bind, upserts_append,
      upserts_of_sendsNothing (sendsNothing_details? server), List.nil_append,
      upserts_andThen_return (publish style _ _) ()]
    exact .inr ⟨_, _, _, rfl⟩

/-- What a cycle sends for a deployment that stands alone has the key of the deployment. -/
theorem of_mem_upserts_publishAlone {style : Style} {d : Deployment} {s : σ} {u : Upsert}
    (hu : u ∈ upserts ((publishAlone style d).proc.trace h s)) :
    ImportKey.forDeployment d.ns d.name = .ok u.key ∧ Provenance.clusterOnly = u.provenance := by
  obtain ⟨details, s', heq⟩ := upserts_publishAlone h style d s
  rw [heq] at hu
  exact of_mem_upserts_publish hu

/-- What a cycle sends for a version has the key of the version. -/
theorem of_mem_upserts_publishMatch {style : Style} {found : Match} {d : Deployment} {s : σ}
    {u : Upsert} (hu : u ∈ upserts ((publishMatch style found d).proc.trace h s)) :
    ImportKey.forModelVersion found.model.name found.version.name = .ok u.key ∧
      Provenance.registry = u.provenance := by
  rcases upserts_publishMatch_eq h style found d s with hnone | ⟨server, details, s', heq⟩
  · rw [hnone] at hu
    cases hu
  · rw [heq] at hu
    exact of_mem_upserts_publish hu

/-! ## §2 Misled passes -/

namespace World

variable (w : World) (directory : Directory)

/-- A stray record of a version that has a key leads to the deployment. -/
def Misled (d : Deployment) : Prop :=
  ∃ endpoint model version key, w.Keyed directory endpoint model version key ∧
    Stray (w.registry endpoint) d model version

/-- The world without a deployment, by namespace and name. -/
def without (d : Deployment) : World :=
  { w with deployments := w.deployments.filter fun other => !other.isSame d }

variable {w directory} {d : Deployment}

/-- A deployment that a stray record leads to counts as serving a version. -/
theorem Misled.serves (h : w.Misled directory d) : w.Serves directory d := by
  obtain ⟨endpoint, model, version, key, hkeyed, hstray⟩ := h
  exact ⟨endpoint, model, version, key, hkeyed, Correlation.strategy?_isSome_of_stray hstray⟩

theorem Keyed.without {endpoint : String} {model : RegisteredModel} {version : ModelVersion}
    {key : ImportKey} (hkeyed : w.Keyed directory endpoint model version key) :
    (w.without d).Keyed directory endpoint model version key :=
  ⟨hkeyed.endpoint_mem, hkeyed.live, hkeyed.key_eq⟩

theorem Keyed.of_without {endpoint : String} {model : RegisteredModel} {version : ModelVersion}
    {key : ImportKey} (hkeyed : (w.without d).Keyed directory endpoint model version key) :
    w.Keyed directory endpoint model version key :=
  ⟨hkeyed.endpoint_mem, hkeyed.live, hkeyed.key_eq⟩

theorem serves_without_iff (other : Deployment) :
    (w.without d).Serves directory other ↔ w.Serves directory other := by
  constructor
  · rintro ⟨endpoint, model, version, key, hkeyed, hmatch⟩
    exact ⟨endpoint, model, version, key, hkeyed.of_without, hmatch⟩
  · rintro ⟨endpoint, model, version, key, hkeyed, hmatch⟩
    exact ⟨endpoint, model, version, key, hkeyed.without, hmatch⟩

theorem mem_without_iff (other : Deployment) :
    other ∈ (w.without d).deployments ↔ other ∈ w.deployments ∧ other.isSame d = false := by
  show other ∈ w.deployments.filter _ ↔ _
  rw [List.mem_filter, Bool.not_eq_true']

/-- What covers another deployment is not the one that is left out. -/
theorem covered_without_iff {other : Deployment} (hother : other.isSame d = false) :
    (w.without d).Covered directory other ↔ w.Covered directory other := by
  constructor
  · rintro ⟨cover, hcover, hsame, hserves⟩
    exact ⟨cover, ((mem_without_iff cover).mp hcover).1, hsame,
      (serves_without_iff cover).mp hserves⟩
  · rintro ⟨cover, hcover, hsame, hserves⟩
    refine ⟨cover, (mem_without_iff cover).mpr ⟨hcover, ?_⟩, hsame,
      (serves_without_iff cover).mpr hserves⟩
    -- Otherwise the cover and the one covered would both be named like the one left out.
    rw [Bool.eq_false_iff] at hother ⊢
    intro hd
    rw [cover.isSame_comm other] at hsame
    exact hother (Deployment.isSame_trans hsame hd)

/-- A covered deployment adds no key of its own. -/
theorem current_without_iff (hcovered : w.Covered directory d) (key : ImportKey) :
    (w.without d).Current directory key ↔ w.Current directory key := by
  constructor
  · rintro (hkeyed | ⟨hother, hunmanaged, huncovered, hkey⟩)
    · exact .version hkeyed.of_without
    · obtain ⟨hmem, hdiffers⟩ := (mem_without_iff _).mp hother
      exact .deployment hmem hunmanaged
        (fun h => huncovered ((covered_without_iff hdiffers).mpr h)) hkey
  · rintro (hkeyed | ⟨hother, hunmanaged, huncovered, hkey⟩)
    · exact .version hkeyed.without
    · rename_i other
      -- One that is named like the covered deployment is covered as well.
      have hdiffers : other.isSame d = false := by
        rw [Bool.eq_false_iff]
        intro hsame
        obtain ⟨cover, hcover, hcoverSame, hserves⟩ := hcovered
        rw [other.isSame_comm d] at hsame
        exact huncovered ⟨cover, hcover, Deployment.isSame_trans hcoverSame hsame, hserves⟩
      exact .deployment ((mem_without_iff other).mpr ⟨hother, hdiffers⟩) hunmanaged
        (fun h => huncovered ((covered_without_iff hdiffers).mp h)) hkey

end World

/-! ## §3 What is kept -/

section

variable {w : World} {directory : Directory} (registries : ∀ endpoint ∈ directory.toList,
  w.AnsweredAt h endpoint ∧ (w.registry endpoint).Consistent) {d : Deployment} {s : σ}
include registries

/-- When a cycle finds no version for a deployment that serves one, a stray record leads to it. -/
theorem misled_of_unfound (hfound : ((correlate directory d).run h s).1 = none)
    (hserves : w.Serves directory d) : w.Misled directory d := by
  obtain ⟨endpoint, model, version, key, hkeyed, hmatch⟩ := hserves
  obtain ⟨registry, hr⟩ := registries endpoint hkeyed.endpoint_mem
  rw [run_correlate] at hfound
  obtain ⟨s', hnone⟩ := Correlation.forall_of_firstMatch_none hfound endpoint hkeyed.endpoint_mem
  obtain ⟨result, hresult, hagrees⟩ :=
    (Correlation.yields_search hr d).run (k := registryAt h endpoint) registry s'
  have hmatchAt := Correlation.run_matchAt (registryAt h endpoint) endpoint d s'
  rw [hresult] at hmatchAt
  cases result with
  | none => exact ⟨endpoint, model, version, key, hkeyed,
      hagrees.stray rfl ⟨model, version⟩ hkeyed.live hmatch⟩
  -- Then the registry would have had a match.
  | some f => exact absurd hmatchAt (hnone _)

/-- The key of a version that a cycle finds is current. -/
theorem current_of_found {found : Match} (hfound : ((correlate directory d).run h s).1 = some found)
    {key : ImportKey}
    (hkey : ImportKey.forModelVersion found.model.name found.version.name = .ok key) :
    w.Current directory key := by
  have hendpoint := (search_of_correlate hfound).1
  obtain ⟨registry, hr⟩ := registries found.endpoint hendpoint
  exact .version ⟨hendpoint, (foundIn_of_correlate hfound registry hr).live, hkey⟩

/-- The key of a deployment for which a cycle finds no version is current unless the deployment is
covered, and then it is current if it would be without the deployment. -/
theorem current_iff_of_unfound (hfound : ((correlate directory d).run h s).1 = none)
    (hd : d ∈ w.deployments) (unmanaged : d.isRegistryManaged = false) {key : ImportKey}
    (hkey : ImportKey.forDeployment d.ns d.name = .ok key) :
    w.Current directory key ↔ ¬ (w.Misled directory d ∨ w.Shadowed directory d) ∨
      (w.without d).Current directory key := by
  have hserves : w.Serves directory d ↔ w.Misled directory d :=
    ⟨misled_of_unfound registries hfound, World.Misled.serves⟩
  have hcovered : w.Covered directory d ↔ w.Misled directory d ∨ w.Shadowed directory d := by
    rw [World.covered_iff_serves_or_shadowed hd, hserves]
  rw [← hcovered]
  by_cases hlost : w.Covered directory d
  · -- The deployment is as if it were not there.
    rw [World.current_without_iff hlost, or_iff_right (not_not_intro hlost)]
  · exact iff_of_true (.deployment hd unmanaged hlost hkey) (.inl hlost)

end

/-- Where all calls are answered consistently, the key of a record that a cycle sends is submitted
by the next pass, unless the record is one of a deployment alone that a stray record leads to or
that has a namesake which serves a version; then its key is submitted only if it would be without
the deployment. -/
theorem kept_iff {b : Bridge} (hb : b.origin = .fixed) {w : World} (cluster : w.AnsweredCluster h)
    (registries : ∀ endpoint ∈ b.directory.toList,
      w.AnsweredAt h endpoint ∧ (w.registry endpoint).Consistent)
    (cancel : Cancellation) (ns name : String) (s s' : σ) :
    ∃ keys, submittedKeys ((b.fullPass none).trace h s') = [keys] ∧
      ∀ u ∈ upserts ((b.reconcile cancel ns name).trace h s),
        ∃ d ∈ w.deployments, d.ns = ns ∧ d.name = name ∧
          (w.Distinct → ¬ w.Shadowed b.directory d) ∧
          (u.key ∈ keys ↔ ¬ (u.provenance = .clusterOnly ∧
              (w.Misled b.directory d ∨ w.Shadowed b.directory d)) ∨
            (w.without d).Current b.directory u.key) := by
  have shown : w.ShownBy b.directory h := by
    refine ⟨fun s listed hlisted => ?_, fun endpoint hendpoint => ?_⟩
    · rw [cluster.deployments] at hlisted
      exact (Except.ok.inj hlisted).symm
    · exact Replies.shownBy_of_steady (registries endpoint hendpoint).1
  have hlisted : ((b.fullPass none).trace h s').any listingFailed = false := by
    rw [trace_fullPass_fixed hb]
    exact any_listingFailed_pass cluster registries b.style s'
  obtain ⟨keys, hkeys, -, hcurrent⟩ := (fullPass_submits hb shown s').submitted hlisted
  refine ⟨keys, hkeys, fun u hu => ?_⟩
  obtain ⟨d, hread, hsent⟩ := sentFor_of_reconcile hu
  obtain ⟨hd, hns, hname⟩ := of_read cluster hread
  refine ⟨d, hd, hns, hname, fun hw => hw.not_shadowed hd, ?_⟩
  rw [hcurrent]
  cases hsent with
  | @version found hfound sent =>
    obtain ⟨hkey, horigin⟩ := of_mem_upserts_publishMatch sent
    refine iff_of_true (current_of_found registries hfound hkey) (.inl fun hlone => ?_)
    rw [← horigin] at hlone
    cases hlone.1
  | alone hfound unmanaged ready sent =>
    obtain ⟨hkey, horigin⟩ := of_mem_upserts_publishAlone sent
    rw [current_iff_of_unfound registries hfound hd unmanaged hkey, and_iff_right horigin.symm]

/-- The record of a version that two deployments serve is kept. -/
theorem rival_kept :
    ∃ keys, submittedKeys ((mnistBridge.fullPass none).trace rivals.surroundings ()) = [keys] ∧
      ∀ u ∈ upserts ((mnistBridge.reconcile none "ns" "b").trace rivals.surroundings ()),
        u.key ∈ keys := by
  have hdistinct : rivals.Distinct := by
    unfold World.Distinct
    decide +kernel
  obtain ⟨keys, hkeys, hkept⟩ := kept_iff (b := mnistBridge) rfl rivals.answeredCluster_surroundings
    (fun endpoint _ => ⟨rivals.answeredAt_surroundings endpoint,
      Registry.Snapshot.consistent wellFormed_mnist endpoint⟩) none "ns" "b" () ()
  refine ⟨keys, hkeys, fun u hu => ?_⟩
  obtain ⟨d, hd, -, -, hshadowed, hiff⟩ := hkept u hu
  refine hiff.mpr (.inl ?_)
  rintro ⟨-, ⟨endpoint, model, version, key, -, record, hrecord, -⟩ | hshadow⟩
  · cases hrecord
  · exact hshadowed hdistinct hshadow

/-- A registry whose only record names its version together with a model that does not exist. -/
def strayed : Registry.Snapshot :=
  { mnist with
    records := [{ id := "r1", modelId := "9", versionId := some "2", environmentId := "e1",
                  runtime := some "fraud" }]
    environments := [{ id := "e1", name := "ns" }] }

theorem wellFormed_strayed : strayed.WellFormed where
  model_id := by decide +kernel
  models_distinct := by decide +kernel
  versions_distinct := by decide +kernel
  parent := by decide +kernel

/-- A deployment that is ready and that the record leads to. -/
def fraud : Deployment where
  ns := "ns"
  name := "fraud"
  statusUrl := some "https://fraud.example"
  status := {
    conditions := Deployment.requiredConditions.map fun type => { type, status := "True" }
    model := some { transition := some "UpToDate" } }

def misleading : World where
  deployments := [fraud]
  details _ := .ok {}
  registry := strayed.reply

/-- The cycle for the deployment sends a record, and the pass that follows in the same world submits
its keys without the key of that record. -/
theorem misled_record_removed :
    (∀ endpoint, (misleading.registry endpoint).Consistent) ∧
      (upserts ((mnistBridge.reconcile none "ns" "fraud").trace misleading.surroundings ())).map
        (·.key.text) = ["ns_fraud"] ∧
      (submittedKeys ((mnistBridge.fullPass none).trace misleading.surroundings ())).map
        (·.map ImportKey.text) = [["mnist_v1"]] := by
  refine ⟨Registry.Snapshot.consistent wellFormed_strayed, ?_, ?_⟩
  · decide +kernel
  · decide +kernel

end CatalogSync.Sync
