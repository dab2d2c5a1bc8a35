import CatalogSync.Proofs.Sync.KeySet
import CatalogSync.Registry.Snapshot
/-!
# Full passes of a bridge

The registries of a bridge are fixed, or they are searched for again at the start of every pass.
Either way a pass submits the current keys of the registries that it looks at, unless one of its
listings fails.

A route that cannot be looked up is no failed listing: its registry is left out of the directory,
and the keys of its versions are left out of those that are submitted. The records of that registry
are then removed although nothing is known of it.

Of deployments with one namespace and name, the pass takes all to serve a version when one of them
does.
-/

namespace CatalogSync

/-- Whether a search for a route has brought no answer. That there is no route is an answer. -/
def Registry.RouteAnswer.isFailure : Registry.RouteAnswer → Bool
  | .failed _ | .timedOut => true
  | _ => false

namespace Sync

open Proc (Handler)
open Registry (RegisteredModel ModelVersion Directory RouteAnswer)

variable {σ : Type} {h : Handler interface σ}

/-! ## §1 Before the pass -/

/-- A pass of a bridge looks at the registries that it has found just before. -/
theorem trace_fullPass (b : Bridge) (s : σ) :
    (b.fullPass none).trace h s = b.refresh.trace h s ++
      (pass (b.refresh.run h s).1.style (b.refresh.run h s).1.directory).proc.trace h
        (b.refresh.run h s).2 := by
  show (b.refresh >>= fun b =>
    (pass b.style b.directory).proc >>= fun r => .done (r, b)).trace h s = _
  rw [Proc.trace_bind, Proc.trace_bind, Proc.trace_done, List.append_nil]

/-- Calls beforehand that list nothing and submit nothing do not change what is submitted. -/
theorem World.SubmitsCurrent.append_left {w : World} {directory : Directory}
    {t t' : List (Event interface)} (ht : w.SubmitsCurrent directory t)
    (hlisted : t'.any listingFailed = false) (hnone : submittedKeys t' = []) :
    w.SubmitsCurrent directory (t' ++ t) where
  withheld hfailed := by
    rw [List.any_append, hlisted, Bool.false_or] at hfailed
    rw [submittedKeys_append, hnone, ht.withheld hfailed, List.append_nil]
  submitted hfine := by
    rw [List.any_append, hlisted, Bool.false_or] at hfine
    rw [submittedKeys_append, hnone, List.nil_append]
    exact ht.submitted hfine

/-! ## §2 Fixed registries -/

theorem trace_fullPass_fixed {b : Bridge} (hb : b.origin = .fixed) (s : σ) :
    (b.fullPass none).trace h s = (pass b.style b.directory).proc.trace h s := by
  have hrefresh : b.refresh = .done b := by
    unfold Bridge.refresh
    rw [hb]
    rfl
  rw [trace_fullPass, hrefresh]
  rfl

theorem fullPass_submits {b : Bridge} (hb : b.origin = .fixed) {w : World}
    (shown : w.ShownBy b.directory h) (s : σ) :
    w.SubmitsCurrent b.directory ((b.fullPass none).trace h s) := by
  rw [trace_fullPass_fixed hb]
  exact pass_submits shown.registry b.style (shown.deployments s)

/-- With fixed registries, a pass submits its keys once, in ascending order, unless one of its
listings fails, and then not at all. The keys are those of the versions in use, and those of the
unmanaged deployments without a namesake that serves one of these versions. -/
theorem fullPass_fixed {b : Bridge} (hb : b.origin = .fixed) {w : World}
    (shown : w.ShownBy b.directory h) (s : σ) :
    let t := (b.fullPass none).trace h s
    (t.any listingFailed = true → submittedKeys t = []) ∧
      (t.any listingFailed = false → ∃ keys, submittedKeys t = [keys] ∧ keys.Pairwise (· < ·) ∧
        (∀ k, k ∈ keys ↔
          (∃ endpoint model version, w.Keyed b.directory endpoint model version k) ∨
            ∃ d ∈ w.deployments, d.isRegistryManaged = false ∧ ¬ w.Covered b.directory d ∧
              ImportKey.forDeployment d.ns d.name = .ok k) ∧
        (w.Distinct → ∀ d ∈ w.deployments,
          (w.Covered b.directory d ↔ w.Serves b.directory d))) := by
  have hsubmits := fullPass_submits hb shown s
  refine ⟨hsubmits.withheld, fun hlisted => ?_⟩
  obtain ⟨keys, hkeys, hpairwise, hcurrent⟩ := hsubmits.submitted hlisted
  refine ⟨keys, hkeys, hpairwise, fun k => ?_, fun hw d hd => World.covered_iff_serves hw hd⟩
  rw [hcurrent]
  constructor
  · rintro (hkeyed | ⟨hd, hunmanaged, huncovered, hkey⟩)
    · exact .inl ⟨_, _, _, hkeyed⟩
    · exact .inr ⟨_, hd, hunmanaged, huncovered, hkey⟩
  · rintro (⟨endpoint, model, version, hkeyed⟩ | ⟨d, hd, hunmanaged, huncovered, hkey⟩)
    · exact .version hkeyed
    · exact .deployment hd hunmanaged huncovered hkey

/-- A registry with one version in use. -/
def mnist : Registry.Snapshot where
  models := [{ id := "1", name := "mnist" }]
  versions := [{ id := "2", name := "v1", modelId := "1" }]

def mnistKey : ImportKey := ⟨"mnist_v1", by decide +kernel⟩

/-- A bridge with one fixed registry. -/
def mnistBridge : Bridge where
  style := { format := .catalogInfoYaml }
  directory := .ofList ["https://registry"]

/-- Two deployments with one namespace and name, of which the labels of the first name a version. -/
def twins : World where
  deployments := [
    { ns := "ns", name := "a",
      labels := .ofList [(Deployment.modelLabel, "1"), (Deployment.versionLabel, "2")] },
    { ns := "ns", name := "a" }]
  details _ := .ok {}
  registry := mnist.reply

theorem fullPass_fixed_mnist :
    ∃ keys, submittedKeys ((mnistBridge.fullPass none).trace twins.surroundings ()) = [keys] ∧
      keys.Pairwise (· < ·) := by
  have hpass := fullPass_fixed (b := mnistBridge) rfl (twins.shownBy_surroundings _) ()
  obtain ⟨keys, hkeys, hpairwise, -⟩ := hpass.2 (by decide +kernel)
  exact ⟨keys, hkeys, hpairwise⟩

/-- A deployment that serves nothing is left out because its namesake serves a version. -/
theorem twin_left_out :
    let t := (mnistBridge.fullPass none).trace twins.surroundings ()
    t.any listingFailed = false ∧
      ∃ d ∈ twins.deployments, d.isRegistryManaged = false ∧
        ¬ twins.Serves mnistBridge.directory d ∧
        ∃ key keys, ImportKey.forDeployment d.ns d.name = .ok key ∧
          submittedKeys t = [keys] ∧ key ∉ keys := by
  intro t
  refine ⟨by decide +kernel, { ns := "ns", name := "a" }, by decide +kernel, by decide +kernel, ?_,
    ⟨"ns_a", by decide +kernel⟩, [mnistKey], by rfl, by decide +kernel, by decide +kernel⟩
  rintro ⟨endpoint, model, version, key, hkeyed, hstrategy⟩
  -- There is one version in use, whatever the endpoint, and no evidence leads from it to the twin.
  have hmodel : model ∈ mnist.models := hkeyed.live.model_mem
  have hversion : version ∈ mnist.versions.filter (·.modelId == model.id) := hkeyed.live.version_mem
  obtain rfl : model = { id := "1", name := "mnist" } := by simpa [mnist] using hmodel
  obtain rfl : version = { id := "2", name := "v1", modelId := "1" } := by
    simpa [mnist] using hversion
  cases hstrategy

/-! ## §3 Registries that are searched for -/

/-- Whether the route to a registry could not be looked up. -/
def LookupFailed (t : List (Event interface)) : Prop := ∃ l ∈ lookups t, l.2.isFailure = true

/-- The search for the routes of hints, as the bridge makes it. -/
def searchAll (hints : List RouteHint) : Proc interface (List String) :=
  (Registry.resolveAll hints).through fun hint => .call (.route hint) .done

theorem searchAll_cons (hint : RouteHint) (rest : List RouteHint) :
    searchAll (hint :: rest) = .call (.route hint) fun (answer : RouteAnswer) =>
      searchAll rest >>= fun urls => .done (answer.url?.toList ++ urls) := by
  show Proc.call _ _ = Proc.call _ _
  congr 1
  funext answer
  exact Proc.through_bind _ (Registry.resolveAll rest) fun urls =>
    .done ((answer : RouteAnswer).url?.toList ++ urls)

theorem discover_eq (config : Config) :
    discover config = searchAll config.routeHints >>= fun urls =>
      .done (Directory.ofUrls (config.registryUrls ++ urls) config.registryToken) :=
  Proc.through_bind _ _ _

/-- The search looks up every hint once, in order, and finds the addresses that this leads to. -/
theorem lookups_searchAll (hints : List RouteHint) (s : σ) :
    (lookups ((searchAll hints).trace h s)).map (·.1) = hints ∧
      ((searchAll hints).run h s).1 =
        (lookups ((searchAll hints).trace h s)).filterMap (·.2.url?) := by
  induction hints generalizing s with
  | nil => exact ⟨rfl, rfl⟩
  | cons hint rest ih =>
    obtain ⟨hhints, hurls⟩ := ih (h (.route hint) s).2
    -- The first look-up comes before those of the rest, and so does its address.
    rw [searchAll_cons, Proc.trace_call, Proc.run_call, Proc.trace_bind, Proc.run_bind,
      Proc.trace_done, List.append_nil, Proc.run_done, hurls]
    constructor
    · exact congrArg (hint :: ·) hhints
    · show _ = List.filterMap _ ((hint, (h (.route hint) s).1) :: lookups _)
      rw [List.filterMap_cons]
      cases RouteAnswer.url? (h (.route hint) s).1 <;> rfl

/-- The search for the registries of a configuration makes no other calls. -/
theorem calls_discover (config : Config) :
    (discover config).Calls fun c : Call => ∃ hint, c = .route hint := by
  refine Proc.Calls.through (fun hint => ?_) (Registry.discover config)
  exact ⟨⟨hint, rfl⟩, fun _ => trivial⟩

theorem any_listingFailed_discover (config : Config) (s : σ) :
    ((discover config).trace h s).any listingFailed = false := by
  refine (calls_discover config).any_trace (fun e hroute => ?_) h s
  obtain ⟨c, answer⟩ := e
  obtain ⟨hint, rfl⟩ : ∃ hint, c = .route hint := hroute
  rfl

theorem submittedKeys_discover (config : Config) (s : σ) :
    submittedKeys ((discover config).trace h s) = [] := by
  refine (calls_discover config).filterMap_trace (fun e hroute => ?_) h s
  obtain ⟨c, answer⟩ := e
  obtain ⟨hint, rfl⟩ : ∃ hint, c = .route hint := hroute
  rfl

/-- The directory of a configuration has the configured addresses and those that were found. -/
theorem run_discover (config : Config) (s : σ) :
    (lookups ((discover config).trace h s)).map (·.1) = config.routeHints ∧
      ((discover config).run h s).1 = Directory.ofUrls (config.registryUrls ++
        (lookups ((discover config).trace h s)).filterMap (·.2.url?)) config.registryToken := by
  obtain ⟨hhints, hurls⟩ := lookups_searchAll (h := h) config.routeHints s
  rw [discover_eq, Proc.trace_bind, Proc.trace_done, List.append_nil, Proc.run_bind,
    Proc.run_done, hurls]
  exact ⟨hhints, rfl⟩

/-- The search for the registries comes first. -/
theorem trace_fullPass_configured {b : Bridge} {config : Config}
    (hb : b.origin = .configured config) (s : σ) :
    (b.fullPass none).trace h s = (discover config).trace h s ++
      (pass b.style ((discover config).run h s).1).proc.trace h ((discover config).run h s).2 := by
  have hrefresh : b.refresh = discover config >>= fun directory => .done { b with directory } := by
    unfold Bridge.refresh
    rw [hb]
    rfl
  rw [trace_fullPass, hrefresh, Proc.trace_bind, Proc.run_bind, Proc.trace_done, List.append_nil]
  rfl

/-- With registries that are searched for, a pass looks up every hint and submits the current keys
of the registries that were found, unless a listing fails. So a failed look-up keeps a pass from
submitting its keys exactly when a listing fails as well. -/
theorem fullPass_configured {b : Bridge} {config : Config} (hb : b.origin = .configured config)
    {w : World} (shown : ∀ directory, w.ShownBy directory h) (s : σ) :
    let t := (b.fullPass none).trace h s
    (lookups t).map (·.1) = config.routeHints ∧
      w.SubmitsCurrent (Directory.ofUrls (config.registryUrls ++
        (lookups t).filterMap (·.2.url?)) config.registryToken) t ∧
      ((LookupFailed t → submittedKeys t = []) ↔
        (LookupFailed t → t.any listingFailed = true)) := by
  intro t
  obtain ⟨hhints, hdirectory⟩ := run_discover (h := h) config s
  have htrace : t = (discover config).trace h s ++
      (pass b.style ((discover config).run h s).1).proc.trace h ((discover config).run h s).2 :=
    trace_fullPass_configured hb s
  -- What is read off the trace of the pass does not depend on the search before it.
  have hlookups : lookups t = lookups ((discover config).trace h s) := by
    rw [htrace, lookups_append, lookups_of_looksUpNothing (looksUpNothing_pass _ _),
      List.append_nil]
  have hsubmits : w.SubmitsCurrent (Directory.ofUrls (config.registryUrls ++
      (lookups t).filterMap (·.2.url?)) config.registryToken) t := by
    rw [hlookups, ← hdirectory, htrace]
    have hshown := shown ((discover config).run h s).1
    exact (pass_submits hshown.registry b.style (hshown.deployments _)).append_left
      (any_listingFailed_discover config s) (submittedKeys_discover config s)
  refine ⟨by rw [hlookups, hhints], hsubmits, ?_⟩
  constructor
  · intro hwithheld hlookup
    -- Otherwise every listing has succeeded, and keys were submitted.
    by_contra hfine
    obtain ⟨keys, hsubmitted, -⟩ := hsubmits.submitted (Bool.not_eq_true _ ▸ hfine)
    rw [hwithheld hlookup] at hsubmitted
    cases hsubmitted
  · intro hfailed hlookup
    exact hsubmits.withheld (hfailed hlookup)

theorem origin_ofConfig (config : Config) (s : σ) :
    ((Bridge.ofConfig config).run h s).1.origin = .configured config := by
  unfold Bridge.ofConfig
  rw [Proc.run_bind]
  rfl

def mnistAlone : World where
  deployments := []
  details _ := .ok {}
  registry := mnist.reply

/-- A configuration whose only registry is behind a route. -/
def behindRoute : Config where
  routeHints := [⟨"ns", "registry"⟩]

/-- Surroundings in which every look-up of a route ends in the same way. The state is what is
stored: the records whose keys are not among the submitted ones are removed. -/
def routed (w : World) (route : RouteAnswer) : Handler interface (List ImportKey)
  | .route _, stored => (route, stored)
  | .storage (.keySet keys), stored =>
    (.ok (stored.filter fun k => !keys.contains k), stored.filter keys.contains)
  | c, stored => (w.answer c, stored)

theorem shownBy_routed (w : World) (route : RouteAnswer) (directory : Directory) :
    w.ShownBy directory (routed w route) where
  deployments _ listed hlisted := by
    have hok : (Except.ok w.deployments : Except Fault (List Deployment)) = .ok listed := hlisted
    rw [← Except.ok.inj hok]
  registry endpoint _ q s _ _ := rfl

theorem fullPass_behindRoute :
    let h := routed mnistAlone .timedOut
    let b := ((Bridge.ofConfig behindRoute).run h [mnistKey]).1
    b.origin = .configured behindRoute ∧
      mnistAlone.SubmitsCurrent (Directory.ofUrls [] none)
        ((b.fullPass none).trace h [mnistKey]) :=
  ⟨origin_ofConfig behindRoute [mnistKey],
    (fullPass_configured (origin_ofConfig behindRoute [mnistKey])
      (shownBy_routed mnistAlone .timedOut) [mnistKey]).2.1⟩

/-- When the route of the only registry cannot be looked up in time, the pass submits that nothing
is current, and the record of a version in use is removed. When the route is found, the record is
kept. -/
theorem failed_lookup_empties_store :
    let b (h : Handler interface (List ImportKey)) :=
      ((Bridge.ofConfig behindRoute).run h [mnistKey]).1
    let lost := routed mnistAlone .timedOut
    let found := routed mnistAlone (.found "https://registry")
    LookupFailed (((b lost).fullPass none).trace lost [mnistKey]) ∧
      submittedKeys (((b lost).fullPass none).trace lost [mnistKey]) = [[]] ∧
      (((b lost).fullPass none).run lost [mnistKey]).2 = [] ∧
      submittedKeys (((b found).fullPass none).trace found [mnistKey]) = [[mnistKey]] ∧
      (((b found).fullPass none).run found [mnistKey]).2 = [mnistKey] := by
  refine ⟨⟨_, List.mem_singleton.mpr rfl, rfl⟩, ?_, ?_, ?_, ?_⟩ <;> decide +kernel

end Sync

end CatalogSync
