import CatalogSync.Proofs.Sync.World
/-!
# The keys that a full pass submits

A pass threads its progress through three nested loops over registries, models and versions, and
then through one over the deployments. `Visit` is the law of every part: it submits nothing, it
notes that a listing has failed, and when none has, it adds certain keys and certain deployments to
the progress. The law is closed under sequencing (`Visit.bind`), under loops
(`Visit.foldlM`) and under listings whose failure ends the part (`Visit.ofListing`), so the law of a
pass is assembled from those of a version, a model, a registry and a deployment.

A pass submits its keys exactly when no listing has failed, and then they are the current keys of
the world (`pass_submits`). Nothing else has a say: neither whether entries can be published nor
what else is answered.
-/

namespace CatalogSync.Sync

open Proc (Handler)
open Registry (RegisteredModel ModelVersion Directory Reads)

variable {σ α : Type} {h : Handler interface σ}

/-! ## §1 Parts of a pass -/

/-- What a part of a pass does to the progress so far. -/
structure Visit (h : Handler interface σ) (p : Progress) (visit : Proc interface Progress) (s : σ)
    (keys : ImportKey → Prop) (served : String × String → Prop) : Prop where
  submits : submittedKeys (visit.trace h s) = []
  -- A failed listing is noted.
  complete : (visit.run h s).1.complete = (p.complete && !(visit.trace h s).any listingFailed)
  -- Without a failed listing, the given keys are added.
  keys : (visit.trace h s).any listingFailed = false →
    ∀ k, k ∈ (visit.run h s).1.keys.toList ↔ k ∈ p.keys.toList ∨ keys k
  -- Without a failed listing, the given deployments are added.
  served : (visit.trace h s).any listingFailed = false →
    ∀ x, x ∈ (visit.run h s).1.served ↔ x ∈ p.served ∨ served x

namespace Visit

variable {p : Progress} {visit : Proc interface Progress} {s : σ} {K K' : ImportKey → Prop}
  {S S' : String × String → Prop}

theorem of_iff (hv : Visit h p visit s K S)
    (hK : (visit.trace h s).any listingFailed = false → ∀ k, K k ↔ K' k)
    (hS : (visit.trace h s).any listingFailed = false → ∀ x, S x ↔ S' x) :
    Visit h p visit s K' S' where
  submits := hv.submits
  complete := hv.complete
  keys hlisted k := by rw [hv.keys hlisted, hK hlisted]
  served hlisted x := by rw [hv.served hlisted, hS hlisted]

/-- A part that makes quiet calls only. -/
theorem ofQuiet (hquiet : Quiet visit) (hcomplete : (visit.run h s).1.complete = p.complete)
    (hkeys : ∀ k, k ∈ (visit.run h s).1.keys.toList ↔ k ∈ p.keys.toList ∨ K k)
    (hserved : ∀ x, x ∈ (visit.run h s).1.served ↔ x ∈ p.served ∨ S x) :
    Visit h p visit s K S where
  submits := submittedKeys_of_quiet hquiet s
  complete := by rw [any_listingFailed_of_quiet hquiet, hcomplete, Bool.not_false, Bool.and_true]
  keys _ := hkeys
  served _ := hserved

theorem bind {f : Progress → Proc interface Progress} (hv : Visit h p visit s K S)
    (hf : Visit h (visit.run h s).1 (f (visit.run h s).1) (visit.run h s).2 K' S') :
    Visit h p (visit >>= f) s (fun k => K k ∨ K' k) (fun x => S x ∨ S' x) where
  submits := by rw [Proc.trace_bind, submittedKeys_append, hv.submits, hf.submits, List.append_nil]
  complete := by
    rw [Proc.trace_bind, Proc.run_bind, hf.complete, hv.complete, List.any_append, Bool.not_or,
      Bool.and_assoc]
  keys hlisted k := by
    rw [Proc.trace_bind, List.any_append, Bool.or_eq_false_iff] at hlisted
    rw [Proc.run_bind, hf.keys hlisted.2, hv.keys hlisted.1, or_assoc]
  served hlisted x := by
    rw [Proc.trace_bind, List.any_append, Bool.or_eq_false_iff] at hlisted
    rw [Proc.run_bind, hf.served hlisted.2, hv.served hlisted.1, or_assoc]

/-- A loop adds what its rounds add, each of which may rely on an invariant. -/
theorem foldlM {f : Progress → α → Proc interface Progress} {l : List α} {K : α → ImportKey → Prop}
    {S : α → String × String → Prop} (I : Progress → Prop)
    (hf : ∀ a ∈ l, ∀ p s, I p → Visit h p (f p a) s (K a) (S a) ∧ I ((f p a).run h s).1)
    (hp : I p) (s : σ) :
    Visit h p (l.foldlM f p) s (fun k => ∃ a ∈ l, K a k) (fun x => ∃ a ∈ l, S a x) := by
  induction l generalizing p s with
  | nil =>
    rw [Proc.foldlM_nil]
    refine .ofQuiet trivial rfl (fun k => ?_) (fun x => ?_)
    · simp
    · simp
  | cons a l ih =>
    rw [Proc.foldlM_cons]
    obtain ⟨hfirst, hI⟩ := hf a List.mem_cons_self p s hp
    have hrest := ih (fun b hb => hf b (List.mem_cons_of_mem _ hb)) hI ((f p a).run h s).2
    refine (hfirst.bind hrest).of_iff (fun _ k => ?_) (fun _ x => ?_)
    · simp only [List.mem_cons, exists_eq_or_imp]
    · simp only [List.mem_cons, exists_eq_or_imp]

/-- A part in which a listing has failed, and which ends with that noted. -/
theorem of_failed (hsubmits : submittedKeys (visit.trace h s) = [])
    (hfailed : (visit.trace h s).any listingFailed = true)
    (hrun : (visit.run h s).1 = p.incomplete) : Visit h p visit s K S where
  submits := hsubmits
  complete := by
    rw [hrun, hfailed, Bool.not_true, Bool.and_false]
    rfl
  -- What is added is left open.
  keys hlisted := by
    rw [hfailed] at hlisted
    cases hlisted
  served hlisted := by
    rw [hfailed] at hlisted
    cases hlisted

/-- A part may come after calls in which no listing fails and no keys are submitted. -/
theorem of_prelude {first : Proc interface α} {f : α → Proc interface Progress}
    (hsubmits : submittedKeys (first.trace h s) = [])
    (hfine : (first.trace h s).any listingFailed = false)
    (hv : Visit h p (f (first.run h s).1) (first.run h s).2 K S) :
    Visit h p (first >>= f) s K S where
  submits := by rw [Proc.trace_bind, submittedKeys_append, hsubmits, hv.submits, List.append_nil]
  complete := by
    rw [Proc.trace_bind, Proc.run_bind, List.any_append, hfine, Bool.false_or, hv.complete]
  keys hlisted := by
    rw [Proc.trace_bind, List.any_append, hfine, Bool.false_or] at hlisted
    rw [Proc.run_bind]
    exact hv.keys hlisted
  served hlisted := by
    rw [Proc.trace_bind, List.any_append, hfine, Bool.false_or] at hlisted
    rw [Proc.run_bind]
    exact hv.served hlisted

/-- A part that starts with a listing, whose failure ends it. -/
theorem ofListing {endpoint : String} {i : Registry.Inquiry α} {P : α → Prop}
    {f : Except Fault α → Proc interface Progress} (hi : Reads (registryAt h endpoint) i s P)
    (hfault : ∀ e, f (.error e) = .done p.incomplete)
    (hok : ∀ a s', P a → Visit h p (f (.ok a)) s' K S) :
    Visit h p ((inquire endpoint i).proc >>= f) s K S := by
  have htrace := trace_inquire h endpoint i s
  have hany : ((inquire endpoint i).proc.trace h s).any listingFailed =
      (i.proc.trace (registryAt h endpoint) s).any Registry.listingFailed := by
    rw [htrace, any_listingFailed_addressed]
  have hnone : submittedKeys ((inquire endpoint i).proc.trace h s) = [] := by
    rw [htrace, submittedKeys_addressed]
  cases hfailed : (i.proc.trace (registryAt h endpoint) s).any Registry.listingFailed with
  | true =>
    obtain ⟨e, he⟩ := hi.error hfailed
    have hend : f ((inquire endpoint i).proc.run h s).1 = .done p.incomplete := by
      rw [run_inquire, he, hfault]
    apply of_failed
    · rw [Proc.trace_bind, submittedKeys_append, hnone, hend]
      rfl
    · rw [Proc.trace_bind, List.any_append, hany, hfailed, Bool.true_or]
    · rw [Proc.run_bind, hend]
      rfl
  | false =>
    obtain ⟨a, ha, hPa⟩ := hi.ok hfailed
    have hanswer : ((inquire endpoint i).proc.run h s).1 = .ok a := by rw [run_inquire, ha]
    apply of_prelude hnone (hany.trans hfailed)
    rw [hanswer]
    exact hok a _ hPa

end Visit

/-! ## §2 Progress -/

namespace Progress

@[simp] theorem keys_count (p : Progress) (r : Except Fault ImportKey) :
    (p.count r).keys = p.keys := by
  cases r <;> rfl

@[simp] theorem served_count (p : Progress) (r : Except Fault ImportKey) :
    (p.count r).served = p.served := by
  cases r <;> rfl

@[simp] theorem complete_count (p : Progress) (r : Except Fault ImportKey) :
    (p.count r).complete = p.complete := by
  cases r <;> rfl

theorem mem_keys_add (p : Progress) (key k : ImportKey) :
    k ∈ (p.add key).keys.toList ↔ k ∈ p.keys.toList ∨ k = key := by
  rw [add, SortedSet.mem_toList_add, or_comm]

theorem mem_served_serve (p : Progress) (deployments : List Deployment) (x : String × String) :
    x ∈ (p.serve deployments).served ↔
      x ∈ p.served ∨ ∃ d ∈ deployments, (d.ns, d.name) = x := by
  simp [serve]

end Progress

/-! ## §3 The versions of a registry -/

theorem quiet_versionSources (scope : Scope) (model : RegisteredModel) (version : ModelVersion) :
    Quiet (versionSources scope model version).proc := by
  refine Task.calls_bind (quiet_inquire_orElse scope.endpoint rfl []) fun artifacts => ?_
  split
  · trivial
  · exact Task.calls_bind ((quiet_details? _).bind fun _ => trivial) fun _ => trivial

theorem quiet_publishVersion (scope : Scope) (model : RegisteredModel) (version : ModelVersion) :
    Quiet (publishVersion scope model version).proc :=
  Task.calls_bind (quiet_versionSources scope model version) fun sources =>
    quiet_publish scope.style sources (some scope.endpoint)

theorem quiet_visitVersion (scope : Scope) (model : RegisteredModel) (version : ModelVersion)
    (p : Progress) : Quiet (visitVersion scope model p version) := by
  unfold visitVersion
  split
  · trivial
  · exact Proc.Calls.bind (quiet_publishVersion scope model version) fun _ => trivial

/-- A version adds its key and the deployments that serve it, whether or not it can be published. -/
theorem visit_version (scope : Scope) (model : RegisteredModel) (version : ModelVersion)
    (p : Progress) (s : σ) :
    Visit h p (visitVersion scope model p version) s
      (fun k => ImportKey.forModelVersion model.name version.name = .ok k)
      (fun x => ∃ k, ImportKey.forModelVersion model.name version.name = .ok k ∧
        ∃ d ∈ scope.deployments, (scope.records.strategy? model version d).isSome = true ∧
          (d.ns, d.name) = x) := by
  -- All its calls are quiet, so only what becomes of the progress is in question.
  have hquiet := quiet_visitVersion scope model version p
  unfold visitVersion at hquiet ⊢
  cases hkey : ImportKey.forModelVersion model.name version.name with
  | error f =>
    refine .ofQuiet trivial rfl (fun k => ?_) (fun x => ?_)
    · show k ∈ p.keys.toList ↔ _
      simp
    · show x ∈ p.served ↔ _
      simp
  | ok key =>
    rw [hkey] at hquiet
    refine .ofQuiet hquiet ?_ (fun k => ?_) (fun x => ?_)
    · rw [Proc.run_bind]
      exact Progress.complete_count _ _
    · rw [Proc.run_bind]
      show k ∈ (Progress.count _ _).keys.toList ↔ _
      rw [Progress.keys_count]
      show k ∈ (p.add key).keys.toList ↔ _
      rw [Progress.mem_keys_add, Except.ok.injEq, eq_comm]
    · rw [Proc.run_bind]
      show x ∈ (Progress.count _ _).served ↔ _
      rw [Progress.served_count, Progress.mem_served_serve]
      simp [Progress.add, and_assoc]

section

variable {w : World} {endpoint : String}
  (shown : (w.registry endpoint).ShownBy (registryAt h endpoint))
include shown

/-- A model adds what its versions in use add. -/
theorem visit_model (style : Style) (deployments : List Deployment) (model : RegisteredModel)
    (p : Progress) (s : σ) :
    Visit h p
      (visitModel ⟨style, deployments, endpoint, (w.registry endpoint).evidence⟩ p model) s
      (fun k => ∃ version ∈ (w.registry endpoint).versions model.id, version.isArchived = false ∧
        ImportKey.forModelVersion model.name version.name = .ok k)
      (fun x => ∃ version ∈ (w.registry endpoint).versions model.id, version.isArchived = false ∧
        ∃ k, ImportKey.forModelVersion model.name version.name = .ok k ∧ ∃ d ∈ deployments,
          ((w.registry endpoint).evidence.strategy? model version d).isSome = true ∧
            (d.ns, d.name) = x) := by
  unfold visitModel
  refine .ofListing (Reads.question shown (q := .versions model.id) rfl (fun _ => rfl) s)
    (fun _ => rfl) fun versions s' hversions => ?_
  have hcontent : versions = (w.registry endpoint).versions model.id := by
    rw [Registry.Replies.versions, hversions]
    rfl
  subst hcontent
  have hloop := Visit.foldlM (h := h) (p := p) (fun _ => True)
    (l := ((w.registry endpoint).versions model.id).filter (!·.isArchived))
    (fun version _ p s _ => ⟨visit_version
      ⟨style, deployments, endpoint, (w.registry endpoint).evidence⟩ model version p s, trivial⟩)
    trivial s'
  refine hloop.of_iff (fun _ k => ?_) (fun _ x => ?_)
  · simp [and_assoc]
  · simp [and_assoc]

/-- What is listed of a registry at the start is its models and what is known of its records. -/
theorem reads_listRegistry (s : σ) :
    Reads (registryAt h endpoint) listRegistry s fun listed =>
      listed = ((w.registry endpoint).models, (w.registry endpoint).evidence) := by
  refine (Reads.question shown (q := .models) rfl (fun _ => rfl) s).bind fun models s' hmodels => ?_
  refine (Registry.reads_readRecords shown s').bind fun records s'' hrecords => .pure ?_
  rw [Registry.Replies.models, hmodels, hrecords]
  rfl

/-- A registry adds what its versions in use add. -/
theorem visit_registry (style : Style) (deployments : List Deployment) (p : Progress) (s : σ) :
    Visit h p (visitRegistry style deployments p endpoint) s
      (fun k => ∃ model version, (w.registry endpoint).Live model version ∧
        ImportKey.forModelVersion model.name version.name = .ok k)
      (fun x => ∃ model version k, ((w.registry endpoint).Live model version ∧
        ImportKey.forModelVersion model.name version.name = .ok k) ∧ ∃ d ∈ deployments,
          ((w.registry endpoint).evidence.strategy? model version d).isSome = true ∧
            (d.ns, d.name) = x) := by
  unfold visitRegistry
  refine .ofListing (reads_listRegistry shown s) (fun _ => rfl) fun listed s' hlisted => ?_
  subst hlisted
  have hloop := Visit.foldlM (h := h) (p := p) (fun _ => True)
    (l := (w.registry endpoint).models.filter (!·.isArchived))
    (fun model _ p s _ => ⟨visit_model shown style deployments model p s, trivial⟩)
    trivial s'
  refine hloop.of_iff (fun _ k => ?_) (fun _ x => ?_)
  · constructor
    · rintro ⟨model, hmodel, version, hversion, hlive, hkey⟩
      simp only [List.mem_filter, Bool.not_eq_true'] at hmodel
      exact ⟨model, version, ⟨hmodel.1, hmodel.2, hversion, hlive⟩, hkey⟩
    · rintro ⟨model, version, hlive, hkey⟩
      refine ⟨model, ?_, version, hlive.version_mem, hlive.version_live, hkey⟩
      simpa using ⟨hlive.model_mem, hlive.model_live⟩
  · constructor
    · rintro ⟨model, hmodel, version, hversion, hlive, k, hkey, hserved⟩
      simp only [List.mem_filter, Bool.not_eq_true'] at hmodel
      exact ⟨model, version, k, ⟨⟨hmodel.1, hmodel.2, hversion, hlive⟩, hkey⟩, hserved⟩
    · rintro ⟨model, version, k, ⟨hlive, hkey⟩, hserved⟩
      refine ⟨model, ?_, version, hlive.version_mem, hlive.version_live, k, hkey, hserved⟩
      simpa using ⟨hlive.model_mem, hlive.model_live⟩

end

/-! ## §4 Deployments that no registry covers -/

theorem quiet_publishDeployment (style : Style) (d : Deployment) :
    Quiet (publishDeployment style d).proc :=
  Task.calls_bind ((quiet_details? d).bind fun _ => trivial) fun _ => quiet_publish style _ none

theorem quiet_visitDeployment (style : Style) (p : Progress) (d : Deployment) :
    Quiet (visitDeployment style p d) := by
  unfold visitDeployment
  split
  · trivial
  · split
    · trivial
    · split
      · exact Proc.Calls.bind (quiet_publishDeployment style d) fun _ => trivial
      · trivial

/-- Whether a deployment can be published or not has no influence on the progress but its counts. -/
theorem run_visitDeployment (style : Style) (d : Deployment) (p : Progress) (s : σ) :
    let q := ((visitDeployment style p d).run h s).1
    q.complete = p.complete ∧ q.served = p.served ∧
      q.keys = if d.isRegistryManaged || p.serves d then p.keys
        else match ImportKey.forDeployment d.ns d.name with
          | .error _ => p.keys
          | .ok key => (p.add key).keys := by
  unfold visitDeployment
  by_cases hskip : (d.isRegistryManaged || p.serves d) = true
  · rw [if_pos hskip, if_pos hskip]
    exact ⟨rfl, rfl, rfl⟩
  · rw [if_neg hskip, if_neg hskip]
    cases hkey : ImportKey.forDeployment d.ns d.name with
    | error f => exact ⟨rfl, rfl, rfl⟩
    | ok key =>
      dsimp only
      by_cases hready : d.isReady = true
      · rw [if_pos hready, Proc.run_bind]
        exact ⟨Progress.complete_count _ _, Progress.served_count _ _, Progress.keys_count _ _⟩
      · rw [if_neg hready]
        exact ⟨rfl, rfl, rfl⟩

/-- A deployment that is not served by a version adds its key, whether or not it is ready. -/
theorem visit_deployment (style : Style) (d : Deployment) (p : Progress) (s : σ) :
    Visit h p (visitDeployment style p d) s
      (fun k => d.isRegistryManaged = false ∧ (d.ns, d.name) ∉ p.served ∧
        ImportKey.forDeployment d.ns d.name = .ok k)
      (fun _ => False) := by
  obtain ⟨hcomplete, hserved, hkeys⟩ := run_visitDeployment (h := h) style d p s
  refine .ofQuiet (quiet_visitDeployment style p d) hcomplete (fun k => ?_) (fun x => ?_)
  · rw [hkeys]
    by_cases hmanaged : d.isRegistryManaged = true
    · simp [hmanaged]
    · by_cases hmem : (d.ns, d.name) ∈ p.served
      · simp [Progress.serves, hmem]
      · -- The deployment is not skipped, so all depends on its key.
        cases hkey : ImportKey.forDeployment d.ns d.name with
        | error f => simp
        | ok key => simp [Progress.serves, hmanaged, hmem, Progress.mem_keys_add, eq_comm]
  · rw [hserved]
    simp

/-! ## §5 The pass -/

/-- The two halves of a pass, after the deployments were listed or not. -/
def halves (style : Style) (directory : Directory) (listed : Except Fault (List Deployment)) :
    Proc interface Progress :=
  directory.toList.foldlM (visitRegistry style (listed.toOption.getD []))
    { complete := listed.isOk } >>= fun p =>
      (listed.toOption.getD []).foldlM (visitDeployment style) p

theorem trace_visitAll (style : Style) (directory : Directory) (s : σ) :
    (visitAll style directory).trace h s = ⟨.deployments, (h .deployments s).1⟩ ::
      (halves style directory (h .deployments s).1).trace h (h .deployments s).2 := rfl

theorem run_visitAll (style : Style) (directory : Directory) (s : σ) :
    (visitAll style directory).run h s =
      (halves style directory (h .deployments s).1).run h (h .deployments s).2 := rfl

theorem visit_deployments (style : Style) (deployments : List Deployment) (p : Progress) (s : σ) :
    Visit h p (deployments.foldlM (visitDeployment style) p) s
      (fun k => ∃ d ∈ deployments, d.isRegistryManaged = false ∧ (d.ns, d.name) ∉ p.served ∧
        ImportKey.forDeployment d.ns d.name = .ok k)
      (fun _ => False) := by
  -- No round changes what is served, so all of them look at the same deployments.
  have hloop := Visit.foldlM (h := h) (p := p) (fun q => q.served = p.served) (l := deployments)
    (f := visitDeployment style) (S := fun _ _ => False)
    (K := fun d k => d.isRegistryManaged = false ∧ (d.ns, d.name) ∉ p.served ∧
      ImportKey.forDeployment d.ns d.name = .ok k)
    (fun d _ q s hq => by
      have hvisit := visit_deployment (h := h) style d q s
      rw [hq] at hvisit
      exact ⟨hvisit, (run_visitDeployment style d q s).2.1.trans hq⟩) rfl s
  exact hloop.of_iff (fun _ k => Iff.rfl) (fun _ x => by simp)

section

variable {w : World} {directory : Directory} (shown : ∀ endpoint ∈ directory.toList,
  (w.registry endpoint).ShownBy (registryAt h endpoint)) (style : Style)
include shown

theorem visit_registries (deployments : List Deployment) (p : Progress) (s : σ) :
    Visit h p (directory.toList.foldlM (visitRegistry style deployments) p) s
      (fun k => ∃ endpoint model version, w.Keyed directory endpoint model version k)
      (fun x => ∃ d ∈ deployments, w.Serves directory d ∧ (d.ns, d.name) = x) := by
  have hloop := Visit.foldlM (h := h) (p := p) (fun _ => True) (l := directory.toList)
    (fun endpoint hendpoint p s _ =>
      ⟨visit_registry (shown endpoint hendpoint) style deployments p s, trivial⟩) trivial s
  refine hloop.of_iff (fun _ k => ?_) (fun _ x => ?_)
  · constructor
    · rintro ⟨endpoint, hendpoint, model, version, hlive, hkey⟩
      exact ⟨endpoint, model, version, hendpoint, hlive, hkey⟩
    · rintro ⟨endpoint, model, version, hkeyed⟩
      exact ⟨endpoint, hkeyed.endpoint_mem, model, version, hkeyed.live, hkeyed.key_eq⟩
  · constructor
    · rintro ⟨endpoint, hendpoint, model, version, k, ⟨hlive, hkey⟩, d, hd, hstrategy, hx⟩
      exact ⟨d, hd, ⟨endpoint, model, version, k, ⟨hendpoint, hlive, hkey⟩, hstrategy⟩, hx⟩
    · rintro ⟨d, hd, ⟨endpoint, model, version, k, hkeyed, hstrategy⟩, hx⟩
      exact ⟨endpoint, hkeyed.endpoint_mem, model, version, k, ⟨hkeyed.live, hkeyed.key_eq⟩,
        d, hd, hstrategy, hx⟩

/-- The two halves of a pass add what the registries and the deployments add. -/
theorem visit_halves (listed : Except Fault (List Deployment)) (s : σ) :
    Visit h { complete := listed.isOk } (halves style directory listed) s
      (fun k => (∃ endpoint model version, w.Keyed directory endpoint model version k) ∨
        ∃ d ∈ listed.toOption.getD [], d.isRegistryManaged = false ∧
          (¬ ∃ other ∈ listed.toOption.getD [],
            other.isSame d = true ∧ w.Serves directory other) ∧
          ImportKey.forDeployment d.ns d.name = .ok k)
      (fun x => (∃ d ∈ listed.toOption.getD [], w.Serves directory d ∧ (d.ns, d.name) = x) ∨
        False) := by
  have hfirst := visit_registries shown style (listed.toOption.getD [])
    { complete := listed.isOk } s
  refine (hfirst.bind (visit_deployments style _ _ _)).of_iff (fun hlisted k => ?_)
    (fun _ x => Iff.rfl)
  rw [Proc.trace_bind, List.any_append, Bool.or_eq_false_iff] at hlisted
  -- What the first half has added decides which deployments the second half skips.
  have hserved := hfirst.served hlisted.1
  refine or_congr Iff.rfl (exists_congr fun d => and_congr_right fun _ =>
    and_congr_right fun _ => and_congr_left fun _ => not_congr ?_)
  rw [hserved]
  simp only [List.not_mem_nil, false_or]
  constructor
  · rintro ⟨other, hother, hserves, hname⟩
    rw [Prod.mk.injEq] at hname
    exact ⟨other, hother, Deployment.isSame_iff.mpr hname, hserves⟩
  · rintro ⟨other, hother, hsame, hserves⟩
    obtain ⟨hns, hname⟩ := Deployment.isSame_iff.mp hsame
    exact ⟨other, hother, hserves, by rw [hns, hname]⟩

end

/-- What a pass calls after it has treated everything. -/
theorem trace_pass (style : Style) (directory : Directory) (s : σ) :
    (pass style directory).proc.trace h s = (visitAll style directory).trace h s ++
      (let p := ((visitAll style directory).run h s).1
       if p.complete then
         [⟨.storage (.keySet p.keys.toList), (h (.storage (.keySet p.keys.toList))
           ((visitAll style directory).run h s).2).1⟩]
       else []) := by
  unfold pass
  rw [Task.trace_lift_bind]
  congr 1
  by_cases hcomplete : ((visitAll style directory).run h s).1.complete = true
  · rw [if_pos hcomplete]
    simp only [hcomplete, if_true]
    rw [Task.trace_bind]
    cases hans : ((storage (.keySet ((visitAll style directory).run h s).1.keys.toList)).proc.run h
      ((visitAll style directory).run h s).2).1 <;> rfl
  · rw [if_neg hcomplete]
    simp only [hcomplete]
    rfl

/-- The keys that are submitted in a trace are the right ones: none after a failed listing, and the
current ones, in ascending order and once, when everything was listed. -/
structure World.SubmitsCurrent (w : World) (directory : Directory) (t : List (Event interface)) :
    Prop where
  -- After a failed listing no keys are submitted.
  withheld : t.any listingFailed = true → submittedKeys t = []
  -- Without a failed listing the current keys are submitted.
  submitted : t.any listingFailed = false → ∃ keys, submittedKeys t = [keys] ∧
    keys.Pairwise (· < ·) ∧ ∀ k, k ∈ keys ↔ w.Current directory k

/-- The keys of a pass whose progress is known. -/
theorem World.SubmitsCurrent.of_progress {w : World} {directory : Directory} {style : Style} {s : σ}
    (hnone : submittedKeys ((visitAll style directory).trace h s) = [])
    (hcomplete : ((visitAll style directory).run h s).1.complete =
      !((visitAll style directory).trace h s).any listingFailed)
    (hkeys : ((visitAll style directory).trace h s).any listingFailed = false →
      ∀ k, k ∈ ((visitAll style directory).run h s).1.keys.toList ↔ w.Current directory k) :
    w.SubmitsCurrent directory ((pass style directory).proc.trace h s) := by
  rw [trace_pass]
  cases hfailed : ((visitAll style directory).trace h s).any listingFailed with
  | true =>
    rw [hfailed] at hcomplete
    simp only [hcomplete, Bool.not_true, Bool.false_eq_true, if_false, List.append_nil]
    refine ⟨fun _ => hnone, fun hlisted => ?_⟩
    rw [hfailed] at hlisted
    cases hlisted
  | false =>
    rw [hfailed] at hcomplete
    simp only [hcomplete, Bool.not_false, if_true]
    constructor
    · intro hlisted
      rw [List.any_append, hfailed] at hlisted
      cases hlisted
    · intro _
      refine ⟨((visitAll style directory).run h s).1.keys.toList, ?_,
        SortedSet.pairwise_toList _, hkeys hfailed⟩
      rw [submittedKeys_append, hnone]
      rfl

theorem looksUpNothing_visitModel (scope : Scope) (model : RegisteredModel) (p : Progress) :
    LooksUpNothing (visitModel scope p model) := by
  refine (looksUpNothing_inquire _ _).bind fun listed => ?_
  cases listed with
  | error f => trivial
  | ok versions =>
    exact .foldlM fun version _ p => looksUpNothing_of_quiet (quiet_visitVersion scope model version p)

theorem looksUpNothing_visitRegistry (style : Style) (deployments : List Deployment)
    (endpoint : String) (p : Progress) :
    LooksUpNothing (visitRegistry style deployments p endpoint) := by
  refine (looksUpNothing_inquire _ _).bind fun listed => ?_
  cases listed with
  | error f => trivial
  | ok listed => exact .foldlM fun model _ p => looksUpNothing_visitModel _ model p

/-- A pass looks up no route; its registries are found before it. -/
theorem looksUpNothing_pass (style : Style) (directory : Directory) :
    LooksUpNothing (pass style directory).proc := by
  have hall : LooksUpNothing (visitAll style directory) := by
    refine Proc.Calls.bind (p := deployments.proc) ⟨rfl, fun _ => trivial⟩ fun listed => ?_
    refine Proc.Calls.bind (.foldlM fun endpoint _ p => ?_) fun p => .foldlM fun d _ p => ?_
    · exact looksUpNothing_visitRegistry style _ endpoint p
    · exact looksUpNothing_of_quiet (quiet_visitDeployment style p d)
  refine Task.calls_bind (hall.bind fun _ => trivial) fun p => ?_
  split
  · exact Task.calls_bind ⟨rfl, fun _ => trivial⟩ fun _ => trivial
  · trivial

section

variable {w : World} {directory : Directory} (shown : ∀ endpoint ∈ directory.toList,
  (w.registry endpoint).ShownBy (registryAt h endpoint))
include shown

/-- What the progress says after everything was treated: whether a listing has failed, and if none
has, the current keys. -/
theorem progress_visitAll (style : Style) {s : σ}
    (listed : ∀ deployments, (h .deployments s).1 = .ok deployments →
      deployments = w.deployments) :
    let p := ((visitAll style directory).run h s).1
    let t := (visitAll style directory).trace h s
    p.complete = !t.any listingFailed ∧
      (t.any listingFailed = false → ∀ k, k ∈ p.keys.toList ↔ w.Current directory k) := by
  have hvisit := visit_halves shown style (h .deployments s).1 (h .deployments s).2
  rw [trace_visitAll, run_visitAll]
  refine ⟨?_, fun hlisted k => ?_⟩
  · rw [hvisit.complete]
    cases (h .deployments s).1 <;> simp [listingFailed, Except.isOk, Except.toBool]
  · rw [List.any_cons, Bool.or_eq_false_iff] at hlisted
    rw [hvisit.keys hlisted.2 k]
    cases hans : (h .deployments s).1 with
    | error f =>
      rw [hans] at hlisted
      cases hlisted.1
    | ok deployments =>
      obtain rfl := listed deployments hans
      constructor
      · rintro (hmem | ⟨endpoint, model, version, hkeyed⟩ | ⟨d, hd, hunmanaged, huncovered, hkey⟩)
        · simp [SortedSet.toList_empty] at hmem
        · exact .version hkeyed
        · exact .deployment hd hunmanaged huncovered hkey
      · rintro (hkeyed | ⟨hd, hunmanaged, huncovered, hkey⟩)
        · exact .inr (.inl ⟨_, _, _, hkeyed⟩)
        · exact .inr (.inr ⟨_, hd, hunmanaged, huncovered, hkey⟩)

/-- A pass submits the current keys, unless one of its listings fails. The deployments are those
that it has listed, whatever becomes of them afterwards. -/
theorem pass_submits (style : Style) {s : σ}
    (listed : ∀ deployments, (h .deployments s).1 = .ok deployments →
      deployments = w.deployments) :
    w.SubmitsCurrent directory ((pass style directory).proc.trace h s) := by
  have hvisit := visit_halves shown style (h .deployments s).1 (h .deployments s).2
  obtain ⟨hcomplete, hkeys⟩ := progress_visitAll shown style listed
  refine World.SubmitsCurrent.of_progress ?_ hcomplete hkeys
  rw [trace_visitAll]
  exact hvisit.submits

end

end CatalogSync.Sync
