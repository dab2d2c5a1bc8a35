import CatalogSync.Proofs.Sync.Publication
/-!
# What records are about

A record is about a version or about a deployment (`Subject`). In a world the versions in use have
records, and so have the deployments that no registry manages and that serve no version
(`World.Stands`); their keys are the current ones. The record of a subject follows from the world
(`World.entryOf`, `World.cardOf?`).

`Posts` says what a part of a pass sends when no listing fails, in order. A pass sends the records
of all subjects but those of the deployments that are not ready (`mem_upserts_visitAll`).
-/

namespace CatalogSync.Sync

open Proc (Handler)
open Registry (RegisteredModel ModelVersion Directory Reads Replies)

variable {σ α : Type} {h : Handler interface σ}

/-! ## §1 Subjects -/

/-- What a record is about. -/
inductive Subject where
  | version (endpoint : String) (model : RegisteredModel) (version : ModelVersion)
  | deployment (d : Deployment)

namespace Subject

/-- The key of the record. -/
def key : Subject → Except Fault ImportKey
  | .version _ model v => ImportKey.forModelVersion model.name v.name
  | .deployment d => ImportKey.forDeployment d.ns d.name

def provenance : Subject → Provenance
  | .version _ _ _ => .registry
  | .deployment _ => .clusterOnly

/-- Versions are always ready. -/
def Ready : Subject → Prop
  | .version _ _ _ => True
  | .deployment d => d.isReady = true

end Subject

namespace World

variable (w : World) (directory : Directory) (style : Style)

/-- A subject of the records that ought to be stored. -/
inductive Stands : Subject → Prop where
  | version {endpoint : String} {model : RegisteredModel} {version : ModelVersion}
      (endpoint_mem : endpoint ∈ directory.toList)
      (live : (w.registry endpoint).Live model version) :
      Stands (.version endpoint model version)
  | deployment {d : Deployment} (mem : d ∈ w.deployments)
      (unmanaged : d.isRegistryManaged = false) (uncovered : ¬ w.Covered directory d) :
      Stands (.deployment d)

/-- The sources of the entry of a subject. -/
def sourcesOf : Subject → Catalog.Sources
  | .version endpoint model version => w.versionSources style endpoint model version
  | .deployment d => .ofDeployment style.defaults d (w.details? d)

def entryOf (x : Subject) : Except Fault Catalog.Entry := (w.sourcesOf style x).entry

/-- The model card of a subject, whose entry says where it is; only versions have one. -/
def cardOf? : Subject → Catalog.Entry → Option String
  | .version endpoint _ _, entry => w.card? endpoint entry
  | .deployment _, _ => none

/-- What is sent for a subject: one record, unless it can have no key. -/
def upsertsOf (x : Subject) : List Upsert :=
  match w.entryOf style x with
  | .ok entry => [.ofEntry style entry (w.cardOf? x entry)]
  | .error _ => []

variable {w directory style}

/-- The current keys are those of the subjects. -/
theorem current_iff (k : ImportKey) :
    w.Current directory k ↔ ∃ x, w.Stands directory x ∧ x.key = .ok k := by
  constructor
  · rintro (hkeyed | ⟨mem, unmanaged, uncovered, hkey⟩)
    · exact ⟨_, .version hkeyed.endpoint_mem hkeyed.live, hkeyed.key_eq⟩
    · exact ⟨_, .deployment mem unmanaged uncovered, hkey⟩
  · rintro ⟨_, ⟨hendpoint, hlive⟩ | ⟨mem, unmanaged, uncovered⟩, hkey⟩
    · exact .version ⟨hendpoint, hlive, hkey⟩
    · exact .deployment mem unmanaged uncovered hkey

theorem key_sourcesOf (x : Subject) : (w.sourcesOf style x).key = x.key := by
  cases x <;> rfl

theorem provenance_sourcesOf (x : Subject) : (w.sourcesOf style x).provenance = x.provenance := by
  cases x <;> rfl

/-- A subject that has a key has an entry. -/
theorem exists_entryOf {x : Subject} {k : ImportKey} (hkey : x.key = .ok k) :
    ∃ entry, w.entryOf style x = .ok entry := by
  have hsources : (w.sourcesOf style x).key = .ok k := by rw [key_sourcesOf, hkey]
  exact ⟨_, Catalog.Sources.entry_of_key hsources⟩

/-- An entry has the key and the origin of its subject. -/
theorem of_entryOf {x : Subject} {entry : Catalog.Entry} (hentry : w.entryOf style x = .ok entry) :
    x.key = .ok entry.key ∧ x.provenance = entry.provenance := by
  obtain ⟨hkey, horigin⟩ := of_entry hentry
  rw [key_sourcesOf] at hkey
  rw [provenance_sourcesOf] at horigin
  exact ⟨hkey, horigin⟩

theorem cardOrigin_of_entryOf {x : Subject} {entry : Catalog.Entry}
    (hentry : w.entryOf style x = .ok entry) :
    entry.cardOrigin = (w.sourcesOf style x).cardOrigin? := by
  obtain ⟨key, -, rfl⟩ := Catalog.Sources.entry_eq_ok_iff.mp hentry
  rfl

theorem mem_upsertsOf_iff {x : Subject} {u : Upsert} : u ∈ w.upsertsOf style x ↔
    ∃ entry, w.entryOf style x = .ok entry ∧ u = .ofEntry style entry (w.cardOf? x entry) := by
  unfold upsertsOf
  cases w.entryOf style x with
  | error f => simp
  | ok entry => simp

/-- Nothing is sent for a subject that can have no key. -/
theorem upsertsOf_eq_nil {x : Subject} {f : Fault} (hkey : x.key = .error f) :
    w.upsertsOf style x = [] := by
  unfold upsertsOf
  cases hentry : w.entryOf style x with
  | error f => rfl
  | ok entry => cases hkey.symm.trans (of_entryOf hentry).1

end World

/-! ## §2 Parts of a pass -/

/-- What is sent when no listing fails, in order. -/
def Posts (h : Handler interface σ) (p : Proc interface α) (s : σ) (sent : List Upsert) : Prop :=
  (p.trace h s).any listingFailed = false → upserts (p.trace h s) = sent

namespace Posts

variable {β : Type} {p : Proc interface α} {s : σ} {us vs : List Upsert}

theorem done (a : α) (s : σ) : Posts h (.done a) s [] := fun _ => rfl

/-- The second part may rely on the listings of the first part. -/
theorem bind {f : α → Proc interface β} (hp : Posts h p s us)
    (hf : (p.trace h s).any listingFailed = false →
      Posts h (f (p.run h s).1) (p.run h s).2 vs) : Posts h (p >>= f) s (us ++ vs) := by
  intro hlisted
  rw [Proc.trace_bind, List.any_append, Bool.or_eq_false_iff] at hlisted
  rw [Proc.trace_bind, upserts_append, hp hlisted.1, hf hlisted.1 hlisted.2]

/-- A loop sends what its rounds send, each of which may rely on an invariant. -/
theorem foldlM {f : β → α → Proc interface β} {l : List α} {sent : α → List Upsert} (I : β → Prop)
    (hf : ∀ a ∈ l, ∀ b s, I b → Posts h (f b a) s (sent a) ∧ I ((f b a).run h s).1) {b : β}
    (hb : I b) (s : σ) : Posts h (l.foldlM f b) s (l.flatMap sent) := by
  induction l generalizing b s with
  | nil => exact done b s
  | cons a l ih =>
    rw [Proc.foldlM_cons, List.flatMap_cons]
    obtain ⟨hfirst, hI⟩ := hf a List.mem_cons_self b s hb
    exact hfirst.bind fun _ => ih (fun c hc => hf c (List.mem_cons_of_mem _ hc)) hI _

/-- A part that starts with a listing. -/
theorem ofListing {endpoint : String} {i : Registry.Inquiry α} {P : α → Prop}
    {f : Except Fault α → Proc interface β} (hi : Reads (registryAt h endpoint) i s P)
    (hok : ∀ a s', P a → Posts h (f (.ok a)) s' us) :
    Posts h ((inquire endpoint i).proc >>= f) s us := by
  have hquiet : Posts h (inquire endpoint i).proc s [] :=
    fun _ => upserts_of_sendsNothing (sendsNothing_inquire endpoint i) s
  rw [← List.nil_append us]
  refine hquiet.bind fun hlisted => ?_
  rw [trace_inquire, any_listingFailed_addressed] at hlisted
  obtain ⟨a, ha, hPa⟩ := hi.ok hlisted
  have hanswer : ((inquire endpoint i).proc.run h s).1 = .ok a := by rw [run_inquire, ha]
  rw [hanswer]
  exact hok a _ hPa

end Posts

/-! ## §3 What a pass sends -/

section

variable {w : World} (cluster : w.AnsweredCluster h)

section

variable {endpoint : String} (registry : w.AnsweredAt h endpoint)

/-- What is sent for the versions in use of a model. -/
def World.modelUpserts (w : World) (style : Style) (endpoint : String) (model : RegisteredModel) :
    List Upsert :=
  (((w.registry endpoint).versions model.id).filter (!·.isArchived)).flatMap
    (w.versionUpserts style endpoint model)

/-- What is sent for the versions in use of a registry. -/
def World.registryUpserts (w : World) (style : Style) (endpoint : String) : List Upsert :=
  ((w.registry endpoint).models.filter (!·.isArchived)).flatMap (w.modelUpserts style endpoint)

theorem mem_registryUpserts_iff {style : Style} {u : Upsert} :
    u ∈ w.registryUpserts style endpoint ↔ ∃ model version,
      (w.registry endpoint).Live model version ∧
        u ∈ w.versionUpserts style endpoint model version := by
  simp only [World.registryUpserts, World.modelUpserts, List.mem_flatMap, List.mem_filter,
    Bool.not_eq_true']
  constructor
  · rintro ⟨model, ⟨hmodel, hinUse⟩, version, ⟨hversion, hlive⟩, hu⟩
    exact ⟨model, version, ⟨hmodel, hinUse, hversion, hlive⟩, hu⟩
  · rintro ⟨model, version, hlive, hu⟩
    exact ⟨model, ⟨hlive.model_mem, hlive.model_live⟩, version,
      ⟨hlive.version_mem, hlive.version_live⟩, hu⟩

include cluster registry

theorem posts_visitModel (style : Style) (model : RegisteredModel) (p : Progress) (s : σ) :
    Posts h (visitModel (w.scope style endpoint) p model) s
      (w.modelUpserts style endpoint model) := by
  unfold visitModel
  refine .ofListing (Reads.question (Replies.shownBy_of_steady registry) (q := .versions model.id)
    rfl (fun _ => rfl) s) fun versions s' hversions => ?_
  have hcontent : versions = (w.registry endpoint).versions model.id := by
    rw [Replies.versions, hversions]
    rfl
  subst hcontent
  exact .foldlM (fun _ => True) (fun version _ p s _ =>
    ⟨fun _ => upserts_visitVersion cluster registry style model version p s, trivial⟩) trivial s'

theorem posts_visitRegistry (style : Style) (p : Progress) (s : σ) :
    Posts h (visitRegistry style w.deployments p endpoint) s
      (w.registryUpserts style endpoint) := by
  unfold visitRegistry
  refine .ofListing (reads_listRegistry (Replies.shownBy_of_steady registry) s)
    fun listed s' hlisted => ?_
  subst hlisted
  exact .foldlM (fun _ => True) (fun model _ p s _ =>
    ⟨posts_visitModel cluster registry style model p s, trivial⟩) trivial s'

end

include cluster

theorem upserts_publishDeployment (style : Style) (d : Deployment) (s : σ) :
    upserts ((publishDeployment style d).proc.trace h s) =
      w.upsertsOf style (.deployment d) := by
  unfold publishDeployment
  rw [Task.trace_lift_bind, upserts_append, upserts_of_sendsNothing (sendsNothing_details? d),
    List.nil_append, run_details? cluster, upserts_publish]
  simp only [cardFrom_none]
  rfl

/-- A deployment that is skipped or not ready is not sent. -/
theorem upserts_visitDeployment (style : Style) (d : Deployment) (p : Progress) (s : σ) :
    upserts ((visitDeployment style p d).trace h s) =
      if d.isRegistryManaged || p.serves d || !d.isReady then []
      else w.upsertsOf style (.deployment d) := by
  unfold visitDeployment
  cases hskip : d.isRegistryManaged || p.serves d with
  | true => rfl
  | false =>
    cases hkey : ImportKey.forDeployment d.ns d.name with
    | error f =>
      rw [World.upsertsOf_eq_nil (x := .deployment d) hkey, ite_self]
      rfl
    | ok key =>
      cases hready : d.isReady with
      | false => rfl
      | true =>
        show upserts ((_ >>= _ : Proc interface Progress).trace h s) = _
        rw [Proc.trace_bind, upserts_append, upserts_publishDeployment cluster style d s]
        exact List.append_nil _

/-- No deployment changes which of them count as served. -/
theorem posts_visitDeployments (style : Style) (deployments : List Deployment) (p : Progress)
    (s : σ) :
    Posts h (deployments.foldlM (visitDeployment style) p) s (deployments.flatMap fun d =>
      if d.isRegistryManaged || p.serves d || !d.isReady then []
      else w.upsertsOf style (.deployment d)) := by
  refine .foldlM (fun q => q.served = p.served) (fun d _ q s hq => ?_) rfl s
  refine ⟨fun _ => ?_, (run_visitDeployment style d q s).2.1.trans hq⟩
  rw [upserts_visitDeployment cluster, Progress.serves, hq]
  rfl

variable {directory : Directory}
  (registries : ∀ endpoint ∈ directory.toList, w.AnsweredAt h endpoint)
include registries

theorem shownBy_of_answered : w.ShownBy directory h where
  deployments s listed hlisted := by
    rw [cluster.deployments] at hlisted
    exact (Except.ok.inj hlisted).symm
  registry endpoint hendpoint := Replies.shownBy_of_steady (registries endpoint hendpoint)

/-- After the registries, the deployments that count as served are the covered ones. -/
theorem serves_iff_covered (style : Style) {p : Progress} (hp : p.served = []) {s : σ}
    (hlisted : ((directory.toList.foldlM (visitRegistry style w.deployments) p).trace h s).any
      listingFailed = false) (d : Deployment) :
    ((directory.toList.foldlM (visitRegistry style w.deployments) p).run h s).1.serves d = true ↔
      w.Covered directory d := by
  have hserved := (visit_registries (shownBy_of_answered cluster registries).registry style
    w.deployments p s).served hlisted
  rw [Progress.serves, List.contains_iff_mem, hserved, hp]
  simp only [List.not_mem_nil, false_or]
  constructor
  · rintro ⟨other, hother, hserves, hname⟩
    exact ⟨other, hother, Deployment.isSame_iff.mpr (Prod.mk.injEq .. ▸ hname), hserves⟩
  · rintro ⟨other, hother, hsame, hserves⟩
    obtain ⟨hns, hname⟩ := Deployment.isSame_iff.mp hsame
    exact ⟨other, hother, hserves, by rw [hns, hname]⟩

/-- What a pass sends when no listing fails: the records of the versions, registry by registry, and
then those of the ready deployments that are not skipped. -/
theorem upserts_visitAll (style : Style) {s : σ}
    (hlisted : ((visitAll style directory).trace h s).any listingFailed = false) :
    ∃ q : Progress, (∀ d, q.serves d = true ↔ w.Covered directory d) ∧
      upserts ((visitAll style directory).trace h s) =
        directory.toList.flatMap (w.registryUpserts style) ++
          w.deployments.flatMap fun d => if d.isRegistryManaged || q.serves d || !d.isReady then []
            else w.upsertsOf style (.deployment d) := by
  rw [trace_visitAll, cluster.deployments] at hlisted ⊢
  have hlistedHalves : ((halves style directory (.ok w.deployments)).trace h
      (h .deployments s).2).any listingFailed = false := hlisted
  have hfirst : Posts h (directory.toList.foldlM (visitRegistry style w.deployments)
      { complete := true }) (h .deployments s).2
      (directory.toList.flatMap (w.registryUpserts style)) :=
    .foldlM (fun _ => True) (fun endpoint hendpoint p s _ =>
      ⟨posts_visitRegistry cluster (registries endpoint hendpoint) style p s, trivial⟩) trivial _
  have hlistedFirst := hlistedHalves
  unfold halves at hlistedFirst
  rw [Proc.trace_bind, List.any_append, Bool.or_eq_false_iff] at hlistedFirst
  refine ⟨_, serves_iff_covered cluster registries style rfl hlistedFirst.1, ?_⟩
  exact hfirst.bind (fun _ => posts_visitDeployments cluster style w.deployments _ _) hlistedHalves

/-- When no listing fails, a pass sends the records of the subjects that are ready, and no other. -/
theorem mem_upserts_visitAll (style : Style) {s : σ}
    (hlisted : ((visitAll style directory).trace h s).any listingFailed = false) {u : Upsert} :
    u ∈ upserts ((visitAll style directory).trace h s) ↔
      ∃ x, w.Stands directory x ∧ x.Ready ∧ u ∈ w.upsertsOf style x := by
  obtain ⟨q, hserves, hsent⟩ := upserts_visitAll cluster registries style hlisted
  rw [hsent, List.mem_append, List.mem_flatMap, List.mem_flatMap]
  constructor
  · rintro (⟨endpoint, hendpoint, hu⟩ | ⟨d, hd, hu⟩)
    · obtain ⟨model, version, hlive, hu⟩ := mem_registryUpserts_iff.mp hu
      exact ⟨_, .version hendpoint hlive, trivial, hu⟩
    · by_cases hskip : (d.isRegistryManaged || q.serves d || !d.isReady) = true
      · rw [if_pos hskip] at hu
        cases hu
      · rw [if_neg hskip] at hu
        simp only [Bool.or_eq_true, Bool.not_eq_true', not_or, Bool.not_eq_true, Bool.not_eq_false]
          at hskip
        refine ⟨_, .deployment hd hskip.1.1 (fun hcovered => ?_), hskip.2, hu⟩
        exact Bool.eq_false_iff.mp hskip.1.2 ((hserves d).mpr hcovered)
  · rintro ⟨_, ⟨hendpoint, hlive⟩ | ⟨hd, hunmanaged, huncovered⟩, hready, hu⟩
    · exact .inl ⟨_, hendpoint, mem_registryUpserts_iff.mpr ⟨_, _, hlive, hu⟩⟩
    · rename_i d
      have hserved : q.serves d = false :=
        Bool.eq_false_iff.mpr fun h => huncovered ((hserves d).mp h)
      refine .inr ⟨d, hd, ?_⟩
      have hready : d.isReady = true := hready
      simpa [hunmanaged, hserved, hready] using hu

end

end CatalogSync.Sync
