import CatalogSync.Proofs.Correlation.Sightings
import CatalogSync.Proofs.Sync.FullPass
import CatalogSync.Proofs.Sync.Subjects
/-!
# What a record is sent for

Every record that a cycle or a pass sends is *warranted*: something that the same cycle or pass was
shown before calls for it. It is made either from a version that a registry has shown together with
its model, neither of them archived, or from a deployment that the cluster has shown, that no
registry manages and that is ready (`Subject.Shown`).

Nothing is assumed of the answers. They may change between two calls, contradict each other, or be
failures; the judgement `Proc.Ensures` covers all of them, and each path that leads to publishing is
one of its derivations.
-/

namespace CatalogSync.Sync

open Registry (RegisteredModel ModelVersion Directory SeenInUse Learns learns_question)
open Correlation (Match)

/-! ## §1 Warrants -/

/-- An answer of the cluster shows a deployment. -/
inductive ShowsDeployment (d : Deployment) : Event interface → Prop where
  | read (ns name : String) : ShowsDeployment d ⟨.deployment ns name, .ok (some d)⟩
  | listed {deployments : List Deployment} (hd : d ∈ deployments) :
      ShowsDeployment d ⟨.deployments, .ok deployments⟩

namespace Subject

/-- A subject was shown, and it is one that may be published. -/
inductive Shown (past : List (Event interface)) : Subject → Prop where
  | version {endpoint : String} {model : RegisteredModel} {version : ModelVersion}
      (seen : SeenInUse (fun e => addressed endpoint e ∈ past) model version) :
      Shown past (.version endpoint model version)
  | deployment {d : Deployment} (seen : ∃ e ∈ past, ShowsDeployment d e)
      (unmanaged : d.isRegistryManaged = false) (ready : d.isReady = true) :
      Shown past (.deployment d)

/-- The sources describe a subject. What else they say of it is left open. -/
inductive Describes (defaults : Catalog.Defaults) : Subject → Catalog.Sources → Prop where
  | version (endpoint : String) (model : RegisteredModel) (version : ModelVersion)
      (artifacts : List Registry.Artifact) (server : Option Deployment)
      (details : Option ServingDetails) : Describes defaults (.version endpoint model version)
        (.ofVersion defaults model version artifacts server details)
  | deployment (d : Deployment) (details : Option ServingDetails) :
      Describes defaults (.deployment d) (.ofDeployment defaults d details)

variable {past now : List (Event interface)} {x : Subject}

theorem Shown.extend (hx : x.Shown past) (hnow : past <+: now) : x.Shown now := by
  cases hx with
  | version seen => exact .version (seen.mono fun _ he => hnow.subset he)
  | deployment seen unmanaged ready =>
    obtain ⟨e, he, hshows⟩ := seen
    exact .deployment ⟨e, hnow.subset he, hshows⟩ unmanaged ready

theorem Describes.key {defaults : Catalog.Defaults} {sources : Catalog.Sources}
    (hsources : x.Describes defaults sources) : sources.key = x.key := by
  cases hsources <;> rfl

theorem Describes.provenance {defaults : Catalog.Defaults} {sources : Catalog.Sources}
    (hsources : x.Describes defaults sources) : sources.provenance = x.provenance := by
  cases hsources <;> rfl

end Subject

/-- A record is made from what describes a subject. -/
def Upsert.MadeFor (style : Style) (x : Subject) (u : Upsert) : Prop :=
  ∃ sources entry card, x.Describes style.defaults sources ∧ sources.entry = .ok entry ∧
    u = .ofEntry style entry card

theorem Upsert.MadeFor.key_and_provenance {style : Style} {x : Subject} {u : Upsert}
    (hu : u.MadeFor style x) : x.key = .ok u.key ∧ u.provenance = x.provenance := by
  obtain ⟨sources, entry, card, hsources, hentry, rfl⟩ := hu
  obtain ⟨hkey, hprovenance⟩ := of_entry hentry
  exact ⟨hsources.key ▸ hkey, (hsources.provenance ▸ hprovenance).symm⟩

/-- If a call sends a record, something that was shown before calls for it. -/
def Warranted (style : Style) (past : List (Event interface)) : Call → Prop
  | .storage (.upsert key provenance body) =>
    ∃ x : Subject, x.Shown past ∧ Upsert.MadeFor style x ⟨key, provenance, body⟩
  | _ => True

theorem warranted_of_sendsNothing {style : Style} {past : List (Event interface)} {c : Call}
    (hc : c.sendsNothing = true) : Warranted style past c := by
  rcases c with _ | _ | _ | _ | _ | c | _
  case storage =>
    cases c with
    | upsert key provenance body => cases hc
    | _ => trivial
  all_goals trivial

section

variable {style : Style} {past : List (Event interface)} {α : Type}

/-- Every record that a procedure sends is warranted. -/
abbrev SendsWarranted (style : Style) (p : Proc interface α) (past : List (Event interface)) :
    Prop := p.Ensures (Warranted style) (fun _ _ => True) past

theorem sendsWarranted_of_sendsNothing {p : Proc interface α} (hp : SendsNothing p) :
    SendsWarranted style p past :=
  .of_calls hp fun _ _ hc => warranted_of_sendsNothing hc

/-- Nothing is asked of the result of a task. -/
theorem SendsWarranted.task {t : Action α} (ht : SendsWarranted style t.proc past) :
    t.Ensures (Warranted style) (fun _ _ => True) past :=
  ht.imp (fun _ _ hc => hc) fun _ _ _ _ _ => trivial

theorem SendsWarranted.of_task {t : Action α} {Q : List (Event interface) → α → Prop}
    (ht : t.Ensures (Warranted style) Q past) : SendsWarranted style t.proc past :=
  Proc.Ensures.imp ht (fun _ _ hc => hc) fun _ _ _ => trivial

theorem SendsWarranted.bind {β : Type} {p : Proc interface α} {f : α → Proc interface β}
    (hp : SendsWarranted style p past) (hf : ∀ now a, past <+: now → SendsWarranted style (f a) now) :
    SendsWarranted style (p >>= f) past :=
  Proc.Ensures.bind hp fun now a hnow _ => hf now a hnow

/-! ## §2 Publishing -/

theorem ensures_details? (d : Deployment) : SendsWarranted style (details? d) past :=
  sendsWarranted_of_sendsNothing (sendsNothing_details? d)

/-- What an inquiry learns is learned from answers that were addressed to the registry. -/
theorem ensures_inquire {i : Registry.Inquiry α} {Q : List (Event Registry.interface) → α → Prop}
    (endpoint : String) (hi : Learns i [] Q) : (inquire endpoint i).Ensures (Warranted style)
      (fun now a => ∃ own, (∀ e ∈ own, addressed endpoint e ∈ now) ∧ Q own a) past := by
  refine Proc.Ensures.imp (P := Warranted style) (Proc.Ensures.through_shown (addressed endpoint) hi
    fun q now => ⟨trivial, fun answer => ?_⟩) (fun _ _ hc => hc) ?_
  · exact List.mem_append_right _ (List.mem_singleton.mpr rfl)
  · intro now r ⟨own, hown, hr⟩ a ha
    exact ⟨own, hown, hr a ha⟩

theorem ensures_question (endpoint : String) (q : Registry.Query) :
    (inquire endpoint (Registry.question q)).Ensures (Warranted style)
      (fun now reply => addressed endpoint ⟨q, .ok reply⟩ ∈ now) past := by
  refine (ensures_inquire endpoint (learns_question q)).imp ?_
  intro now reply ⟨own, hown, hreply⟩
  exact hown _ hreply

theorem sendsWarranted_publish {x : Subject} {sources : Catalog.Sources} (hx : x.Shown past)
    (hsources : x.Describes style.defaults sources) (endpoint : Option String) :
    (publish style sources endpoint).Ensures (Warranted style) (fun _ _ => True) past := by
  have hcard : ∀ entry, SendsNothing (cardOf entry endpoint).proc :=
    fun entry => calls_cardOf (fun _ _ => rfl) entry endpoint
  refine .bind (Q := fun _ entry => sources.entry = .ok entry)
    (.ofExcept sources.entry fun entry hentry => hentry) fun now entry hnow hentry => ?_
  refine .bind (sendsWarranted_of_sendsNothing (hcard entry)).task fun later card hlater _ => ?_
  refine .bind (Q := fun _ _ => True) ⟨?_, fun _ _ _ => trivial⟩ fun _ _ _ _ => .pure trivial
  exact ⟨x, hx.extend (hnow.trans hlater), sources, entry, card, hsources, hentry, rfl⟩

/-- A version is published with any deployment. -/
theorem sendsWarranted_publishMatch {found : Match} (hfound : SeenInUse
    (fun e => addressed found.endpoint e ∈ past) found.model found.version) (d : Deployment) :
    (publishMatch style found d).Ensures (Warranted style) (fun _ _ => True) past := by
  have hserver : SendsNothing (serverOf found d).proc := sendsNothing_serverOf found d
  refine .bind (sendsWarranted_of_sendsNothing hserver).task fun now server hnow _ => ?_
  refine .lift_bind (ensures_details? server) fun later details hlater _ => ?_
  refine .bind (sendsWarranted_publish ?_ (.version found.endpoint found.model found.version
    found.artifacts (some server) details) _) fun _ _ _ _ => .pure trivial
  exact (Subject.Shown.version hfound).extend (hnow.trans hlater)

theorem sendsWarranted_publishAlone {d : Deployment} (hd : Subject.Shown past (.deployment d)) :
    (publishAlone style d).Ensures (Warranted style) (fun _ _ => True) past := by
  refine .lift_bind (ensures_details? d) fun now details hnow _ => ?_
  exact .bind (sendsWarranted_publish (hd.extend hnow) (.deployment d details) none)
    fun _ _ _ _ => .pure trivial

/-! ## §3 Cycles -/

theorem ensures_correlate (directory : Directory) (d : Deployment) :
    (correlate directory d).Ensures (Warranted style) (fun now found => ∀ m ∈ found,
      SeenInUse (fun e => addressed m.endpoint e ∈ now) m.model m.version) past := by
  refine Proc.Ensures.imp (P := Warranted style) (Proc.Ensures.through_shown
    (fun e => (⟨.registry e.call, e.answer⟩ : Event interface))
    (Correlation.ensures_correlate directory [])
    fun question now => ⟨trivial, fun answer => ?_⟩) (fun _ _ hc => hc) ?_
  · exact List.mem_append_right _ (List.mem_singleton.mpr rfl)
  · intro now found ⟨own, hown, hfound⟩ m hm
    exact (hfound m hm).mono fun e he => hown _ he

theorem sendsWarranted_settle (directory : Directory) {d : Deployment}
    (hd : ∃ e ∈ past, ShowsDeployment d e) :
    (settle style directory d).Ensures (Warranted style) (fun _ _ => True) past := by
  refine .lift_bind (ensures_correlate directory d) fun now found hnow hfound => ?_
  cases found with
  | some m => exact .bind (sendsWarranted_publishMatch (hfound m rfl) d) fun _ _ _ _ => .pure trivial
  | none =>
    dsimp only
    split
    · exact .pure trivial
    next hunmanaged =>
      split
      next hready =>
        refine .bind (sendsWarranted_publishAlone ?_) fun _ _ _ _ => .pure trivial
        exact (Subject.Shown.deployment hd (Bool.eq_false_iff.mpr hunmanaged) hready).extend hnow
      · exact .pure trivial

theorem sendsWarranted_cycle (directory : Directory) (ns name : String) :
    (cycle style directory ns name).Ensures (Warranted style) (fun _ _ => True) past := by
  have hread : (deployment ns name).Ensures (Warranted style)
      (fun now found => ∀ d ∈ found, ∃ e ∈ now, ShowsDeployment d e) past := by
    refine ⟨trivial, fun answer found hfound d hd => ⟨_, List.mem_append_right _
      (List.mem_singleton.mpr rfl), ?_⟩⟩
    obtain rfl := Option.mem_def.mp hd
    rw [hfound]
    exact .read ns name
  refine .bind hread fun now found _ hfound => ?_
  cases found with
  | some d => exact sendsWarranted_settle directory (hfound d rfl)
  | none =>
    have hrequest : SendsNothing requestPass := ⟨rfl, fun _ => trivial⟩
    exact .lift_bind (sendsWarranted_of_sendsNothing hrequest) fun _ _ _ _ => .pure trivial

/-! ## §4 Passes -/

section

variable {scope : Scope} {model : RegisteredModel} {version : ModelVersion}

theorem ensures_versionSources : (versionSources scope model version).Ensures (Warranted style)
    (fun _ sources => (Subject.version scope.endpoint model version).Describes scope.style.defaults
      sources) past := by
  have hartifacts : SendsNothing
      (inquire scope.endpoint (Registry.artifactsOf version)).proc := sendsNothing_inquire _ _
  refine .bind (sendsWarranted_of_sendsNothing hartifacts).task fun now artifacts _ _ => ?_
  split
  · exact .pure (.version _ _ _ _ _ _)
  · exact .lift_bind (ensures_details? _) fun _ details _ _ => .pure (.version _ _ _ _ _ _)

theorem sendsWarranted_visitVersion (hstyle : scope.style = style)
    (hseen : SeenInUse (fun e => addressed scope.endpoint e ∈ past) model version) (p : Progress) :
    SendsWarranted style (visitVersion scope model p version) past := by
  unfold visitVersion
  split
  · trivial
  · refine .bind (.of_task (Q := fun _ _ => True) ?_) fun _ _ _ => trivial
    refine .bind ensures_versionSources fun now sources hnow hsources => ?_
    rw [hstyle] at hsources ⊢
    exact sendsWarranted_publish ((Subject.Shown.version hseen).extend hnow) hsources _

/-- The versions that are treated are in use, and so is their model. -/
theorem sendsWarranted_visitModel (hstyle : scope.style = style)
    (hmodel : ∃ e, addressed scope.endpoint e ∈ past ∧ Registry.ShowsModel model e)
    (hinUse : model.isArchived = false) (p : Progress) :
    SendsWarranted style (visitModel scope p model) past := by
  unfold visitModel
  refine Proc.Ensures.bind (ensures_question scope.endpoint (.versions model.id))
    fun now r hnow hr => ?_
  cases r with
  | error f => trivial
  | ok versions =>
    refine .foldlM (fun version hversion later p hlater _ => ?_) trivial
    obtain ⟨hlisted, hversionInUse⟩ := List.mem_filter.mp hversion
    refine sendsWarranted_visitVersion hstyle ?_ p
    exact {
      model_shown := hmodel.imp fun e he => ⟨(hnow.trans hlater).subset he.1, he.2⟩
      version_shown := ⟨_, hlater.subset (hr versions rfl), .listed hlisted⟩
      model_inUse := hinUse
      version_inUse := Bool.not_eq_true' _ |>.mp hversionInUse }

end

theorem sendsWarranted_visitRegistry (deployments : List Deployment) (p : Progress)
    (endpoint : String) :
    SendsWarranted style (visitRegistry style deployments p endpoint) past := by
  have hlist : Learns Sync.listRegistry [] fun now listed => ⟨.models, .ok listed.1⟩ ∈ now := by
    refine .bind (learns_question .models) fun now models _ hmodels => ?_
    exact .bind (.trivial _) fun later records hlater _ => .pure (hlater.subset hmodels)
  unfold visitRegistry
  refine Proc.Ensures.bind (ensures_inquire endpoint hlist) fun now r _ hr => ?_
  rcases r with f | ⟨models, records⟩
  · trivial
  · obtain ⟨own, hown, hmodels⟩ := hr _ rfl
    refine .foldlM (fun model hmodel later p hlater _ => ?_) trivial
    obtain ⟨hlisted, hinUse⟩ := List.mem_filter.mp hmodel
    refine sendsWarranted_visitModel rfl ?_ (Bool.not_eq_true' _ |>.mp hinUse) p
    exact ⟨_, hlater.subset (hown _ hmodels), .listed hlisted⟩

theorem sendsWarranted_visitDeployment {d : Deployment} (hd : ∃ e ∈ past, ShowsDeployment d e)
    (p : Progress) : SendsWarranted style (visitDeployment style p d) past := by
  unfold visitDeployment
  split
  · trivial
  next hunmanaged =>
    rw [Bool.not_eq_true, Bool.or_eq_false_iff] at hunmanaged
    split
    · trivial
    · dsimp only
      split
      next hready =>
        refine .bind (.of_task (Q := fun _ _ => True) ?_) fun _ _ _ => trivial
        refine .lift_bind (ensures_details? d) fun now details hnow _ => ?_
        exact sendsWarranted_publish ((Subject.Shown.deployment hd hunmanaged.1 hready).extend hnow)
          (.deployment d details) none
      · trivial

theorem sendsWarranted_visitAll (directory : Directory) :
    SendsWarranted style (visitAll style directory) past := by
  have hlist : deployments.proc.Ensures (Warranted style)
      (fun now listed => ⟨.deployments, listed⟩ ∈ now) past :=
    ⟨trivial, fun _ => List.mem_append_right _ (List.mem_singleton.mpr rfl)⟩
  unfold visitAll
  refine Proc.Ensures.bind hlist fun now listed _ hlisted => ?_
  refine SendsWarranted.bind (.foldlM (fun endpoint _ _ p _ _ =>
    sendsWarranted_visitRegistry _ p endpoint) trivial) fun later p hlater => ?_
  refine .foldlM (fun d hd last p hlast _ => sendsWarranted_visitDeployment ?_ p) trivial
  cases listed with
  | error f => cases hd
  | ok l => exact ⟨_, (hlater.trans hlast).subset hlisted, .listed hd⟩

theorem sendsWarranted_pass (directory : Directory) :
    SendsWarranted style (pass style directory).proc past := by
  refine .of_task (Q := fun _ _ => True) (.lift_bind (sendsWarranted_visitAll directory)
    fun now p _ _ => ?_)
  split
  · have hkeys : SendsNothing (storage (.keySet p.keys.toList)).proc := ⟨rfl, fun _ => trivial⟩
    exact .bind (sendsWarranted_of_sendsNothing hkeys).task fun _ _ _ _ => .pure trivial
  · exact .pure trivial

/-! ## §5 Operations of a bridge -/

/-- A procedure that is abandoned sends nothing else. -/
theorem SendsWarranted.cancellable {p : Proc interface α} (hp : SendsWarranted style p past)
    (cancel : Cancellation) (instead : α) :
    SendsWarranted style (cancellable cancel instead p) past := by
  cases cancel with
  | none => exact hp
  | some calls =>
    show SendsWarranted style (p.abandon instead calls) past
    induction p generalizing past calls with
    | done a => cases calls <;> trivial
    | call c resume ih =>
      cases calls with
      | zero => trivial
      | succ calls => exact ⟨hp.1, fun answer => ih answer (hp.2 answer) calls⟩

theorem sendsWarranted_reconcile (b : Bridge) (cancel : Cancellation) (ns name : String) :
    SendsWarranted b.style (b.reconcile cancel ns name) past :=
  (SendsWarranted.of_task (sendsWarranted_cycle b.directory ns name)).cancellable cancel _

/-- Searching for the registries again does not change how entries are made. -/
theorem ensures_refresh (b : Bridge) :
    b.refresh.Ensures (Warranted style) (fun _ found => found.style = b.style) past := by
  rcases b with ⟨bridgeStyle, directory, _ | config⟩
  · rfl
  · have hsearch : (discover config).Calls fun c : Call => ∃ hint, c = .route hint :=
      calls_discover config
    refine Proc.Ensures.bind (.of_calls hsearch fun _ c hc => ?_) fun _ _ _ _ => rfl
    obtain ⟨hint, rfl⟩ := hc
    trivial

theorem sendsWarranted_fullPass (b : Bridge) (cancel : Cancellation) :
    SendsWarranted b.style (b.fullPass cancel) past := by
  refine SendsWarranted.cancellable ?_ cancel _
  refine Proc.Ensures.bind (ensures_refresh b) fun now found _ hfound => ?_
  rw [← hfound]
  exact (sendsWarranted_pass found.directory).bind fun _ _ _ => trivial

end

end CatalogSync.Sync
