import CatalogSync.Proofs.Catalog.Merge
import CatalogSync.Proofs.Storage.Delivery
import CatalogSync.Proofs.Sync.Publication
/-!
# What a pass sends

Every record that a pass sends is one of an entry: the storage service can read its key and its
marker, and its model card, if there is one, is sent for the same key (`Upsert.Sound`). Its key is
among those that the pass notes (`sends_visitAll`), so it is among those that the pass submits.
-/

namespace CatalogSync.Sync

open Proc (Handler)
open Registry (RegisteredModel ModelVersion Directory)

variable {σ α : Type} {h : Handler interface σ}

/-! ## §1 Records -/

/-- The marker of a record that is sent. -/
def Upsert.marker (u : Upsert) : Nat := u.body.marker.toOption.getD 0

/-- The storage service takes what is asked for. -/
def Upsert.Sound (u : Upsert) : Prop :=
  Storage.Service.targetOf (some u.key.text) u.body = .ok (u.key, u.marker)

theorem marker_ofEntry (style : Style) {entry : Catalog.Entry}
    (hentry : entry.lastUpdate ≤ Natural.max64) (card : Option String) :
    (Upsert.ofEntry style entry card).body.marker = .ok entry.lastUpdate :=
  Storage.PostBody.marker_of_render rfl hentry

theorem sound_ofEntry (style : Style) {sources : Catalog.Sources} {entry : Catalog.Entry}
    (hentry : sources.entry = .ok entry) (card : Option String) :
    (Upsert.ofEntry style entry card).Sound ∧
      (Upsert.ofEntry style entry card).marker = entry.lastUpdate := by
  have hmarker := marker_ofEntry style (Catalog.Sources.lastUpdate_entry_le hentry) card
  have hvalue : (Upsert.ofEntry style entry card).marker = entry.lastUpdate := by
    rw [Upsert.marker, hmarker]
    rfl
  have hcard : (if card.isSome then entry.key.text else "") = "" ∨
      (if card.isSome then entry.key.text else "") = entry.key.text := by
    split <;> simp
  refine ⟨?_, hvalue⟩
  rw [Upsert.Sound, hvalue]
  exact Storage.Service.targetOf_eq_ok_iff.mpr
    ⟨Storage.Service.keyOf_text entry.key, hmarker, hcard⟩

/-- A record that is published is one of the entry that the sources make. -/
theorem sound_of_mem_publish {style : Style} {sources : Catalog.Sources} {endpoint : Option String}
    {s : σ} {u : Upsert} (hu : u ∈ upserts ((publish style sources endpoint).proc.trace h s)) :
    u.Sound ∧ sources.key = .ok u.key := by
  obtain ⟨entry, card, hentry, rfl⟩ := exists_entry_of_mem_publish hu
  exact ⟨(sound_ofEntry style hentry card).1, (of_entry hentry).1⟩

/-! ## §2 Parts of a pass -/

/-- A part of a pass drops no keys, and what it sends are sound records whose keys it notes. -/
structure Sends (h : Handler interface σ) (p : Progress) (visit : Proc interface Progress) (s : σ) :
    Prop where
  grows : ∀ k ∈ p.keys.toList, k ∈ (visit.run h s).1.keys.toList
  sent : ∀ u ∈ upserts (visit.trace h s), u.Sound ∧ u.key ∈ (visit.run h s).1.keys.toList

namespace Sends

variable {p : Progress} {visit : Proc interface Progress} {s : σ}

theorem done {q : Progress} (hq : ∀ k ∈ p.keys.toList, k ∈ q.keys.toList) :
    Sends h p (.done q) s := ⟨hq, fun _ hu => nomatch hu⟩

/-- A part may come after calls that send nothing. -/
theorem of_prelude {first : Proc interface α} {f : α → Proc interface Progress}
    (hfirst : SendsNothing first)
    (hrest : Sends h p (f (first.run h s).1) (first.run h s).2) : Sends h p (first >>= f) s where
  grows := by
    rw [Proc.run_bind]
    exact hrest.grows
  sent := by
    rw [Proc.trace_bind, Proc.run_bind, upserts_append, upserts_of_sendsNothing hfirst,
      List.nil_append]
    exact hrest.sent

theorem bind {f : Progress → Proc interface Progress} (hvisit : Sends h p visit s)
    (hf : Sends h (visit.run h s).1 (f (visit.run h s).1) (visit.run h s).2) :
    Sends h p (visit >>= f) s where
  grows k hk := by
    rw [Proc.run_bind]
    exact hf.grows k (hvisit.grows k hk)
  sent u hu := by
    rw [Proc.trace_bind, upserts_append] at hu
    rw [Proc.run_bind]
    rcases List.mem_append.mp hu with hu | hu
    · exact ⟨(hvisit.sent u hu).1, hf.grows _ (hvisit.sent u hu).2⟩
    · exact hf.sent u hu

theorem foldlM {f : Progress → α → Proc interface Progress} {l : List α}
    (hf : ∀ a ∈ l, ∀ p s, Sends h p (f p a) s) : Sends h p (l.foldlM f p) s := by
  induction l generalizing p s with
  | nil => exact .done fun _ hk => hk
  | cons a l ih =>
    rw [Proc.foldlM_cons]
    exact (hf a List.mem_cons_self p s).bind (ih fun b hb => hf b (List.mem_cons_of_mem _ hb))

/-- A task that is counted sends records of the key that was noted before. -/
theorem count {t : Action ImportKey} {key : ImportKey} (hp : key ∈ p.keys.toList)
    (ht : ∀ u ∈ upserts (t.proc.trace h s), u.Sound ∧ u.key = key) :
    Sends h p (t.proc >>= fun r => .done (p.count r)) s where
  grows k hk := by
    rw [Proc.run_bind, Proc.run_done, Progress.keys_count]
    exact hk
  sent u hu := by
    rw [Proc.trace_bind, Proc.trace_done, List.append_nil] at hu
    rw [Proc.run_bind, Proc.run_done, Progress.keys_count]
    obtain ⟨hsound, rfl⟩ := ht u hu
    exact ⟨hsound, hp⟩

end Sends

/-! ## §3 The pass -/

/-- Whatever is answered, the sources of a version have its key. -/
theorem key_of_versionSources {scope : Scope} {model : RegisteredModel} {version : ModelVersion}
    {s : σ} {sources : Catalog.Sources}
    (hrun : ((versionSources scope model version).proc.run h s).1 = .ok sources) :
    sources.key = ImportKey.forModelVersion model.name version.name := by
  unfold versionSources at hrun
  rw [Task.run_bind] at hrun
  cases hartifacts : ((inquire scope.endpoint (Registry.artifactsOf version)).proc.run h s).1 with
  | error f =>
    rw [hartifacts] at hrun
    cases hrun
  | ok artifacts =>
    rw [hartifacts] at hrun
    simp only [Task.andThen] at hrun
    cases hserver : scope.records.server? model version scope.deployments with
    | none =>
      rw [hserver] at hrun
      cases hrun
      rfl
    | some d =>
      rw [hserver] at hrun
      simp only at hrun
      rw [Task.run_lift_bind] at hrun
      cases hrun
      rfl

theorem sound_of_mem_publishVersion {scope : Scope} {model : RegisteredModel}
    {version : ModelVersion} {s : σ} {u : Upsert}
    (hu : u ∈ upserts ((publishVersion scope model version).proc.trace h s)) :
    u.Sound ∧ ImportKey.forModelVersion model.name version.name = .ok u.key := by
  unfold publishVersion at hu
  rw [Task.trace_bind, upserts_append, upserts_of_sendsNothing (sendsNothing_versionSources _ _ _),
    List.nil_append] at hu
  cases hrun : ((versionSources scope model version).proc.run h s).1 with
  | error f =>
    rw [hrun] at hu
    cases hu
  | ok sources =>
    rw [hrun] at hu
    obtain ⟨hsound, hkey⟩ := sound_of_mem_publish hu
    rw [key_of_versionSources hrun] at hkey
    exact ⟨hsound, hkey⟩

theorem sound_of_mem_publishDeployment {style : Style} {d : Deployment} {s : σ} {u : Upsert}
    (hu : u ∈ upserts ((publishDeployment style d).proc.trace h s)) :
    u.Sound ∧ ImportKey.forDeployment d.ns d.name = .ok u.key := by
  unfold publishDeployment at hu
  rw [Task.trace_lift_bind, upserts_append, upserts_of_sendsNothing (sendsNothing_details? d),
    List.nil_append] at hu
  exact sound_of_mem_publish hu

theorem sends_visitVersion (scope : Scope) (model : RegisteredModel) (version : ModelVersion)
    (p : Progress) (s : σ) : Sends h p (visitVersion scope model p version) s := by
  unfold visitVersion
  split
  · exact .done fun _ hk => hk
  next key hkey =>
    have hcount : ∀ deployments, Sends h ((p.add key).serve deployments)
        ((publishVersion scope model version).proc >>= fun r =>
          .done (((p.add key).serve deployments).count r)) s := by
      refine fun deployments => .count ((p.mem_keys_add key key).mpr (.inr rfl)) fun u hu => ?_
      obtain ⟨hsound, hu⟩ := sound_of_mem_publishVersion hu
      exact ⟨hsound, Except.ok.inj (hu.symm.trans hkey)⟩
    exact ⟨fun k hk => (hcount _).grows k ((p.mem_keys_add key k).mpr (.inl hk)), (hcount _).sent⟩

theorem sends_visitModel (scope : Scope) (model : RegisteredModel) (p : Progress) (s : σ) :
    Sends h p (visitModel scope p model) s := by
  unfold visitModel
  refine .of_prelude (sendsNothing_inquire _ _) ?_
  split
  · exact .done fun _ hk => hk
  · exact .foldlM fun version _ p s => sends_visitVersion scope model version p s

theorem sends_visitRegistry (style : Style) (deployments : List Deployment) (endpoint : String)
    (p : Progress) (s : σ) : Sends h p (visitRegistry style deployments p endpoint) s := by
  unfold visitRegistry
  refine .of_prelude (sendsNothing_inquire _ _) ?_
  split
  · exact .done fun _ hk => hk
  · exact .foldlM fun model _ p s => sends_visitModel _ model p s

theorem sends_visitDeployment (style : Style) (d : Deployment) (p : Progress) (s : σ) :
    Sends h p (visitDeployment style p d) s := by
  unfold visitDeployment
  split
  · exact .done fun _ hk => hk
  split
  · exact .done fun _ hk => hk
  next key hkey =>
    have hgrows : ∀ k ∈ p.keys.toList, k ∈ (p.add key).keys.toList :=
      fun k hk => (p.mem_keys_add key k).mpr (.inl hk)
    dsimp only
    split
    · have hcount : Sends h (p.add key) ((publishDeployment style d).proc >>= fun r =>
          .done ((p.add key).count r)) s := by
        refine .count ((p.mem_keys_add key key).mpr (.inr rfl)) fun u hu => ?_
        obtain ⟨hsound, hu⟩ := sound_of_mem_publishDeployment hu
        exact ⟨hsound, Except.ok.inj (hu.symm.trans hkey)⟩
      exact ⟨fun k hk => hcount.grows k (hgrows k hk), hcount.sent⟩
    · exact .done hgrows

/-- A pass sends sound records whose keys it notes, whatever fails and whatever is answered. -/
theorem sends_visitAll (style : Style) (directory : Directory) (s : σ) :
    ∀ u ∈ upserts ((visitAll style directory).trace h s),
      u.Sound ∧ u.key ∈ ((visitAll style directory).run h s).1.keys.toList := by
  have hall : visitAll style directory = deployments.proc >>= halves style directory := rfl
  have hlist : SendsNothing deployments.proc := ⟨rfl, fun _ => trivial⟩
  have hsends : Sends h { complete := (deployments.proc.run h s).1.isOk }
      (visitAll style directory) s := by
    rw [hall]
    refine .of_prelude hlist ?_
    unfold halves
    refine Sends.bind (.foldlM fun endpoint _ p s => ?_) (.foldlM fun d _ p s => ?_)
    · exact sends_visitRegistry style _ endpoint p s
    · exact sends_visitDeployment style d p s
  exact hsends.sent

end CatalogSync.Sync
