import CatalogSync.Proofs.Sync.Acceptance
import CatalogSync.Proofs.Sync.Lasting
/-!
# A cycle beside a pass

A cycle and a full pass are under way at the same time, and take turns at their calls. They have
nothing in common but the storage service. A record that the cycle sends stays unless the pass
submits its keys later and without the key of the record (`kept_beside_pass`).

The pass takes its keys from the deployments that it has listed and from its registries. So the
record stays if it is one of a version that a registry knows all the time, or one of a deployment that
is in the list as the cycle has read it. The record of a deployment that appears too late for the list
is removed, and so is that of a version which the pass no longer finds (`lost_beside_pass`). The next
cycle or pass brings back what ought to be there.
-/

namespace CatalogSync.Sync

open Proc (Handler Leads interleave eventsOf unsteady)
open Registry (RegisteredModel ModelVersion)
open Storage (AtLeast Client Depot Store)
open Storage.Service (Backed Reliable)

/-! ## §1 Meetings

What the service answers cannot be computed in passing: it reads its requests. So the calls of the
two are listed beside a service that keeps keys only, and the answers are compared with what is
known of the real one. -/

/-- A service that keeps keys in place of records. -/
def keysOnly : Handler Storage.Publishing.interface (List ImportKey)
  | .upsert key _ _, stored => (.ok (if key ∈ stored then .updated else .created), key :: stored)
  | .keySet keys, stored => (.ok (stored.filter (· ∉ keys)), stored.filter (· ∈ keys))
  | .list, stored => (.ok stored, stored)

/-- A service without records. -/
def noRecords : Depot := { store := .empty }

section

variable {τ : Type} (outside : Handler interface τ) (seen b : Bridge) (turns : List Side) (t : τ)

/-- A cycle for a deployment and a pass, beside a service that has no records to begin with. -/
def meeting : Proc.Woven interface Side Unit (τ × Depot) :=
  interleave (beside outside (storageClient.service Depot.handler)) turns
    (together seen none fraud.ns fraud.name b) (t, noRecords)

/-- The same beside a service that keeps keys only. -/
def sketch : Proc.Woven interface Side Unit (τ × List ImportKey) :=
  interleave (beside outside keysOnly) turns (together seen none fraud.ns fraud.name b) (t, [])

variable {outside seen b turns t}

theorem meeting_of_served {d : Depot} (hserved : Leads (storageClient.service Depot.handler)
      noRecords (serviceEvents ((sketch outside seen b turns t).log.map (·.2))) d) :
    (meeting outside seen b turns t).running = (sketch outside seen b turns t).running ∧
      (meeting outside seen b turns t).state.2 = d ∧
      (meeting outside seen b turns t).log = (sketch outside seen b turns t).log := by
  obtain ⟨hrunning, hstate, hlog⟩ := Proc.interleave_of_leads
    (leads_beside (Proc.leads_interleave _ turns _ (t, [])) hserved)
  exact ⟨hrunning, congrArg Prod.snd hstate, hlog⟩

end

section

variable {u : Upsert} (hu : u.Sound) (hfits : u.body.Fits)
include hu hfits

/-- A record is compared with the one that is there. -/
theorem service_writes (d : Depot) : ∃ d' told,
    storageClient.service Depot.handler (.upsert u.key u.provenance u.body) d =
        (.ok (outcomeAfter u.marker (d.store.get? u.key)), d') ∧
      Storage.Service.Wrote Depot.handler u.key
        (Storage.Service.recordOf u.body u.marker u.provenance) d.store
        (.ok (outcomeAfter u.marker (d.store.get? u.key))) d'.store told := by
  obtain ⟨outcome, hwrote, -, hwrite⟩ := Client.service_upsert_written (c := storageClient)
    (s := d) u.provenance Depot.backed_handler Depot.reliable_handler hfits hu
  obtain ⟨rfl, -⟩ := outcome_of_wrote hwrote fun _ => rfl
  exact ⟨_, _, hwrite, hwrote⟩

/-- A record is removed when keys are submitted without its key. -/
theorem served_once : ∃ d, Leads (storageClient.service Depot.handler) noRecords
      [⟨.upsert u.key u.provenance u.body, .ok .created⟩, ⟨.keySet [], .ok [u.key]⟩] d ∧
    d.store.get? u.key = none := by
  obtain ⟨d, _, hwrite, hwrote⟩ := service_writes hu hfits noRecords
  obtain ⟨gone, hgone, hkeySet, -⟩ := Client.service_keySet (c := storageClient) (s := d)
    Depot.backed_handler Depot.reliable_handler []
  have hkeys : d.store.keys = [u.key] := by
    generalize d.store = after at hwrote
    cases hwrote with
    | created => rfl
  obtain rfl : gone = [u.key] := by
    rw [hgone, hkeys]
    rfl
  have hremoved := get?_keySet (c := storageClient) (r := d) (k := u.key) Depot.backed_handler
    Depot.reliable_handler []
  rw [hkeySet] at hremoved
  exact ⟨_, .step hwrite (.step hkeySet (.nil _)), hremoved⟩

/-- A record that is sent again is updated. It stays when its key is submitted. -/
theorem served_twice : ∃ d, Leads (storageClient.service Depot.handler) noRecords
    [⟨.upsert u.key u.provenance u.body, .ok .created⟩,
      ⟨.upsert u.key u.provenance u.body, .ok .updated⟩, ⟨.keySet [u.key], .ok []⟩] d := by
  obtain ⟨d, _, hwrite, hwrote⟩ := service_writes hu hfits noRecords
  obtain ⟨imported, hget⟩ := (outcome_of_wrote hwrote fun _ => rfl).2 nofun
  obtain ⟨d', _, hwrite', hwrote'⟩ := service_writes hu hfits d
  have hupdated : outcomeAfter u.marker (d.store.get? u.key) = .updated := by
    rw [hget]
    exact if_neg (Nat.lt_irrefl _)
  rw [hupdated] at hwrite'
  obtain ⟨gone, hgone, hkeySet, -⟩ := Client.service_keySet (c := storageClient) (s := d')
    Depot.backed_handler Depot.reliable_handler [u.key]
  obtain rfl : gone = [] := by
    rw [hgone, List.filter_eq_nil_iff]
    intro k hk
    -- There are no other records.
    have hk : k = u.key := by
      by_contra hne
      rw [SortedMap.mem_keys_iff, hwrote'.get?_of_ne hne, hwrote.get?_of_ne hne] at hk
      cases hk
    simp [hk, SortedSet.contains_ofList]
  exact ⟨_, .step hwrite (.step hwrite' (.step hkeySet (.nil _)))⟩

end

/-! ## §2 What is kept -/

section

variable {σ : Type} {h : Handler interface σ} {seen b : Bridge} {cancel : Cancellation}
  {ns name : String} {turns : List Side} {s : σ} {run : Proc.Woven interface Side Unit σ}
  (hrun : interleave h turns (together seen cancel ns name b) s = run)
include hrun

/-- To the cycle, the pass is part of the surroundings. -/
theorem exists_trace_cycle : ∃ states,
    eventsOf .cycle run.log <+: (seen.reconcile cancel ns name).trace (unsteady h) states := by
  obtain ⟨states, states', htrace⟩ := Proc.exists_trace_interleave h turns
    (together seen cancel ns name b) s .cycle
  rw [together, Proc.trace_bind, Proc.trace_done, List.append_nil, hrun] at htrace
  exact ⟨states, _, htrace.symm⟩

variable (hended : run.running .pass = .done ())
include hended

/-- To a pass that has ended, the cycle is part of the surroundings. -/
theorem exists_trace_pass :
    ∃ states, eventsOf .pass run.log = (b.fullPass none).trace (unsteady h) states := by
  obtain ⟨states, states', htrace⟩ := Proc.exists_trace_interleave h turns
    (together seen cancel ns name b) s .pass
  rw [together, Proc.trace_bind, Proc.trace_done, List.append_nil, hrun, hended, Proc.trace_done,
    List.append_nil] at htrace
  exact ⟨states, htrace.symm⟩

theorem ended_together : Ended run.log := by
  obtain ⟨states, hcycle⟩ := exists_trace_cycle hrun
  obtain ⟨states', hpass⟩ := exists_trace_pass hrun hended
  obtain ⟨hone, hsends, -⟩ := trace_reconcile (h := unsteady h) seen cancel ns name states
  refine ⟨hone.front (hcycle.filterMap _), fun e he => hsends e (hcycle.subset he), ?_⟩
  rw [hpass]
  exact trace_fullPass_cases b states'

omit hended in
/-- When the cycle has sent a record, it has read a deployment before, for which it has sent it. -/
theorem exists_read {before after : List (Side × Event interface)} {u : Upsert}
    {answer : Except Fault Storage.WriteOutcome} (hlog : run.log = before ++
      (.cycle, ⟨.storage (.upsert u.key u.provenance u.body), answer⟩) :: after) :
    ∃ d, ⟨.deployment ns name, .ok (some d)⟩ ∈ eventsOf .cycle before ∧
      ∃ states, SentFor (unsteady h) seen.style seen.directory d states u := by
  obtain ⟨states, hcycle⟩ := exists_trace_cycle hrun
  rw [hlog, Proc.eventsOf_append, Proc.eventsOf_cons_self] at hcycle
  have hu : u ∈ upserts ((seen.reconcile cancel ns name).trace (unsteady h) states) := by
    refine upserts_subset hcycle.subset ?_
    rw [upserts_append]
    exact List.mem_append_right _ List.mem_cons_self
  obtain ⟨d, hread, hsent⟩ := sentFor_of_reconcile hu
  refine ⟨d, ?_, _, hsent⟩
  -- The call that reads the deployment is the first one, and it sends nothing.
  obtain ⟨-, -, rest, hfront⟩ := trace_reconcile (h := unsteady h) seen cancel ns name states
  have hfirst := hcycle.trans hfront
  rw [hread] at hfirst
  cases hbefore : eventsOf .cycle before with
  | nil =>
    rw [hbefore, List.nil_append, List.cons_prefix_cons] at hfirst
    cases hfirst.1
  | cons e events =>
    rw [hbefore, List.cons_append, List.cons_prefix_cons] at hfirst
    rw [hfirst.1]
    exact List.mem_cons_self

/-- The pass submits the key of a record that the cycle has sent for a version, and that of a record
that it has sent for a deployment which the pass has listed. -/
theorem mem_of_submitted {w : World} (registries : ∀ endpoint ∈ seen.directory.toList,
      w.AnsweredAt h endpoint ∧ (w.registry endpoint).Consistent)
    (hfound : b.found (eventsOf .pass run.log) = seen.directory) {d : Deployment} {u : Upsert}
    {states : Nat → σ} (hsent : SentFor (unsteady h) seen.style seen.directory d states u)
    (hkept : u.provenance = .registry ∨
      ∀ listed, ⟨.deployments, .ok listed⟩ ∈ eventsOf .pass run.log →
        d ∈ listed ∧ ¬ World.Misled { w with deployments := listed } seen.directory d ∧
          ¬ World.Shadowed { w with deployments := listed } seen.directory d) :
    ∀ keys ∈ submittedKeys (eventsOf .pass run.log), u.key ∈ keys := by
  intro keys hkeys
  obtain ⟨states', hpass⟩ := exists_trace_pass hrun hended
  have hsteady : ∀ endpoint ∈ seen.directory.toList, w.AnsweredAt (unsteady h) endpoint :=
    fun endpoint hendpoint q states => (registries endpoint hendpoint).1 q (states 0)
  obtain ⟨listed, hlisted, hcurrent⟩ := submitted_fullPass (h := unsteady h) b (w := w) states'
    (by rwa [← hpass, hfound]) keys (by rwa [← hpass])
  rw [← hpass] at hlisted hcurrent
  rw [hcurrent, hfound]
  have registries' : ∀ endpoint ∈ seen.directory.toList,
      World.AnsweredAt { w with deployments := listed } (unsteady h) endpoint ∧
        (w.registry endpoint).Consistent :=
    fun endpoint hendpoint => ⟨hsteady endpoint hendpoint, (registries endpoint hendpoint).2⟩
  cases hsent with
  | version hversion sent =>
    exact current_of_found registries' hversion (of_mem_upserts_publishMatch sent).1
  | alone hnone unmanaged ready sent =>
    obtain ⟨hkey, horigin⟩ := of_mem_upserts_publishAlone sent
    obtain ⟨hd, hmisled, hshadowed⟩ := (hkept.resolve_left fun hversion => by
      rw [← horigin] at hversion
      cases hversion) listed hlisted
    refine (current_iff_of_unfound registries' hnone hd unmanaged hkey).mpr (.inl ?_)
    exact fun h => h.elim hmisled hshadowed

end

/-- A cycle and a pass are under way at the same time, beside a service whose backend does not fail.
The registries answer consistently and do not change, and the pass finds those that the cycle knows.
When the pass has ended, a record of the cycle that the service has taken is still there, or a newer
one is, if and only if the keys that the pass has submitted afterwards have its key.

So it is there if the pass has submitted no keys afterwards; if it is the record of a version; and
if it is the record of a deployment that the pass has listed as the cycle has read it, and that
neither a stray record leads to nor a namesake shadows. -/
theorem kept_beside_pass {τ ρ : Type} {h : Handler Storage.Service.interface ρ} {store : ρ → Store}
    (backed : Backed h store) (reliable : Reliable h) (c : Client) (outside : Handler interface τ)
    {w : World} {seen b : Bridge} (registries : ∀ endpoint ∈ seen.directory.toList,
      w.AnsweredAt outside endpoint ∧ (w.registry endpoint).Consistent)
    (cancel : Cancellation) (ns name : String) (turns : List Side) (t : τ) (s : ρ)
    {before after : List (Side × Event interface)} {u : Upsert} {outcome : Storage.WriteOutcome} :
    let run := interleave (beside outside (c.service h)) turns
      (together seen cancel ns name b) (t, s)
    run.running .pass = .done () →
    b.found (eventsOf .pass run.log) = seen.directory →
    run.log = before ++
      (.cycle, ⟨.storage (.upsert u.key u.provenance u.body), .ok outcome⟩) :: after →
    (AtLeast u.marker ((store run.state.2).get? u.key) ↔
        ∀ keys ∈ submittedKeys (eventsOf .pass after), u.key ∈ keys) ∧
      ∃ d, ⟨.deployment ns name, .ok (some d)⟩ ∈ eventsOf .cycle before ∧
        ((submittedKeys (eventsOf .pass after) = [] ∨ u.provenance = .registry ∨
            ∀ listed, ⟨.deployments, .ok listed⟩ ∈ eventsOf .pass run.log →
              d ∈ listed ∧ ¬ World.Misled { w with deployments := listed } seen.directory d ∧
                ¬ World.Shadowed { w with deployments := listed } seen.directory d) →
          AtLeast u.marker ((store run.state.2).get? u.key)) := by
  intro run hended hfound hlog
  obtain ⟨run', hrun⟩ : ∃ run', run = run' := ⟨_, rfl⟩
  rw [hrun] at hended hfound hlog ⊢
  have ended := ended_together hrun hended
  have hsound : u.Sound := by
    refine ended.sound ?_
    rw [hlog, List.map_append, List.map_cons, upserts_append]
    exact List.mem_append_right _ List.mem_cons_self
  -- The record is there right after it was taken.
  have hleads := Proc.leads_interleave (beside outside (c.service h)) turns
    (together seen cancel ns name b) (t, s)
  rw [show interleave _ _ _ _ = _ from hrun, hlog, List.map_append, List.map_cons] at hleads
  obtain ⟨x, -, hleads⟩ := hleads.split
  obtain ⟨htaken, hleads⟩ := hleads.head
  have hthere := atLeast_of_taken (c := c) (r := x.2) backed reliable hsound htaken.symm
  have hstays := (ended.remainder hlog).stays_iff backed reliable hleads hthere
  refine ⟨hstays, ?_⟩
  obtain ⟨d, hread, states, hsent⟩ := exists_read hrun hlog
  refine ⟨d, hread, fun hkept => hstays.mpr fun keys hkeys => ?_⟩
  rcases hkept with hnone | hkept
  · rw [hnone] at hkeys
    cases hkeys
  · refine mem_of_submitted hrun hended (fun endpoint hendpoint => ?_) hfound hsent hkept keys ?_
    · exact ⟨(registries endpoint hendpoint).1.beside _, (registries endpoint hendpoint).2⟩
    · rw [hlog, Proc.eventsOf_append, submittedKeys_append]
      refine List.mem_append_right _ ?_
      rwa [Proc.eventsOf_cons_ne (by decide)]

/-- A registry whose only version is archived. -/
def archived : Registry.Snapshot :=
  { mnist with versions := [{ id := "2", name := "v1", modelId := "1", state := .archived }] }

theorem wellFormed_archived : archived.WellFormed where
  model_id := by decide +kernel
  models_distinct := by decide +kernel
  versions_distinct := by decide +kernel
  parent := by decide +kernel

theorem not_live_archived {endpoint : String} {model : RegisteredModel} {version : ModelVersion} :
    ¬ Registry.Replies.Live (archived.reply endpoint) model version := by
  rintro ⟨-, -, hversion, hlive⟩
  have hversion : version ∈ archived.versions := (List.mem_filter.mp hversion).1
  obtain rfl := List.mem_singleton.mp hversion
  cases hlive

def fraudAndArchived : World := { mnistAndFraud with registry := archived.reply }

/-- A bridge with one fixed registry that makes entries in JSON. -/
def jsonBridge : Bridge := { mnistBridge with style := jsonStyle }

def fraudUpsert : Upsert := .ofEntry jsonStyle fraudEntry none

/-- The pass lists the deployments, then the cycle comes to its end, then the pass does. -/
def passAround : List Side := .pass :: List.replicate 6 .cycle ++ List.replicate 6 .pass

theorem kept_beside_pass_fraud :
    let run := meeting fraudAndArchived.surroundings jsonBridge jsonBridge passAround ()
    run.running .pass = .done () ∧ submittedKeys (eventsOf .pass run.log) = [[fraudKey]] ∧
      AtLeast fraudUpsert.marker (run.state.2.store.get? fraudUpsert.key) := by
  intro run
  have hrun : run = meeting fraudAndArchived.surroundings jsonBridge jsonBridge passAround () := rfl
  clear_value run
  obtain ⟨d, hserved⟩ := served_twice (u := fraudUpsert) (by rfl) fits_fraud
  have hcalls : serviceEvents ((sketch fraudAndArchived.surroundings jsonBridge jsonBridge
      passAround ()).log.map (·.2)) =
      [⟨.upsert fraudUpsert.key fraudUpsert.provenance fraudUpsert.body, .ok .created⟩,
        ⟨.upsert fraudUpsert.key fraudUpsert.provenance fraudUpsert.body, .ok .updated⟩,
        ⟨.keySet [fraudUpsert.key], .ok []⟩] := by rfl
  rw [← hcalls] at hserved
  obtain ⟨hrunning, -, hlog⟩ := meeting_of_served hserved
  rw [← hrun] at hrunning hlog
  have hended : run.running .pass = .done () := by
    rw [hrunning]
    rfl
  have hsubmitted : submittedKeys (eventsOf .pass run.log) = [[fraudKey]] := by
    rw [hlog]
    decide +kernel
  have htaken : (Side.cycle, (⟨.storage (.upsert fraudUpsert.key fraudUpsert.provenance
      fraudUpsert.body), .ok .created⟩ : Event interface)) ∈ run.log := by
    rw [hlog]
    exact List.mem_of_getElem? (i := 6) (by rfl)
  obtain ⟨before, after, hsplit⟩ := List.append_of_mem htaken
  have hleads := Proc.leads_interleave
    (beside fraudAndArchived.surroundings (storageClient.service Depot.handler)) passAround
    (together jsonBridge none fraud.ns fraud.name jsonBridge) ((), noRecords)
  obtain ⟨-, read, hread, hkept⟩ := kept_beside_pass (w := fraudAndArchived) Depot.backed_handler
    Depot.reliable_handler storageClient fraudAndArchived.surroundings
    (fun endpoint _ => ⟨fraudAndArchived.answeredAt_surroundings endpoint,
      Registry.Snapshot.consistent wellFormed_archived endpoint⟩)
    none fraud.ns fraud.name passAround () noRecords (hrun ▸ hended) rfl (hrun ▸ hsplit)
  rw [← meeting, ← hrun] at hleads hkept
  have hanswered {side : Side} {e : Event interface} (he : (side, e) ∈ run.log) :=
    hleads.answered (List.mem_map_of_mem he)
  -- The cycle reads the deployment, and the pass lists it.
  obtain rfl : fraud = read := by
    obtain ⟨_, hanswer⟩ := hanswered (hsplit ▸ List.mem_append_left _ (Proc.mem_eventsOf.mp hread))
    exact Option.some.inj (Except.ok.inj hanswer.symm)
  refine ⟨hended, hsubmitted, hkept (.inr (.inr fun listed hlisted => ?_))⟩
  obtain rfl : [fraud] = listed := by
    obtain ⟨_, hanswer⟩ := hanswered (Proc.mem_eventsOf.mp hlisted)
    exact Except.ok.inj hanswer.symm
  refine ⟨List.mem_singleton.mpr rfl, ?_, ?_⟩
  · rintro ⟨_, _, _, _, keyed, -⟩
    exact not_live_archived keyed.live
  · rintro ⟨other, hother, hne, -⟩
    exact hne (List.mem_singleton.mp hother)

/-! ## §3 What is lost -/

/-- Whether a call has succeeded. A route that is not there has been looked up. -/
def succeeded : Event interface → Bool
  | ⟨.deployment _ _, answer⟩ => answer.toBool
  | ⟨.deployments, answer⟩ => answer.toBool
  | ⟨.details _, answer⟩ => answer.toBool
  | ⟨.registry _, answer⟩ => answer.toBool
  | ⟨.route _, answer⟩ => !answer.isFailure
  | ⟨.storage (.upsert _ _ _), answer⟩ => answer.toBool
  | ⟨.storage (.keySet _), answer⟩ => answer.toBool
  | ⟨.storage .list, answer⟩ => answer.toBool
  | ⟨.requestPass, _⟩ => true

/-- Both have ended, and all of their calls have succeeded. The cycle has read a deployment with the
call of this number, and the service has taken a record from it. -/
structure Undisturbed {σ : Type} (run : Proc.Woven interface Side Unit σ) (n : Nat) (d : Deployment)
    (u : Upsert) : Prop where
  ended : ∀ side, run.running side = .done ()
  succeeded : run.log.all (fun e => succeeded e.2) = true
  read : run.log[n]? = some (.cycle, ⟨.deployment d.ns d.name, .ok (some d)⟩)
  taken : (Side.cycle, (⟨.storage (.upsert u.key u.provenance u.body), .ok .created⟩ :
    Event interface)) ∈ run.log

theorem Undisturbed.congr {σ τ : Type} {run : Proc.Woven interface Side Unit σ}
    {run' : Proc.Woven interface Side Unit τ} {n : Nat} {d : Deployment} {u : Upsert}
    (hundisturbed : Undisturbed run n d u) (hrunning : run'.running = run.running)
    (hlog : run'.log = run.log) : Undisturbed run' n d u where
  ended := hrunning ▸ hundisturbed.ended
  succeeded := hlog ▸ hundisturbed.succeeded
  read := hlog ▸ hundisturbed.read
  taken := hlog ▸ hundisturbed.taken

section

variable {τ : Type} (outside : Handler interface τ)

/-- From this state on the cluster has a deployment, and it stays as it is. -/
def Remains (d : Deployment) (t : τ) : Prop :=
  ∃ there : τ → Prop, there t ∧ ∀ t', there t' → (∀ c, there (outside c t').2) ∧
    (outside (.deployment d.ns d.name) t').1 = .ok (some d) ∧
      ∃ listed, (outside .deployments t').1 = .ok listed ∧ d ∈ listed

/-- The record of a deployment is gone at the end, although nothing has failed. The cycle reads the
deployment when the first turns have been taken. It is ready, and from then on it stays as it is. -/
structure Lost (seen b : Bridge) (first rest : List Side) (t : τ) (d : Deployment) (u : Upsert) :
    Prop where
  ready : d.isReady = true
  remains : Remains outside d (meeting outside seen b first t).state.1
  undisturbed : Undisturbed (meeting outside seen b (first ++ rest) t) first.length d u
  gone : (meeting outside seen b (first ++ rest) t).state.2.store.get? u.key = none

variable {outside} {seen b : Bridge} {first rest : List Side} {t : τ} {d : Deployment} {u : Upsert}

/-- A record is lost when the pass submits that nothing is current. -/
theorem Lost.of_sketch (hu : u.Sound) (hfits : u.body.Fits) (hready : d.isReady = true)
    (hremains : Remains outside d (meeting outside seen b first t).state.1)
    (hundisturbed : Undisturbed (sketch outside seen b (first ++ rest) t) first.length d u)
    (hcalls : serviceEvents ((sketch outside seen b (first ++ rest) t).log.map (·.2)) =
      [⟨.upsert u.key u.provenance u.body, .ok .created⟩, ⟨.keySet [], .ok [u.key]⟩]) :
    Lost outside seen b first rest t d u := by
  obtain ⟨depot, hserved, hgone⟩ := served_once hu hfits
  rw [← hcalls] at hserved
  obtain ⟨hrunning, hstate, hlog⟩ := meeting_of_served hserved
  exact ⟨hready, hremains, hundisturbed.congr hrunning hlog, hstate ▸ hgone⟩

end

/-- Surroundings that show one world up to a certain call, and another one after it. -/
def turning (last : Call → Bool) (earlier later : World) : Handler interface Bool :=
  fun c turned => ((if turned then later else earlier).answer c, turned || last c)

/-- The deployment appears when the deployments have been listed. -/
def appearing : Handler interface Bool :=
  turning (fun | .deployments => true | _ => false)
    { fraudAndArchived with deployments := [] } fraudAndArchived

/-- A deployment that is ready, and whose labels name the version of the registry. -/
def labelled : Deployment := { fraud with labels := namesake.labels }

def serving : World := { mnistAndFraud with deployments := [labelled] }

/-- The version is archived when the details of the deployment have been read. -/
def archiving : Handler interface Bool :=
  turning (fun | .details _ => true | _ => false) serving { serving with registry := archived.reply }

/-- The sources of the version, which the deployment serves. -/
def labelledSources : Catalog.Sources :=
  .ofVersion {} mnistModel mnistVersion [] (some labelled) (some {})

def labelledUpsert : Upsert := .ofEntry jsonStyle (labelledSources.entryAt mnistKey) none

theorem fits_labelled : labelledUpsert.body.Fits := by
  rw [labelledUpsert, Upsert.ofEntry, fits_json_iff]
  decide +kernel

/-- A bridge that has found its registry behind a route. -/
def routedBridge : Bridge := { jsonBridge with origin := .configured behindRoute }

/-- A record is lost when its deployment appears after the pass has listed the deployments. The
record of a version is lost when the version is archived after the cycle has read it, and when the
pass no longer finds the route to the registry that the cycle has read it from. -/
theorem lost_beside_pass :
    Lost appearing jsonBridge jsonBridge [.pass] (.replicate 6 .cycle ++ .replicate 4 .pass) false
        fraud fraudUpsert ∧
      Lost archiving jsonBridge jsonBridge [] (.replicate 8 .cycle ++ .replicate 5 .pass) false
        labelled labelledUpsert ∧
      Lost serving.surroundings routedBridge routedBridge []
        (.replicate 8 .cycle ++ .replicate 3 .pass) () labelled labelledUpsert := by
  refine ⟨?_, ?_, ?_⟩
  · refine .of_sketch (by rfl) fits_fraud (by rfl) ?_ ⟨?_, by rfl, by rfl, ?_⟩ (by rfl)
    · refine ⟨(· = true), by rfl, ?_⟩
      rintro _ rfl
      exact ⟨fun _ => rfl, rfl, _, rfl, List.mem_cons_self⟩
    · intro side
      cases side <;> rfl
    · exact List.mem_of_getElem? (i := 6) (by rfl)
  · refine .of_sketch (by rfl) fits_labelled (by rfl) ?_ ⟨?_, by rfl, by rfl, ?_⟩ (by rfl)
    · refine ⟨fun _ => True, trivial, ?_⟩
      rintro (_ | _) - <;> exact ⟨fun _ => trivial, rfl, _, rfl, List.mem_cons_self⟩
    · intro side
      cases side <;> rfl
    · exact List.mem_of_getElem? (i := 7) (by rfl)
  · refine .of_sketch (by rfl) fits_labelled (by rfl) ?_ ⟨?_, by rfl, by rfl, ?_⟩ (by rfl)
    · exact ⟨fun _ => True, trivial,
        fun _ _ => ⟨fun _ => trivial, rfl, _, rfl, List.mem_cons_self⟩⟩
    · intro side
      cases side <;> rfl
    · exact List.mem_of_getElem? (i := 7) (by rfl)

end CatalogSync.Sync
