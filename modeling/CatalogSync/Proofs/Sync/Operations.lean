import CatalogSync.Proofs.Deployment.Readiness
import CatalogSync.Proofs.Sync.Senders
import CatalogSync.Proofs.Sync.Warrant
/-!
# What cycles and passes publish

Any number of cycles and passes are under way in surroundings that may change with every call and
may fail at every call (`records_grounded`). A record of a deployment alone is sent only for a
deployment that was ready and that no registry claimed; a record of a version only for a version and
a model that were not archived; and no record says that its origin is unknown.

A cycle sends one record at most and never a key set. It asks to be run again exactly when it has
read a deployment that it must wait for (`Awaits`), and then it sends nothing.
-/

namespace CatalogSync.Sync

open Proc (Handler Ends eventsOf)
open Registry (Directory SeenInUse)

variable {ι σ : Type} {h : Handler interface σ}

/-! ## §1 Operations -/

/-- What a bridge can be asked to do. -/
inductive Operation where
  | cycle (b : Bridge) (cancel : Cancellation) (ns name : String)
  | pass (b : Bridge) (cancel : Cancellation)

/-- What comes of it. -/
inductive Operation.Outcome where
  | next (r : Except Fault Next)
  | summary (r : Except Fault Summary × Bridge)

namespace Operation

def proc : Operation → Proc interface Outcome
  | .cycle b cancel ns name => b.reconcile cancel ns name >>= fun r => .done (.next r)
  | .pass b cancel => b.fullPass cancel >>= fun r => .done (.summary r)

def style : Operation → Style
  | .cycle b _ _ _ => b.style
  | .pass b _ => b.style

theorem sendsWarranted (o : Operation) (past : List (Event interface)) :
    SendsWarranted o.style o.proc past := by
  cases o with
  | cycle b cancel ns name =>
    exact (sendsWarranted_reconcile b cancel ns name).bind fun _ _ _ => trivial
  | pass b cancel => exact (sendsWarranted_fullPass b cancel).bind fun _ _ _ => trivial

end Operation

/-! ## §2 Records -/

/-- Every deployment that the surroundings show is one that an inference service describes. -/
structure Described (h : Handler interface σ) : Prop where
  read : ∀ ns name s d, (h (.deployment ns name) s).1 = .ok (some d) → d.Described
  listed : ∀ s deployments, (h .deployments s).1 = .ok deployments → ∀ d ∈ deployments, d.Described

theorem Described.of_shown (described : Described h) {d : Deployment} {e : Event interface} {m : σ}
    (hanswer : e.answer = (h e.call m).1) (hshows : ShowsDeployment d e) : d.Described := by
  cases hshows with
  | read ns name => exact described.read ns name m d hanswer.symm
  | listed hd => exact described.listed m _ hanswer.symm d hd

/-- What was shown before a record was sent justifies it. -/
structure Grounded (style : Style) (past : List (Event interface)) (u : Upsert) : Prop where
  known : u.provenance ≠ .unknown
  clusterOnly : u.provenance = .clusterOnly → ∃ d : Deployment,
    (∃ e ∈ past, ShowsDeployment d e) ∧ u.MadeFor style (.deployment d) ∧ d.Ready ∧ d.Unclaimed ∧
      ImportKey.forDeployment d.ns d.name = .ok u.key
  registry : u.provenance = .registry → ∃ endpoint model version,
    SeenInUse (fun e => addressed endpoint e ∈ past) model version ∧
      u.MadeFor style (.version endpoint model version) ∧
      ImportKey.forModelVersion model.name version.name = .ok u.key

theorem grounded_of_shown {style : Style} {past : List (Event interface)} {u : Upsert} {x : Subject}
    (hpast : ∀ e ∈ past, ∀ d, ShowsDeployment d e → d.Described) (hx : x.Shown past)
    (hu : u.MadeFor style x) : Grounded style past u := by
  obtain ⟨hkey, hprovenance⟩ := hu.key_and_provenance
  cases hx with
  | @version endpoint model version seen =>
    have hregistry : u.provenance = .registry := hprovenance
    exact {
      known := by simp [hregistry]
      clusterOnly := fun h => by simp [hregistry] at h
      registry := fun _ => ⟨endpoint, model, version, seen, hu, hkey⟩ }
  | @deployment d seen unmanaged ready =>
    have hcluster : u.provenance = .clusterOnly := hprovenance
    have hd : d.Described := by
      obtain ⟨e, he, hshows⟩ := seen
      exact hpast e he d hshows
    exact {
      known := by simp [hcluster]
      clusterOnly := fun _ => ⟨d, seen, hu, (Deployment.isReady_iff hd).mp ready,
        Deployment.isRegistryManaged_eq_false_iff.mp unmanaged, hkey⟩
      registry := fun h => by simp [hcluster] at h }

/-! ## §3 Waiting -/

/-- A deployment was read that no registry has a version for, that none claims, and that is not
ready. -/
def Awaits (directory : Directory) (ns name : String) (t : List (Event interface)) : Prop :=
  ∃ (d : Deployment) (searched rest : List (Event interface)),
    t = ⟨.deployment ns name, .ok (some d)⟩ :: (searched ++ rest) ∧
      Ends (correlate directory d) searched none ∧ d.Unclaimed ∧ ¬ d.Ready

/-- A cycle asks to be run again. -/
def AsksAgain (r : Except Fault Next) : Prop := ∃ delay, r = .ok (.again delay)

theorem not_asksAgain_error (f : Fault) : ¬ AsksAgain (.error f) := fun ⟨_, h⟩ => nomatch h

theorem not_asksAgain_settled : ¬ AsksAgain (.ok .settled) := fun ⟨_, h⟩ => nomatch h

theorem not_asksAgain_of_ends {α : Type} {t : Action α} {events : List (Event interface)}
    {r : Except Fault Next}
    (hends : Ends (t >>= fun _ => (pure .settled : Action Next)).proc events r) :
    ¬ AsksAgain r := by
  rw [Task.proc_bind] at hends
  obtain ⟨_, _, a, -, -, hrest⟩ := Proc.ends_bind_iff.mp hends
  cases a with
  | ok a => exact (Proc.ends_done_iff.mp hrest).2 ▸ not_asksAgain_settled
  | error f => exact (Proc.ends_done_iff.mp hrest).2 ▸ not_asksAgain_error f

/-- Exactly where it must wait, a part of a cycle asks to be run again, having sent nothing. -/
def AgainIff (waits : Prop) (t : List (Event interface)) (r : Except Fault Next) : Prop :=
  (AsksAgain r ↔ waits) ∧ (AsksAgain r → upserts t = [])

theorem AgainIff.of_not {waits : Prop} {t : List (Event interface)} {r : Except Fault Next}
    (hr : ¬ AsksAgain r) (hwaits : ¬ waits) : AgainIff waits t r :=
  ⟨iff_of_false hr hwaits, fun h => absurd h hr⟩

theorem againIff_settle {style : Style} {directory : Directory} {d : Deployment}
    {t : List (Event interface)} {r : Except Fault Next}
    (hends : Ends (settle style directory d).proc t r) :
    AgainIff (∃ searched rest, t = searched ++ rest ∧ Ends (correlate directory d) searched none ∧
      d.isRegistryManaged = false ∧ d.isReady = false) t r := by
  obtain ⟨first, later, found, rfl, hfirst, hlater⟩ := Task.ends_lift_bind_iff.mp hends
  cases found with
  | some m =>
    refine .of_not (not_asksAgain_of_ends hlater) fun ⟨searched, rest, heq, hsearched, _⟩ => ?_
    -- The search is over after the same events, however they are cut.
    cases (hfirst.unique hsearched heq).2
  | none =>
    dsimp only at hlater
    split at hlater
    next hmanaged =>
      rw [(Proc.ends_done_iff.mp hlater).2]
      exact .of_not not_asksAgain_settled fun ⟨_, _, _, _, h, _⟩ => by simp [hmanaged] at h
    next hunmanaged =>
      split at hlater
      next hready =>
        refine .of_not (not_asksAgain_of_ends hlater) fun ⟨_, _, _, _, _, h⟩ => ?_
        simp [hready] at h
      next hunready =>
        obtain ⟨rfl, rfl⟩ := Proc.ends_done_iff.mp hlater
        refine ⟨iff_of_true ⟨_, rfl⟩ ⟨first, [], rfl, hfirst, Bool.eq_false_iff.mpr hunmanaged,
          Bool.eq_false_iff.mpr hunready⟩, fun _ => ?_⟩
        rw [List.append_nil]
        exact upserts_eq_nil ((sendsNothing_correlate directory d).of_becomes hfirst)

theorem againIff_cycle {style : Style} {directory : Directory} {ns name : String}
    {t : List (Event interface)} {r : Except Fault Next}
    (hends : Ends (cycle style directory ns name).proc t r)
    (hshown : ∀ e ∈ t, ∀ d, ShowsDeployment d e → d.Described) :
    AgainIff (Awaits directory ns name t) t r := by
  unfold cycle at hends
  rw [Task.proc_bind] at hends
  obtain ⟨answer, later, rfl, hlater⟩ := Proc.ends_call_iff.mp hends
  rcases answer with f | _ | d
  · rw [(Proc.ends_done_iff.mp hlater).2]
    exact .of_not (not_asksAgain_error f) fun ⟨_, _, _, heq, _⟩ => by cases heq
  · obtain ⟨_, _, _, -, -, hlater⟩ := Task.ends_lift_bind_iff.mp hlater
    rw [(Proc.ends_done_iff.mp hlater).2]
    exact .of_not not_asksAgain_settled fun ⟨_, _, _, heq, _⟩ => by cases heq
  · have hd : d.Described := hshown _ List.mem_cons_self d (.read ns name)
    obtain ⟨hagain, hnothing⟩ := againIff_settle hlater
    refine ⟨hagain.trans ⟨?_, ?_⟩, hnothing⟩
    · intro ⟨searched, rest, heq, hsearched, hunmanaged, hunready⟩
      refine ⟨d, searched, rest, congrArg _ heq, hsearched,
        Deployment.isRegistryManaged_eq_false_iff.mp hunmanaged, fun hready => ?_⟩
      simp [(Deployment.isReady_iff hd).mpr hready] at hunready
    · intro ⟨d', searched, rest, heq, hsearched, hunclaimed, hunready⟩
      obtain ⟨hevent, rfl⟩ := List.cons.inj heq
      cases hevent
      exact ⟨searched, rest, rfl, hsearched,
        Deployment.isRegistryManaged_eq_false_iff.mpr hunclaimed,
        Bool.eq_false_iff.mpr fun hready => hunready ((Deployment.isReady_iff hd).mp hready)⟩

/-! ## §4 All operations -/

section

variable [DecidableEq ι]

/-- What an operation has been shown comes from the surroundings. -/
theorem Described.eventsOf (described : Described h) {α : Type} (turns : List ι)
    (tasks : ι → Proc interface α) (s : σ) (i : ι) :
    ∀ e ∈ eventsOf i (Proc.interleave h turns tasks s).log, ∀ d, ShowsDeployment d e →
      d.Described := by
  intro e he d hshows
  obtain ⟨m, hanswer⟩ := (Proc.leads_interleave h turns tasks s).answered
    (List.mem_map_of_mem (Proc.mem_eventsOf.mp he))
  exact described.of_shown hanswer hshows

/-- What a cycle does among other operations is a first part of what it does by itself. -/
theorem eventsOf_cycle {operations : ι → Operation} {turns : List ι} {s : σ} {i : ι} {b : Bridge}
    {cancel : Cancellation} {ns name : String} (hi : operations i = .cycle b cancel ns name) :
    ∃ states, eventsOf i (Proc.interleave h turns (fun i => (operations i).proc) s).log <+:
      (b.reconcile cancel ns name).trace (Proc.unsteady h) states := by
  obtain ⟨states, states', htrace⟩ :=
    Proc.exists_trace_interleave h turns (fun i => (operations i).proc) s i
  rw [hi] at htrace
  refine ⟨states, _, Eq.trans htrace.symm ?_⟩
  rw [Operation.proc, Proc.trace_bind, Proc.trace_done, List.append_nil]

/-- Whatever the surroundings answer, and in whatever order cycles and passes take their turns, every
record is grounded in what its operation was shown before. A cycle sends one record at most and no
key set, and unless it is cancelled it asks to be run again exactly for a deployment that it awaits,
for which it sends nothing. -/
theorem records_grounded (described : Described h) (operations : ι → Operation) (turns : List ι)
    (s : σ) :
    let run := Proc.interleave h turns (fun i => (operations i).proc) s
    (∀ i before u answer after, run.log =
        before ++ (i, ⟨.storage (.upsert u.key u.provenance u.body), answer⟩) :: after →
      Grounded (operations i).style (eventsOf i before) u) ∧
    (∀ i b cancel ns name, operations i = .cycle b cancel ns name →
      (upserts (eventsOf i run.log)).length ≤ 1 ∧ submittedKeys (eventsOf i run.log) = []) ∧
    (∀ i b ns name outcome, operations i = .cycle b none ns name → run.running i = .done outcome →
      ∃ r, outcome = .next r ∧
        (AsksAgain r ↔ Awaits b.directory ns name (eventsOf i run.log)) ∧
        (AsksAgain r → upserts (eventsOf i run.log) = [])) := by
  intro run
  have hshown := described.eventsOf turns (fun i => (operations i).proc) s
  refine ⟨fun i before u answer after hlog => ?_, fun i b cancel ns name hi => ?_,
    fun i b ns name outcome hi hended => ?_⟩
  · obtain ⟨x, hx, hu⟩ := Proc.Ensures.called_interleave hlog ((operations i).sendsWarranted [])
    refine grounded_of_shown (fun e he => hshown i e ?_) hx hu
    show e ∈ eventsOf i run.log
    rw [hlog, Proc.eventsOf_append]
    exact List.mem_append_left _ he
  · obtain ⟨states, hfront⟩ := eventsOf_cycle hi
    obtain ⟨hone, hsends, -⟩ := trace_reconcile (h := Proc.unsteady h) b cancel ns name states
    exact ⟨(hone.front (hfront.filterMap _)).length_le,
      submittedKeys_of_onlySends fun e he => hsends e (hfront.subset he)⟩
  · have hbecomes := Proc.becomes_interleave h turns (fun i => (operations i).proc) s i
    rw [show (Proc.interleave h turns (fun i => (operations i).proc) s).running i = _ from hended,
      hi] at hbecomes
    obtain ⟨first, rest, r, heq, hfirst, hrest⟩ := Proc.ends_bind_iff.mp hbecomes
    obtain ⟨rfl, rfl⟩ := Proc.ends_done_iff.mp hrest
    rw [List.append_nil] at heq
    rw [← heq] at hfirst
    exact ⟨r, rfl, againIff_cycle hfirst (hshown i)⟩

end

/-! ## §5 A ready and an unready deployment -/

/-- A service that is ready. -/
def fraudService : Cluster.InferenceService where
  metadata := { name := some "fraud", ns := some "ns" }
  status := some {
    url := some "https://fraud.example"
    conditions := Deployment.requiredConditions.map fun type => { type, status := "True" }
    model := some { transition := some "UpToDate" } }

/-- A service of which nothing is reported. -/
def idleService : Cluster.InferenceService where
  metadata := { name := some "idle", ns := some "ns" }

/-- The deployments that the services describe, next to a registry that knows neither. -/
def readyAndIdle : World where
  deployments := [fraudService, idleService].filterMap fun service =>
    (Deployment.ofService service).toOption
  details _ := .ok {}
  registry := mnist.reply

theorem described_readyAndIdle : Described readyAndIdle.surroundings := by
  have hall : ∀ d ∈ readyAndIdle.deployments, d.Described := by
    intro d hd
    obtain ⟨service, -, hservice⟩ := List.mem_filterMap.mp hd
    cases hof : Deployment.ofService service with
    | error f =>
      rw [hof] at hservice
      cases hservice
    | ok d' =>
      rw [hof] at hservice
      obtain rfl := Option.some.inj hservice
      exact ⟨service, hof⟩
  exact {
    read := fun ns name s d hd => hall d (List.mem_of_find?_eq_some (Except.ok.inj hd))
    listed := fun s deployments hlisted d hd => hall d (Except.ok.inj hlisted ▸ hd) }

/-- A pass, and one cycle for each of the deployments. -/
inductive Job where
  | all
  | fraud
  | idle
  deriving DecidableEq

def Job.operation : Job → Operation
  | all => .pass mnistBridge none
  | fraud => .cycle mnistBridge none "ns" "fraud"
  | idle => .cycle mnistBridge none "ns" "idle"

/-- The cycles come to an end first. -/
def cyclesFirst : List Job :=
  (List.replicate 4 [.idle, .fraud, .all]).flatten ++ [.fraud, .fraud] ++ List.replicate 9 .all

theorem records_grounded_readyAndIdle :
    let run := Proc.interleave readyAndIdle.surroundings cyclesFirst
      (fun i => i.operation.proc) ()
    let sent := fun i provenance => ∃ before u answer after, run.log =
      before ++ (i, ⟨.storage (.upsert u.key u.provenance u.body), answer⟩) :: after ∧
        u.provenance = provenance ∧ Grounded mnistBridge.style (eventsOf i before) u
    sent .fraud .clusterOnly ∧ sent .all .registry ∧
      Awaits mnistBridge.directory "ns" "idle" (eventsOf .idle run.log) ∧
      upserts (eventsOf .idle run.log) = [] := by
  intro run sent
  obtain ⟨hgrounded, -, hagain⟩ :=
    records_grounded described_readyAndIdle Job.operation cyclesFirst ()
  have hcluster : ∃ (u : Upsert) (answer : _), (Job.fraud,
      (⟨.storage (.upsert u.key u.provenance u.body), answer⟩ : Event interface)) ∈ run.log ∧
        u.provenance = .clusterOnly :=
    ⟨⟨_, _, _⟩, _, List.mem_of_getElem? (i := 13) (by rfl), rfl⟩
  have hregistry : ∃ (u : Upsert) (answer : _), (Job.all,
      (⟨.storage (.upsert u.key u.provenance u.body), answer⟩ : Event interface)) ∈ run.log ∧
        u.provenance = .registry :=
    ⟨⟨_, _, _⟩, _, List.mem_of_getElem? (i := 15) (by rfl), rfl⟩
  refine ⟨?_, ?_, ?_⟩
  · obtain ⟨u, answer, hu, hprovenance⟩ := hcluster
    obtain ⟨before, after, hlog⟩ := List.append_of_mem hu
    exact ⟨before, u, answer, after, hlog, hprovenance, hgrounded .fraud before u answer after hlog⟩
  · obtain ⟨u, answer, hu, hprovenance⟩ := hregistry
    obtain ⟨before, after, hlog⟩ := List.append_of_mem hu
    exact ⟨before, u, answer, after, hlog, hprovenance, hgrounded .all before u answer after hlog⟩
  · obtain ⟨r, hr, hawaits, hnothing⟩ := hagain .idle mnistBridge "ns" "idle"
      (.next (.ok (.again unreadyDelay))) rfl rfl
    cases hr
    exact ⟨hawaits.mp ⟨_, rfl⟩, hnothing ⟨_, rfl⟩⟩

end CatalogSync.Sync
