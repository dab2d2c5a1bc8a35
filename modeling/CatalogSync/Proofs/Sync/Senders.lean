import CatalogSync.Proofs.Effect.Interleaving
import CatalogSync.Proofs.Sync.Beside
import CatalogSync.Proofs.Sync.FullPass
import CatalogSync.Proofs.Sync.Sending
import CatalogSync.Proofs.Sync.StrayRecords
/-!
# What cycles and passes do to the storage service

Whatever they are answered, a cycle sends one record at most and does nothing else to the service
(`trace_reconcile`). A pass sends records as well, and if it submits its keys, that is the last thing
that it does (`trace_fullPass_cases`). All records are sound.

A pass submits the keys that are current among the deployments that it has listed, at the
registries that it has found (`submitted_fullPass`). So the surroundings need not show one world all
the time: the deployments may change while the pass is under way.
-/

namespace CatalogSync.Sync

open Proc (Handler)
open Registry (Directory)
open Correlation (Match)

variable {σ α : Type} {h : Handler interface σ}

/-! ## §1 Calls that remove nothing -/

/-- Whether a call leaves the storage service alone or sends it a record. -/
def Call.onlySends : Call → Bool
  | .storage (.upsert _ _ _) => true
  | .storage _ => false
  | _ => true

abbrev OnlySends (p : Proc interface α) : Prop := p.Calls fun c : Call => c.onlySends = true

theorem onlySends_of_not_storage {p : Proc interface α}
    (hp : p.Calls fun c : Call => c.isStorage = false) : OnlySends p := by
  refine hp.imp fun c hc => ?_
  cases c with
  | storage c => cases hc
  | _ => rfl

theorem Alike.onlySends {R : α → α → Prop} {p q : Proc interface α} (hpq : Alike R p q) :
    OnlySends p := by
  induction hpq with
  | done hab => trivial
  | @ask c f g hc _ ih =>
    refine ⟨?_, ih⟩
    cases c with
    | storage c => cases hc
    | _ => rfl
  | send _ ih => exact ⟨rfl, fun x => ih x x⟩

/-- After calls that only send, nothing has become of the service but what was sent. -/
theorem delivered_of_leads {τ ρ : Type} {outside : Handler interface τ}
    {service : Handler Storage.Publishing.interface ρ} {x x' : τ × ρ} {t : List (Event interface)}
    (hleads : Proc.Leads (beside outside service) x t x')
    (hsends : ∀ e ∈ t, e.call.onlySends = true) :
    x'.2 = (upserts t).foldl (delivered service) x.2 := by
  induction hleads with
  | nil s => rfl
  | @cons c s s' t _ ih =>
    rw [List.forall_mem_cons] at hsends
    rw [ih hsends.2]
    rcases c with _ | _ | _ | _ | _ | c | _
    case storage =>
      cases c with
      | upsert key provenance body => rfl
      | _ => cases hsends.1
    all_goals rfl

/-- The calls to the service, as the service sees them. -/
def serviceEvents (t : List (Event interface)) : List (Event Storage.Publishing.interface) :=
  t.filterMap fun
    | ⟨.storage c, answer⟩ => some ⟨c, answer⟩
    | _ => none

/-- The outside stays the same next to another service that gives the same answers. -/
theorem leads_beside {τ ρ ρ' : Type} {outside : Handler interface τ}
    {service : Handler Storage.Publishing.interface ρ}
    {service' : Handler Storage.Publishing.interface ρ'} {x x' : τ × ρ} {r r' : ρ'}
    {t : List (Event interface)} (hleads : Proc.Leads (beside outside service) x t x')
    (hserved : Proc.Leads service' r (serviceEvents t) r') :
    Proc.Leads (beside outside service') (x.1, r) t (x'.1, r') := by
  induction hleads generalizing r with
  | nil s =>
    cases hserved
    exact .nil _
  | @cons c s s' t _ ih =>
    rcases c with _ | _ | _ | _ | _ | c | _
    case storage =>
      obtain ⟨hanswer, hrest⟩ := hserved.head
      exact .step (Prod.ext hanswer.symm rfl) (ih hrest)
    all_goals exact .step rfl (ih hserved)

theorem submittedKeys_of_onlySends {t : List (Event interface)}
    (hsends : ∀ e ∈ t, e.call.onlySends = true) : submittedKeys t = [] := by
  refine List.filterMap_eq_nil_iff.mpr fun e he => ?_
  have hcall := hsends e he
  obtain ⟨c, answer⟩ := e
  cases c with
  | storage c =>
    cases c with
    | keySet keys => cases hcall
    | _ => rfl
  | _ => rfl

/-! ## §2 Cycles -/

/-- At most one record, which is sound. -/
structure SendsOne (sent : List Upsert) : Prop where
  length_le : sent.length ≤ 1
  sound : ∀ u ∈ sent, u.Sound

namespace SendsOne

theorem nil : SendsOne [] := ⟨Nat.zero_le 1, fun _ hu => nomatch hu⟩

theorem front {sent sent' : List Upsert} (hsent : SendsOne sent) (hfront : sent' <+: sent) :
    SendsOne sent' :=
  ⟨Nat.le_trans hfront.length_le hsent.length_le, fun u hu => hsent.sound u (hfront.subset hu)⟩

/-- When a record was sent, none is sent before or after it. -/
theorem eq_nil_of_cons {before after : List Upsert} {u : Upsert}
    (hsent : SendsOne (before ++ u :: after)) : before = [] ∧ after = [] := by
  have hlength := hsent.length_le
  rw [List.length_append, List.length_cons] at hlength
  constructor
  · exact List.length_eq_zero_iff.mp (by omega)
  · exact List.length_eq_zero_iff.mp (by omega)

theorem publish (style : Style) (sources : Catalog.Sources) (endpoint : Option String) (s : σ) :
    SendsOne (upserts ((publish style sources endpoint).proc.trace h s)) := by
  refine ⟨?_, fun u hu => (sound_of_mem_publish hu).1⟩
  rw [upserts_publish]
  split
  · exact Nat.le_refl 1
  · exact Nat.zero_le 1

theorem publishAlone (style : Style) (d : Deployment) (s : σ) :
    SendsOne (upserts ((publishAlone style d).proc.trace h s)) := by
  obtain ⟨details, s', heq⟩ := upserts_publishAlone h style d s
  rw [heq]
  exact publish _ _ _ _

theorem publishMatch (style : Style) (found : Match) (d : Deployment) (s : σ) :
    SendsOne (upserts ((publishMatch style found d).proc.trace h s)) := by
  rcases upserts_publishMatch_eq h style found d s with hnone | ⟨server, details, s', heq⟩
  · rw [hnone]
    exact nil
  · rw [heq]
    exact publish _ _ _ _

theorem settle (style : Style) (directory : Directory) (d : Deployment) (s : σ) :
    SendsOne (upserts ((settle style directory d).proc.trace h s)) := by
  unfold Sync.settle
  rw [Task.trace_lift_bind, upserts_append,
    upserts_of_sendsNothing (sendsNothing_correlate directory d), List.nil_append]
  cases ((correlate directory d).run h s).1 with
  | some found =>
    dsimp only
    rw [upserts_andThen_return (Sync.publishMatch style found d) _]
    exact publishMatch style found d _
  | none =>
    dsimp only
    split
    · exact nil
    · split
      · rw [upserts_andThen_return (Sync.publishAlone style d) _]
        exact publishAlone style d _
      · exact nil

theorem cycle (style : Style) (directory : Directory) (ns name : String) (s : σ) :
    SendsOne (upserts ((cycle style directory ns name).proc.trace h s)) := by
  unfold Sync.cycle
  rw [Task.trace_bind, upserts_append]
  have hread : upserts ((deployment ns name).proc.trace h s) = [] := rfl
  rw [hread, List.nil_append]
  change SendsOne (upserts ((Task.andThen _ (h (.deployment ns name) s).1).trace h
    (h (.deployment ns name) s).2))
  rcases (h (.deployment ns name) s).1 with f | _ | d
  · exact nil
  · exact nil
  · exact settle style directory d _

end SendsOne

theorem onlySends_publish (style : Style) (sources : Catalog.Sources) (endpoint : Option String) :
    OnlySends (publish style sources endpoint).proc := (alike_publish _ _ _).onlySends

theorem onlySends_inquire (endpoint : String) (i : Registry.Inquiry α) :
    OnlySends (inquire endpoint i).proc := onlySends_of_not_storage (not_isStorage_inquire _ _)

theorem onlySends_details? (d : Deployment) : OnlySends (details? d) :=
  onlySends_of_not_storage (not_isStorage_details? d)

theorem onlySends_publishMatch (style : Style) (found : Match) (d : Deployment) :
    OnlySends (publishMatch style found d).proc := by
  have hserver : OnlySends (serverOf found d).proc := by
    refine Task.calls_bind ⟨rfl, fun _ => trivial⟩ fun listed => ?_
    refine Task.calls_bind (onlySends_inquire _ _) fun records => ?_
    split <;> trivial
  refine Task.calls_bind hserver fun server => ?_
  refine Task.calls_bind ((onlySends_details? server).bind fun _ => trivial) fun details => ?_
  exact Task.calls_bind (onlySends_publish _ _ _) fun _ => trivial

theorem onlySends_publishAlone (style : Style) (d : Deployment) :
    OnlySends (publishAlone style d).proc := by
  refine Task.calls_bind ((onlySends_details? d).bind fun _ => trivial) fun details => ?_
  exact Task.calls_bind (onlySends_publish _ _ _) fun _ => trivial

theorem onlySends_cycle (style : Style) (directory : Directory) (ns name : String) :
    OnlySends (cycle style directory ns name).proc := by
  refine Task.calls_bind ⟨rfl, fun _ => trivial⟩ fun read => ?_
  cases read with
  | none => exact Task.calls_bind (t := liftM requestPass) ⟨rfl, fun _ => trivial⟩ fun _ => trivial
  | some d =>
    have hcorrelate : OnlySends (correlate directory d) := by
      refine Proc.Calls.through (fun question => ?_) _
      exact ⟨rfl, fun _ => trivial⟩
    refine Task.calls_bind (hcorrelate.bind fun _ => trivial) fun found => ?_
    cases found with
    | some found => exact Task.calls_bind (onlySends_publishMatch style found d) fun _ => trivial
    | none =>
      dsimp only
      split
      · trivial
      · split
        · exact Task.calls_bind (onlySends_publishAlone style d) fun _ => trivial
        · trivial

/-- A cycle, cancelled or not, reads its deployment first. It sends one record at most, and does
nothing else to the service. -/
theorem trace_reconcile (b : Bridge) (cancel : Cancellation) (ns name : String) (s : σ) :
    let t := (b.reconcile cancel ns name).trace h s
    SendsOne (upserts t) ∧ (∀ e ∈ t, e.call.onlySends = true) ∧
      ∃ rest, t <+: ⟨.deployment ns name, (h (.deployment ns name) s).1⟩ :: rest := by
  intro t
  have hfront : t <+: (cycle b.style b.directory ns name).proc.trace h s :=
    trace_cancellable_front h cancel _ _ s
  refine ⟨?_, fun e he => ?_, ?_⟩
  · exact (SendsOne.cycle b.style b.directory ns name s).front (hfront.filterMap _)
  · exact (onlySends_cycle b.style b.directory ns name).of_mem_trace (hfront.subset he)
  · exact ⟨_, hfront⟩

/-! ## §3 Passes -/

namespace Bridge

/-- The registries that a pass has found, by what it has looked up. -/
def found (b : Bridge) (t : List (Event interface)) : Directory :=
  match b.origin with
  | .fixed => b.directory
  | .configured config => .ofUrls (config.registryUrls ++ (lookups t).filterMap (·.2.url?))
    config.registryToken

/-- The search for the registries looks up routes, and does nothing else. -/
theorem calls_refresh (b : Bridge) : b.refresh.Calls fun c : Call => ∃ hint, c = .route hint := by
  unfold refresh
  split
  · trivial
  · exact (calls_discover _).bind fun _ => trivial

theorem onlySends_refresh (b : Bridge) : OnlySends b.refresh := by
  refine b.calls_refresh.imp ?_
  rintro _ ⟨hint, rfl⟩
  rfl

theorem directory_refresh (b : Bridge) (s : σ) :
    (b.refresh.run h s).1.directory = b.found (b.refresh.trace h s) := by
  rcases b with ⟨style, directory, _ | config⟩
  · rfl
  · show Bridge.directory ((discover config >>= fun directory => .done _).run h s).1 =
      .ofUrls (config.registryUrls ++ (lookups ((discover config >>= fun directory =>
        .done _).trace h s)).filterMap (·.2.url?)) config.registryToken
    rw [Proc.run_bind, Proc.trace_bind, Proc.trace_done, List.append_nil]
    exact (run_discover config s).2

end Bridge

/-- A pass looks for its registries, sends sound records, and submits its keys at the end if it does
so at all. -/
theorem trace_fullPass_cases (b : Bridge) (s : σ) : ∃ t : List (Event interface),
    (∀ e ∈ t, e.call.onlySends = true) ∧ (∀ u ∈ upserts t, u.Sound) ∧
      ((b.fullPass none).trace h s = t ∨
        ∃ keys answer, (b.fullPass none).trace h s = t ++ [⟨.storage (.keySet keys), answer⟩]) := by
  rw [trace_fullPass, trace_pass]
  generalize (b.refresh.run h s).1 = found
  generalize (b.refresh.run h s).2 = s'
  refine ⟨b.refresh.trace h s ++ (visitAll found.style found.directory).trace h s', ?_, ?_, ?_⟩
  · intro e he
    rcases List.mem_append.mp he with he | he
    · exact b.onlySends_refresh.of_mem_trace he
    · exact (alike_visitAll _ _).onlySends.of_mem_trace he
  · intro u hu
    have hsearch : SendsNothing b.refresh := by
      refine b.calls_refresh.imp ?_
      rintro _ ⟨hint, rfl⟩
      rfl
    rw [upserts_append, upserts_of_sendsNothing hsearch, List.nil_append] at hu
    exact (sends_visitAll _ _ s' u hu).1
  · dsimp only
    split
    · exact .inr ⟨_, _, (List.append_assoc _ _ _).symm⟩
    · exact .inl (by rw [List.append_nil])

/-- The keys that a pass over given registries submits are the current ones among the deployments
that it has listed. -/
theorem submitted_pass {w : World} {directory : Directory}
    (registries : ∀ endpoint ∈ directory.toList, w.AnsweredAt h endpoint) (style : Style) (s : σ) :
    let t := (pass style directory).proc.trace h s
    ∀ keys ∈ submittedKeys t, ∃ listed, ⟨.deployments, .ok listed⟩ ∈ t ∧
      ∀ k, k ∈ keys ↔ World.Current { w with deployments := listed } directory k := by
  intro t keys hkeys
  have hfirst : ⟨.deployments, (h .deployments s).1⟩ ∈ t := by
    show _ ∈ (pass style directory).proc.trace h s
    rw [trace_pass, trace_visitAll]
    exact List.mem_cons_self
  obtain ⟨world, hworld⟩ : ∃ world : World, world =
      { w with deployments := (h .deployments s).1.toOption.getD [] } := ⟨_, rfl⟩
  have hsubmits : world.SubmitsCurrent directory t := by
    refine pass_submits (fun endpoint hendpoint => ?_) style fun deployments hdeployments => ?_
    · rw [hworld]
      exact Registry.Replies.shownBy_of_steady (registries endpoint hendpoint)
    · rw [hworld, hdeployments]
      rfl
  have hfine : t.any listingFailed = false := by
    rw [← Bool.not_eq_true]
    intro hfailed
    rw [hsubmits.withheld hfailed] at hkeys
    cases hkeys
  obtain ⟨current, hsubmitted, -, hcurrent⟩ := hsubmits.submitted hfine
  rw [hsubmitted, List.mem_singleton] at hkeys
  subst hkeys
  cases hlisted : (h .deployments s).1 with
  | error f =>
    have hfailed := List.any_eq_false.mp hfine _ hfirst
    rw [hlisted] at hfailed
    exact absurd rfl hfailed
  | ok listed =>
    rw [hlisted] at hfirst hworld
    subst hworld
    exact ⟨listed, hfirst, hcurrent⟩

/-- The keys that a pass of a bridge submits are the current ones among the deployments that it has
listed and at the registries that it has found. -/
theorem submitted_fullPass (b : Bridge) {w : World} (s : σ)
    (registries : ∀ endpoint ∈ (b.found ((b.fullPass none).trace h s)).toList,
      w.AnsweredAt h endpoint) :
    let t := (b.fullPass none).trace h s
    ∀ keys ∈ submittedKeys t, ∃ listed, ⟨.deployments, .ok listed⟩ ∈ t ∧
      ∀ k, k ∈ keys ↔ World.Current { w with deployments := listed } (b.found t) k := by
  intro t keys hkeys
  have htrace : t = _ := trace_fullPass b s
  have hlookups : lookups t = lookups (b.refresh.trace h s) := by
    rw [htrace, lookups_append, lookups_of_looksUpNothing (looksUpNothing_pass _ _),
      List.append_nil]
  have hfound : (b.refresh.run h s).1.directory = b.found t := by
    rw [Bridge.directory_refresh, Bridge.found, Bridge.found, hlookups]
  have hsearch : submittedKeys (b.refresh.trace h s) = [] :=
    submittedKeys_of_onlySends fun e he => b.onlySends_refresh.of_mem_trace he
  rw [hfound] at htrace
  rw [htrace, submittedKeys_append, hsearch, List.nil_append] at hkeys
  obtain ⟨listed, hlisted, hcurrent⟩ := submitted_pass registries _ _ keys hkeys
  refine ⟨listed, ?_, hcurrent⟩
  rw [htrace]
  exact List.mem_append_right _ hlisted

end CatalogSync.Sync
