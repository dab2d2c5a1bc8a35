import CatalogSync.Proofs.Storage.Commutation
import CatalogSync.Proofs.Storage.Delivery
import CatalogSync.Proofs.Sync.Beside
import CatalogSync.Proofs.Sync.FullPass
import CatalogSync.Proofs.Sync.Sending
/-!
# Passes one after another

A pass beside the service in memory offers records to the store and removes those whose keys it does
not submit. What it offers and submits follows from the outside alone. So a second pass that finds
the same outside offers the same records again, and leaves everything as it is (`fullPass_again`):
the last record with the greatest marker is there already, the importer has been told about it, and
what was to be removed is gone.
-/

namespace CatalogSync

open Proc (Handler)

/-! ## §1 Records that reach the service in memory -/

namespace Storage

namespace PostBody

instance (body : PostBody) : Decidable body.Fits := inferInstanceAs (Decidable (_ ≤ _))

end PostBody

/-- What the importer is told in a request is added to what it has been told. -/
theorem Depot.told_next (r : Router.Incoming) (d : Depot) :
    (Router.next handler r d).told = d.told ++ (Router.told handler r d).map (·.1) := by
  unfold Router.next Router.told
  rw [told_run]

/-- Submitting keys to the service in memory removes the records of all others, and the importer is
told about each. -/
theorem Depot.service_keySet (c : Client) (keys : List ImportKey) (d : Depot) :
    ∃ gone d', gone = d.store.keys.filter (fun key => !(SortedSet.ofList keys).contains key) ∧
      c.service handler (.keySet keys) d = (.ok gone, d') ∧
      d'.store = d.store.filterKeys (SortedSet.ofList keys).contains ∧
      d'.told = d.told ++ gone.map .removed := by
  obtain ⟨gone, hgone, hservice, hpruned⟩ :=
    Client.service_keySet (c := c) (s := d) backed_handler reliable_handler keys
  refine ⟨gone, _, hgone, hservice, (hgone ▸ hpruned).kept, ?_⟩
  rw [← hpruned.of_ok.2.2, told_next]

end Storage

/-! ## §2 What a pass leaves -/

namespace Sync

open Storage (Client Deposit Depot)
open Registry (Directory)

/-- A record as it is kept when the importer knows it. -/
def Upsert.deposit (u : Upsert) : Deposit :=
  ⟨u.key, Storage.Service.recordOf u.body u.marker u.provenance true⟩

/-- The records among those that were sent that the service does not refuse. -/
def deposits (sent : List Upsert) : List Deposit :=
  (sent.filter fun u => u.body.Fits).map Upsert.deposit

variable {c : Client}

theorem imported_of_mem_deposits {sent : List Upsert} {x : Deposit} (hx : x ∈ deposits sent) :
    x.record.imported = true := by
  obtain ⟨u, -, rfl⟩ := List.mem_map.mp hx
  rfl

/-- A record that is sent is offered to the store, unless it is too long. -/
theorem store_delivered {u : Upsert} (hu : u.Sound) (d : Depot) :
    (delivered (c.service Depot.handler) d u).store = Deposit.intoAll (deposits [u]) d.store ∧
      ((∀ x ∈ deposits [u], x.Heeded d.store) →
        (delivered (c.service Depot.handler) d u).told = d.told) := by
  unfold delivered deposits
  by_cases hfits : u.body.Fits
  · obtain ⟨hstate, outcome, hw⟩ := Client.service_upsert_fits (c := c) (s := d) u.provenance
      Depot.backed_handler Depot.reliable_handler hfits hu
    obtain ⟨hstore, htold, -⟩ :=
      Deposit.of_wrote Depot.reliable_handler Depot.heard_handler hw
    have hone : ([u].filter fun u => u.body.Fits).map Upsert.deposit = [u.deposit] := by
      simp [hfits]
    rw [hone, hstate]
    refine ⟨hstore, fun hheeded => ?_⟩
    have hnone := htold (hheeded _ List.mem_cons_self)
    rw [Depot.told_next, hnone]
    exact List.append_nil _
  · have hnone : ([u].filter fun u => u.body.Fits).map Upsert.deposit = [] := by
      simp [hfits]
    rw [hnone, (Client.service_upsert_long hfits).1]
    exact ⟨rfl, fun _ => rfl⟩

/-- The records that are sent are offered to the store one after another. -/
theorem store_foldl_delivered {sent : List Upsert} (hsent : ∀ u ∈ sent, u.Sound) (d : Depot) :
    (sent.foldl (delivered (c.service Depot.handler)) d).store =
        Deposit.intoAll (deposits sent) d.store ∧
      ((∀ x ∈ deposits sent, x.Heeded d.store) →
        (sent.foldl (delivered (c.service Depot.handler)) d).told = d.told) := by
  induction sent generalizing d with
  | nil => exact ⟨rfl, fun _ => rfl⟩
  | cons u sent ih =>
    obtain ⟨hstore, htold⟩ := store_delivered (c := c) (hsent u List.mem_cons_self) d
    obtain ⟨hrestStore, hrestTold⟩ := ih (fun v hv => hsent v (List.mem_cons_of_mem _ hv))
      (delivered (c.service Depot.handler) d u)
    have hsplit : deposits (u :: sent) = deposits [u] ++ deposits sent := by
      rw [deposits, deposits, deposits, ← List.map_append, ← List.filter_append,
        List.singleton_append]
    rw [List.foldl_cons, hsplit]
    constructor
    · rw [hrestStore, hstore, Deposit.intoAll, Deposit.intoAll, Deposit.intoAll, List.foldl_append]
    · intro hheeded
      have hfirst : ∀ x ∈ deposits [u], x.Heeded d.store :=
        fun x hx => hheeded x (List.mem_append_left _ hx)
      rw [← htold hfirst]
      refine hrestTold fun x hx => ?_
      -- What was heeded before is heeded after the first record, too.
      rw [hstore]
      exact (hheeded x (List.mem_append_right _ hx)).intoAll fun y hy => imported_of_mem_deposits hy

/-! ## §3 Passes -/

section

variable {τ ρ : Type} {outside : Handler interface τ}
  {service : Handler Storage.Publishing.interface ρ}

/-- What a pass treats and sends, before it submits its keys, does not depend on the service. -/
theorem exists_sent (outside : Handler interface τ)
    (service : Handler Storage.Publishing.interface ρ) (style : Style) (directory : Directory)
    (t : τ) (r₀ : ρ) :
    ∃ (p₀ : Progress) (sent : List Upsert) (t' : τ),
      (∀ u ∈ sent, u.Sound ∧ u.key ∈ p₀.keys.toList) ∧
      ∀ r, ∃ p, (visitAll style directory).run (beside outside service) (t, r) =
          (p, t', sent.foldl (delivered service) r) ∧ p₀.Alike p := by
  have hsends := sends_visitAll (h := beside outside service) style directory (t, r₀)
  obtain ⟨-, t', hfirst, -⟩ := (alike_visitAll style directory).run outside service t r₀ r₀
  refine ⟨_, _, t', hsends, fun r => ?_⟩
  obtain ⟨halike, t'', hleft, hright⟩ :=
    (alike_visitAll style directory).run outside service t r₀ r
  obtain rfl : t' = t'' := congrArg Prod.fst (hfirst.symm.trans hleft)
  exact ⟨_, Prod.ext rfl hright, halike⟩

/-- A pass submits its keys in the end, when everything could be listed. -/
theorem run_pass {style : Style} {directory : Directory} {p : Progress} {t t' : τ} {r r' : ρ}
    (hvisit : (visitAll style directory).run (beside outside service) (t, r) = (p, t', r')) :
    (pass style directory).proc.run (beside outside service) (t, r) =
      if p.complete then
        ((service (.keySet p.keys.toList) r').1.map fun removed => p.summary (some removed),
          t', (service (.keySet p.keys.toList) r').2)
      else (.ok (p.summary none), t', r') := by
  unfold pass
  rw [Task.run_lift_bind, hvisit]
  by_cases hcomplete : p.complete = true
  · simp only [hcomplete, if_true]
    rw [Task.run_bind]
    show (Task.andThen _ (service (.keySet p.keys.toList) r').1).run _ _ = _
    cases (service (.keySet p.keys.toList) r').1 <;> rfl
  · simp only [hcomplete]
    rfl

theorem run_fullPass_fixed {b : Bridge} (hb : b.origin = .fixed) {σ : Type}
    (h : Handler interface σ) (s : σ) :
    (b.fullPass none).run h s = ((((pass b.style b.directory).proc.run h s).1, b),
      ((pass b.style b.directory).proc.run h s).2) := by
  have hrefresh : b.refresh = .done b := by
    unfold Bridge.refresh
    rw [hb]
    rfl
  show (b.refresh >>= fun b =>
    (pass b.style b.directory).proc >>= fun r => .done (r, b)).run h s = _
  rw [hrefresh, Proc.bind_done, Proc.run_bind, Proc.run_done]

end

/-! ## §4 The second pass -/

/-- The records that are left when a pass has submitted its keys, or could not. -/
def Progress.kept (p : Progress) (m : Storage.Store) : Storage.Store :=
  if p.complete then m.filterKeys (SortedSet.ofList p.keys.toList).contains else m

/-- Records whose keys are submitted are kept, so it makes no difference when they are offered. -/
theorem Progress.intoAll_kept {p : Progress} {xs : List Deposit}
    (hxs : ∀ x ∈ xs, x.key ∈ p.keys.toList) (m : Storage.Store) :
    Deposit.intoAll xs (p.kept m) = p.kept (Deposit.intoAll xs m) := by
  unfold kept
  split
  · refine Deposit.intoAll_filterKeys (fun x hx => ?_) m
    rw [SortedSet.contains_ofList]
    exact decide_eq_true (hxs x hx)
  · rfl

theorem Progress.heeded_kept {p : Progress} {x : Deposit} (hx : x.key ∈ p.keys.toList)
    {m : Storage.Store} (hheeded : x.Heeded m) : x.Heeded (p.kept m) := by
  unfold kept
  split
  · refine hheeded.filterKeys ?_
    rw [SortedSet.contains_ofList]
    exact decide_eq_true hx
  · exact hheeded

theorem Progress.kept_kept (p : Progress) (m : Storage.Store) : p.kept (p.kept m) = p.kept m := by
  unfold kept
  split
  · rw [SortedMap.filterKeys_filterKeys]
    simp only [Bool.and_self]
  · rfl

/-- A pass offers to the service in memory what it sends, and then removes the records of the keys
that it does not submit. Where all records are heeded and none is to be removed, the importer is
told nothing. -/
theorem run_pass_depot {τ : Type} (outside : Handler interface τ) (c : Client) (style : Style)
    (directory : Directory) (t : τ) (d₀ : Depot) :
    ∃ (p₀ : Progress) (xs : List Deposit), (∀ x ∈ xs, x.key ∈ p₀.keys.toList) ∧
      (∀ x ∈ xs, x.record.imported = true) ∧ ∀ d, ∃ summary t' d',
        (pass style directory).proc.run (beside outside (c.service Depot.handler)) (t, d) =
            (.ok summary, t', d') ∧
          d'.store = p₀.kept (Deposit.intoAll xs d.store) ∧
          ((∀ x ∈ xs, x.Heeded d.store) → Deposit.intoAll xs d.store = d.store →
            p₀.kept d.store = d.store → d'.told = d.told ∧ summary.removed = []) := by
  obtain ⟨p₀, sent, t', hsent, hvisit⟩ :=
    exists_sent outside (c.service Depot.handler) style directory t d₀
  refine ⟨p₀, deposits sent, fun x hx => ?_, fun x hx => imported_of_mem_deposits hx, fun d => ?_⟩
  · obtain ⟨u, hu, rfl⟩ := List.mem_map.mp hx
    exact (hsent u (List.mem_filter.mp hu).1).2
  obtain ⟨p, hrun, halike⟩ := hvisit d
  obtain ⟨hstore, htold⟩ := store_foldl_delivered (c := c) (fun u hu => (hsent u hu).1) d
  have hpass := run_pass hrun
  generalize sent.foldl (delivered (c.service Depot.handler)) d = d₁ at hpass hstore htold
  unfold Progress.kept
  rw [halike.complete, halike.keys]
  by_cases hcomplete : p.complete = true
  · obtain ⟨gone, d₂, hgone, hkeySet, hkept, hnotices⟩ :=
      Depot.service_keySet c p.keys.toList d₁
    simp only [hcomplete, if_true, hkeySet] at hpass ⊢
    refine ⟨_, _, d₂, hpass, by rw [hkept, hstore], fun hheeded hagain hall => ?_⟩
    -- All records that are there are kept.
    have hnone : gone = [] := by
      rw [hgone, hstore, hagain, List.filter_eq_nil_iff]
      intro key hkey
      rw [← hall, SortedMap.mem_keys_iff, SortedMap.get?_filterKeys] at hkey
      cases hcontains : (SortedSet.ofList p.keys.toList).contains key with
      | true => exact Bool.false_ne_true
      | false =>
        rw [hcontains] at hkey
        cases hkey
    rw [hnotices, hnone, htold hheeded]
    exact ⟨List.append_nil _, rfl⟩
  · simp only [hcomplete] at hpass ⊢
    exact ⟨_, _, d₁, hpass, hstore, fun hheeded _ _ => ⟨htold hheeded, rfl⟩⟩

/-- A pass that finds the same outside as the pass before it changes nothing: the store is left as
it is, the importer is told nothing, and no record is removed. The outside may answer as it likes,
and fail at any call; the first pass may have started from any store. -/
theorem fullPass_again {b : Bridge} (hb : b.origin = .fixed) {τ : Type}
    (outside : Handler interface τ) (c : Client) (t : τ) (d : Depot) :
    let h := beside outside (c.service Depot.handler)
    let first := (b.fullPass none).run h (t, d)
    let second := (first.1.2.fullPass none).run h (t, first.2.2)
    second.2.2.store = first.2.2.store ∧ second.2.2.told = first.2.2.told ∧
      ∃ summary, second.1.1 = .ok summary ∧ summary.removed = [] := by
  intro h first second
  obtain ⟨p₀, xs, hkeys, himported, hpass⟩ :=
    run_pass_depot outside c b.style b.directory t d
  obtain ⟨summary₁, t₁, d₁, hrun₁, hstore₁, -⟩ := hpass d
  obtain ⟨summary₂, t₂, d₂, hrun₂, hstore₂, hquiet⟩ := hpass d₁
  have hfirst : first = ((.ok summary₁, b), t₁, d₁) := by
    show (b.fullPass none).run h (t, d) = _
    rw [run_fullPass_fixed hb, hrun₁]
  have hsecond : second = ((.ok summary₂, b), t₂, d₂) := by
    show (first.1.2.fullPass none).run h (t, first.2.2) = _
    rw [hfirst, run_fullPass_fixed hb, hrun₂]
  -- The last record with the greatest marker is there already, and so is its notice.
  have hagain : Deposit.intoAll xs d₁.store = d₁.store := by
    rw [hstore₁, Progress.intoAll_kept hkeys, Deposit.intoAll_again]
  have hkept : p₀.kept d₁.store = d₁.store := by rw [hstore₁, Progress.kept_kept]
  have hheeded : ∀ x ∈ xs, x.Heeded d₁.store := by
    intro x hx
    rw [hstore₁]
    exact Progress.heeded_kept (hkeys x hx) (Deposit.heeded_intoAll himported _ x hx)
  rw [hsecond, hfirst]
  obtain ⟨htold, hremoved⟩ := hquiet hheeded hagain hkept
  exact ⟨by rw [hstore₂, hagain, hkept], htold, summary₂, rfl, hremoved⟩

/-- A publisher of the storage service. -/
def storageClient : Client := .connect "http://storage"

/-- A store with the record of a version that is gone. -/
def leftBehind : Depot where
  store := .ofList [(⟨"mnist_v0", by decide +kernel⟩, { body := [], lastUpdate := 7 })]

theorem fullPass_again_twins :
    mnistBridge.origin = .fixed ∧
      let h := beside twins.surroundings (storageClient.service Depot.handler)
      let first := (mnistBridge.fullPass none).run h ((), leftBehind)
      let second := (first.1.2.fullPass none).run h ((), first.2.2)
      second.2.2.store = first.2.2.store ∧ second.2.2.told = first.2.2.told :=
  have hagain := fullPass_again rfl twins.surroundings storageClient () leftBehind
  ⟨rfl, hagain.1, hagain.2.1⟩

end Sync

end CatalogSync
