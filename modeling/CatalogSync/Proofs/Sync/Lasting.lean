import CatalogSync.Proofs.Storage.Delivery
import CatalogSync.Proofs.Sync.Senders
/-!
# Records that last

A cycle and a full pass are under way at the same time, and take turns at their calls. A record that
the service has taken from the cycle stays among calls that only send, or gives way to one that is no
older (`atLeast_of_leads`). Keys are submitted by the pass alone, as the last thing that it does. So
when the pass has ended, the record is there if and only if the keys that were submitted after it
have its key (`Remainder.stays_iff`).
-/

namespace CatalogSync

open Proc (Handler)

/-! ## §1 Records that stay -/

namespace Storage

/-- There is a record, and it has at least a certain marker. -/
def AtLeast (marker : Nat) (found : Option StoredRecord) : Prop :=
  ∃ record ∈ found, marker ≤ record.lastUpdate

namespace Service.Wrote

variable {σ : Type} {h : Handler interface σ} {key k : ImportKey} {record : Bool → StoredRecord}
  {before after : Store} {outcome : WriteOutcome} {told : List (Notice × Bool)} {marker : Nat}
  (hw : Wrote h key record before (.ok outcome) after told)
  (hmarker : ∀ imported, (record imported).lastUpdate = marker)
include hw hmarker

/-- After a write there is a record that is no older than what was written. -/
theorem atLeast_key : AtLeast marker (after.get? key) := by
  cases hw with
  | ignored hold holder =>
    rw [hmarker] at holder
    exact ⟨_, hold, Nat.le_of_lt holder⟩
  | created | updated =>
    rw [SortedMap.get?_insert, if_pos rfl]
    exact ⟨_, rfl, Nat.le_of_eq (hmarker _).symm⟩

/-- A write makes no record older, and removes none. -/
theorem atLeast_of_before {m : Nat} (hbefore : AtLeast m (before.get? k)) :
    AtLeast m (after.get? k) := by
  by_cases hk : k = key
  · subst hk
    obtain ⟨old, hget, hm⟩ := hbefore
    have hwritten := hw.atLeast_key hmarker
    cases hw with
    | ignored => exact ⟨old, hget, hm⟩
    | created hnew => cases hnew.symm.trans hget
    | updated hold hnotOlder =>
      rw [hmarker] at hnotOlder
      cases hold.symm.trans hget
      obtain ⟨record, hrecord, hle⟩ := hwritten
      exact ⟨record, hrecord, Nat.le_trans hm (Nat.le_trans hnotOlder hle)⟩
  · rwa [hw.get?_of_ne hk]

end Service.Wrote

end Storage

namespace Sync

open Proc (Leads eventsOf)
open Storage (AtLeast Client Store)
open Storage.Service (Backed Reliable)

section

variable {ρ : Type} {h : Handler Storage.Service.interface ρ} {store : ρ → Store}
  (backed : Backed h store) (reliable : Reliable h) {c : Client} {r : ρ} {k : ImportKey}
include backed reliable

/-- What is sent removes nothing. -/
theorem atLeast_delivered {u : Upsert} (hu : u.Sound) {marker : Nat}
    (hbefore : AtLeast marker ((store r).get? k)) :
    AtLeast marker ((store (delivered (c.service h) r u)).get? k) := by
  unfold delivered
  by_cases hfits : u.body.Fits
  · obtain ⟨hstate, outcome, hw⟩ := Client.service_upsert_fits (c := c) (s := r) u.provenance
      backed reliable hfits hu
    rw [hstate]
    exact hw.atLeast_of_before (fun _ => rfl) hbefore
  · rwa [(Client.service_upsert_long hfits).1]

theorem atLeast_foldl_delivered {sent : List Upsert} (hsent : ∀ u ∈ sent, u.Sound) {marker : Nat}
    (hbefore : AtLeast marker ((store r).get? k)) :
    AtLeast marker ((store (sent.foldl (delivered (c.service h)) r)).get? k) := by
  induction sent generalizing r with
  | nil => exact hbefore
  | cons u sent ih =>
    rw [List.forall_mem_cons] at hsent
    exact ih hsent.2 (atLeast_delivered backed reliable hsent.1 hbefore)

/-- When the service takes a record, there is one that is no older. -/
theorem atLeast_of_taken {u : Upsert} (hu : u.Sound) {outcome : Storage.WriteOutcome}
    (htaken : (c.service h (.upsert u.key u.provenance u.body) r).1 = .ok outcome) :
    AtLeast u.marker ((store (delivered (c.service h) r u)).get? u.key) := by
  unfold delivered
  by_cases hfits : u.body.Fits
  · obtain ⟨hstate, outcome, hw⟩ := Client.service_upsert_fits (c := c) (s := r) u.provenance
      backed reliable hfits hu
    rw [hstate]
    exact hw.atLeast_key fun _ => rfl
  · exact absurd htaken ((Client.service_upsert_long hfits).2 outcome)

/-- Submitting keys leaves their records and no others. -/
theorem get?_keySet (keys : List ImportKey) :
    (store (c.service h (.keySet keys) r).2).get? k = if k ∈ keys then (store r).get? k else none := by
  obtain ⟨_, rfl, hkeySet, hpruned⟩ := Client.service_keySet (c := c) (s := r) backed reliable keys
  rw [hkeySet, hpruned.kept, SortedMap.get?_filterKeys]
  simp only [SortedSet.contains_ofList, decide_eq_true_eq]

end

/-! ## §2 Two at a time -/

/-- The two that are under way. -/
inductive Side where
  | cycle
  | pass
  deriving DecidableEq, Repr

/-- A cycle of a bridge, which may be cancelled, and a pass. The bridge may have found its registries
anew in between. -/
def together (seen : Bridge) (cancel : Cancellation) (ns name : String) (b : Bridge) :
    Side → Proc interface Unit
  | .cycle => seen.reconcile cancel ns name >>= fun _ => .done ()
  | .pass => b.fullPass none >>= fun _ => .done ()

/-- Everything that was sent was sent by one of the two. -/
theorem mem_upserts_log {log : List (Side × Event interface)} {u : Upsert}
    (hu : u ∈ upserts (log.map (·.2))) :
    u ∈ upserts (eventsOf .cycle log) ∨ u ∈ upserts (eventsOf .pass log) := by
  obtain ⟨e, he, hsent⟩ := List.mem_filterMap.mp hu
  obtain ⟨⟨side, e⟩, hlog, rfl⟩ := List.mem_map.mp he
  cases side with
  | cycle => exact .inl (List.mem_filterMap.mpr ⟨e, Proc.mem_eventsOf.mpr hlog, hsent⟩)
  | pass => exact .inr (List.mem_filterMap.mpr ⟨e, Proc.mem_eventsOf.mpr hlog, hsent⟩)

theorem onlySends_log {log : List (Side × Event interface)}
    (hcycle : ∀ e ∈ eventsOf .cycle log, e.call.onlySends = true)
    (hpass : ∀ e ∈ eventsOf .pass log, e.call.onlySends = true) :
    ∀ e ∈ log.map (·.2), e.call.onlySends = true := by
  intro e he
  obtain ⟨⟨side, e⟩, hlog, rfl⟩ := List.mem_map.mp he
  cases side with
  | cycle => exact hcycle e (Proc.mem_eventsOf.mpr hlog)
  | pass => exact hpass e (Proc.mem_eventsOf.mpr hlog)

/-- What the two have done, when the pass has ended. -/
structure Ended (log : List (Side × Event interface)) : Prop where
  one : SendsOne (upserts (eventsOf .cycle log))
  sends : ∀ e ∈ eventsOf .cycle log, e.call.onlySends = true
  -- The pass submits its keys at the end, if at all.
  pass : ∃ t : List (Event interface), (∀ e ∈ t, e.call.onlySends = true) ∧
    (∀ u ∈ upserts t, u.Sound) ∧
      (eventsOf .pass log = t ∨
        ∃ keys answer, eventsOf .pass log = t ++ [⟨.storage (.keySet keys), answer⟩])

/-- What comes after a record that the cycle has sent: nothing is removed until the pass submits its
keys, and nothing is sent afterwards. -/
inductive Remainder (after : List (Side × Event interface)) : Prop where
  | unsubmitted (hsends : ∀ e ∈ after.map (·.2), e.call.onlySends = true)
      (hsound : ∀ u ∈ upserts (after.map (·.2)), u.Sound)
  | submitted {mid tail : List (Side × Event interface)} {keys : List ImportKey}
      {answer : Except Fault (List ImportKey)}
      (hafter : after = mid ++ (.pass, ⟨.storage (.keySet keys), answer⟩) :: tail)
      (hsends : ∀ e ∈ mid.map (·.2), e.call.onlySends = true)
      (hsound : ∀ u ∈ upserts (mid.map (·.2)), u.Sound)
      (hrest : ∀ e ∈ tail.map (·.2), e.call.onlySends = true)
      (hnone : upserts (tail.map (·.2)) = [])

/-- The last event of a list that is told from all the others by a test. -/
theorem eq_of_append_cons {β : Type} {p : β → Prop} {t l l' : List β} {a b : β}
    (ht : ∀ x ∈ t, p x) (hb : ¬ p b) (heq : t ++ [a] = l ++ b :: l') : t = l ∧ l' = [] := by
  rcases List.eq_nil_or_concat l' with rfl | ⟨l'', x, rfl⟩
  · exact ⟨(List.append_inj' heq rfl).1, rfl⟩
  · rw [List.concat_eq_append, ← List.cons_append, ← List.append_assoc] at heq
    have hmem : b ∈ t := by
      rw [(List.append_inj' heq rfl).1]
      exact List.mem_append_right _ List.mem_cons_self
    exact absurd (ht b hmem) hb

namespace Ended

variable {log before after : List (Side × Event interface)} (ended : Ended log)
include ended

theorem sound {u : Upsert} (hu : u ∈ upserts (log.map (·.2))) : u.Sound := by
  rcases mem_upserts_log hu with hu | hu
  · exact ended.one.sound u hu
  · obtain ⟨t, -, hsound, heq | ⟨keys, answer, heq⟩⟩ := ended.pass
    · rw [heq] at hu
      exact hsound u hu
    · rw [heq, upserts_append] at hu
      exact hsound u ((List.mem_append.mp hu).resolve_right fun hmem => nomatch hmem)

/-- From any point on the pass either submits no keys, or it does so and makes no more calls. -/
theorem submission (hlog : log = before ++ after) :
    (∀ e ∈ eventsOf .pass after, e.call.onlySends = true) ∨
      ∃ (mid tail : List (Side × Event interface)) (keys : List ImportKey)
        (answer : Except Fault (List ImportKey)),
        after = mid ++ (.pass, ⟨.storage (.keySet keys), answer⟩) :: tail ∧
          (∀ e ∈ eventsOf .pass mid, e.call.onlySends = true) ∧ eventsOf .pass tail = [] := by
  obtain ⟨t, hsends, -, hpass⟩ := ended.pass
  by_cases hsubmits : ∃ keys answer,
      (Side.pass, (⟨.storage (.keySet keys), answer⟩ : Event interface)) ∈ after
  · obtain ⟨keys, answer, hmem⟩ := hsubmits
    obtain ⟨mid, tail, rfl⟩ := List.append_of_mem hmem
    have hsplit : eventsOf .pass log = eventsOf .pass (before ++ mid) ++
        ⟨.storage (.keySet keys), answer⟩ :: eventsOf .pass tail := by
      rw [← Proc.eventsOf_cons_self, ← Proc.eventsOf_append, hlog, List.append_assoc]
    rcases hpass with heq | ⟨keys', answer', heq⟩
    · have hkeySet := hsends ⟨.storage (.keySet keys), answer⟩ (by
        rw [← heq, hsplit]
        exact List.mem_append_right _ List.mem_cons_self)
      cases hkeySet
    · -- The keys are submitted last, so the pass has done everything else before.
      obtain ⟨ht, htail⟩ := eq_of_append_cons hsends (by simp [Call.onlySends])
        (heq.symm.trans hsplit)
      refine .inr ⟨mid, tail, keys, answer, rfl, fun e he => hsends e ?_, htail⟩
      rw [ht, Proc.eventsOf_append]
      exact List.mem_append_right _ he
  · refine .inl fun e he => ?_
    have hin : e ∈ eventsOf .pass log := by
      rw [hlog, Proc.eventsOf_append]
      exact List.mem_append_right _ he
    rcases hpass with heq | ⟨keys, answer, heq⟩
    · exact hsends e (heq ▸ hin)
    · rw [heq] at hin
      rcases List.mem_append.mp hin with hin | hin
      · exact hsends e hin
      · obtain rfl := List.mem_singleton.mp hin
        exact absurd ⟨keys, answer, Proc.mem_eventsOf.mp he⟩ hsubmits

/-- After a record of the cycle nothing is sent but by the pass. -/
theorem upserts_cycle_after {u : Upsert} {answer : Except Fault Storage.WriteOutcome}
    (hlog : log = before ++
      (.cycle, ⟨.storage (.upsert u.key u.provenance u.body), answer⟩) :: after) :
    upserts (eventsOf .cycle after) = [] := by
  have hone := ended.one
  rw [hlog, Proc.eventsOf_append, Proc.eventsOf_cons_self, upserts_append] at hone
  exact (SendsOne.eq_nil_of_cons (u := u) hone).2

theorem remainder {u : Upsert} {answer : Except Fault Storage.WriteOutcome}
    (hlog : log = before ++
      (.cycle, ⟨.storage (.upsert u.key u.provenance u.body), answer⟩) :: after) :
    Remainder after := by
  have hcycle : ∀ e ∈ eventsOf .cycle after, e.call.onlySends = true := by
    intro e he
    refine ended.sends e ?_
    rw [hlog, Proc.eventsOf_append, Proc.eventsOf_cons_self]
    exact List.mem_append_right _ (List.mem_cons_of_mem _ he)
  have hsound : ∀ v ∈ upserts (after.map (·.2)), v.Sound := by
    refine fun v hv => ended.sound ?_
    rw [hlog, List.map_append, List.map_cons, upserts_append]
    exact List.mem_append_right _ (upserts_subset (List.subset_cons_self _ _) hv)
  have hnone := ended.upserts_cycle_after hlog
  rw [← List.singleton_append, ← List.append_assoc] at hlog
  rcases ended.submission hlog with hpass | ⟨mid, tail, keys, answer', rfl, hpass, htail⟩
  · exact .unsubmitted (onlySends_log hcycle hpass) hsound
  · rw [Proc.eventsOf_append, Proc.eventsOf_cons_ne (by decide)] at hcycle hnone
    rw [List.map_append, List.map_cons, upserts_append] at hsound
    rw [upserts_append] at hnone
    refine .submitted rfl (onlySends_log (fun e he => hcycle e (List.mem_append_left _ he)) hpass)
      (fun v hv => hsound v (List.mem_append_left _ hv))
      (onlySends_log (fun e he => hcycle e (List.mem_append_right _ he)) (fun e he => ?_)) ?_
    · rw [htail] at he
      cases he
    · refine List.eq_nil_iff_forall_not_mem.mpr fun v hv => ?_
      rcases mem_upserts_log hv with hv | hv
      · rw [(List.append_eq_nil_iff.mp hnone).2] at hv
        cases hv
      · rw [htail] at hv
        cases hv

end Ended

section

variable {τ ρ : Type} {h : Handler Storage.Service.interface ρ} {store : ρ → Store}
  (backed : Backed h store) (reliable : Reliable h) {c : Client} {outside : Handler interface τ}
include backed reliable

/-- Among calls that only send, a record stays. -/
theorem atLeast_of_leads {log : List (Side × Event interface)} {x x' : τ × ρ}
    (hleads : Leads (beside outside (c.service h)) x (log.map (·.2)) x')
    (hsends : ∀ e ∈ log.map (·.2), e.call.onlySends = true)
    (hsound : ∀ u ∈ upserts (log.map (·.2)), u.Sound) {key : ImportKey} {marker : Nat}
    (hbefore : AtLeast marker ((store x.2).get? key)) :
    AtLeast marker ((store x'.2).get? key) := by
  rw [delivered_of_leads hleads hsends]
  exact atLeast_foldl_delivered backed reliable hsound hbefore

/-- A record that is there stays when the keys that are submitted afterwards have its key. -/
theorem Remainder.stays_iff {after : List (Side × Event interface)} (rest : Remainder after)
    {x x' : τ × ρ} (hleads : Leads (beside outside (c.service h)) x (after.map (·.2)) x')
    {key : ImportKey} {marker : Nat} (hbefore : AtLeast marker ((store x.2).get? key)) :
    AtLeast marker ((store x'.2).get? key) ↔
      ∀ keys ∈ submittedKeys (eventsOf .pass after), key ∈ keys := by
  have hnone : ∀ {log : List (Side × Event interface)},
      (∀ e ∈ log.map (·.2), e.call.onlySends = true) → submittedKeys (eventsOf .pass log) = [] :=
    fun hsends => submittedKeys_of_onlySends fun e he =>
      hsends e (List.mem_map_of_mem (Proc.mem_eventsOf.mp he))
  cases rest with
  | unsubmitted hsends hsound =>
    rw [hnone hsends]
    exact iff_of_true (atLeast_of_leads backed reliable hleads hsends hsound hbefore)
      fun _ hkeys => nomatch hkeys
  | @submitted mid tail keys answer hafter hsends hsound hrest hlast =>
    subst hafter
    rw [List.map_append, List.map_cons] at hleads
    obtain ⟨y, hmid, hleads⟩ := hleads.split
    obtain ⟨-, htail⟩ := hleads.head
    have hstate : x'.2 = (c.service h (.keySet keys) y.2).2 := by
      rw [delivered_of_leads htail hrest, hlast]
      rfl
    have hthere := atLeast_of_leads backed reliable hmid hsends hsound hbefore
    have hsubmitted : submittedKeys (eventsOf .pass (mid ++
        (Side.pass, ⟨.storage (.keySet keys), answer⟩) :: tail)) = [keys] := by
      rw [Proc.eventsOf_append, Proc.eventsOf_cons_self, submittedKeys_append, hnone hsends]
      exact congrArg (keys :: ·) (hnone hrest)
    rw [hsubmitted, List.forall_mem_singleton, hstate, get?_keySet backed reliable]
    by_cases hkey : key ∈ keys
    · rw [if_pos hkey]
      exact iff_of_true hthere hkey
    · rw [if_neg hkey]
      refine iff_of_false ?_ hkey
      rintro ⟨record, hrecord, -⟩
      cases hrecord

end

end Sync

end CatalogSync
