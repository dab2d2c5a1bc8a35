import CatalogSync.Proofs.Sync.Repetition
import CatalogSync.Proofs.Sync.StrayRecords
import CatalogSync.Proofs.Sync.Subjects
/-!
# What a pass leaves in the store

A pass in which no listing fails makes the store agree with the world (`fullPass_synchronises`): a
key is stored when it is that of a subject whose record was sent, or of one whose record was there
already; a record that was sent is the one that follows from the world, and all others are left as
they are. Neither the importer nor the publisher has a say in this.

The service takes what is sent for a subject unless it is too long for it or the store has a newer
record. So the law supposes that no record is newer than the world, and that no two subjects have
one key: then of all that is sent, only one record concerns a given key.
-/

namespace CatalogSync.Sync

open Proc (Handler)
open Storage (AtMost Client Depot Store StoredRecord)
open Storage.Service (Backed Reliable)
open Registry (RegisteredModel ModelVersion Directory)

/-! ## §1 Records that are sent one after another -/

/-- The record that is made of what is sent. -/
def Upsert.record (u : Upsert) (imported : Bool) : StoredRecord :=
  Storage.Service.recordOf u.body u.marker u.provenance imported

/-- The record is stored, whether or not it says that the importer knows it. -/
def Upsert.HeldBy (u : Upsert) (m : Store) : Prop :=
  ∃ imported, m.get? u.key = some (u.record imported)

theorem Upsert.HeldBy.atMost {u : Upsert} {m : Store} (hu : u.HeldBy m) :
    AtMost u.marker (m.get? u.key) := by
  obtain ⟨imported, hget⟩ := hu
  intro record hrecord
  rw [hget] at hrecord
  cases hrecord
  exact Nat.le_refl u.marker

section

variable {ρ : Type} {h : Handler Storage.Service.interface ρ} {store : ρ → Store}
  (backed : Backed h store) (reliable : Reliable h) {c : Client} {u : Upsert} {k : ImportKey}
include backed reliable

/-- What is sent concerns its own key only, and none if it is too long. -/
theorem get?_delivered_of_ne (hu : u.Sound) (hk : u.body.Fits → k ≠ u.key) (r : ρ) :
    (store (delivered (c.service h) r u)).get? k = (store r).get? k := by
  unfold delivered
  by_cases hfits : u.body.Fits
  · obtain ⟨hstate, outcome, hw⟩ := Client.service_upsert_fits (c := c) (s := r) u.provenance
      backed reliable hfits hu
    rw [hstate]
    exact hw.get?_of_ne (hk hfits)
  · rw [(Client.service_upsert_long hfits).1]

/-- What is sent is stored unless it is too long or a newer record is there. -/
theorem heldBy_delivered (hu : u.Sound) (hfits : u.body.Fits) {r : ρ}
    (hold : AtMost u.marker ((store r).get? u.key)) :
    u.HeldBy (store (delivered (c.service h) r u)) := by
  obtain ⟨hstate, outcome, hw⟩ := Client.service_upsert_fits (c := c) (s := r) u.provenance
    backed reliable hfits hu
  unfold delivered
  rw [hstate]
  exact hw.get?_key fun old imported hget => hold old hget

variable {sent : List Upsert} (hsent : ∀ u ∈ sent, u.Sound)
include hsent

theorem get?_foldl_delivered_of_ne (hk : ∀ u ∈ sent, u.body.Fits → k ≠ u.key) (r : ρ) :
    (store (sent.foldl (delivered (c.service h)) r)).get? k = (store r).get? k := by
  induction sent generalizing r with
  | nil => rfl
  | cons u sent ih =>
    rw [List.forall_mem_cons] at hsent hk
    rw [List.foldl_cons, ih hsent.2 hk.2]
    exact get?_delivered_of_ne backed reliable hsent.1 hk.1 r

/-- A record that is sent is stored in the end when nothing else is sent for its key. -/
theorem heldBy_foldl_delivered (hfits : u.body.Fits) (honly : ∀ v ∈ sent, v.key = u.key → v = u)
    {r : ρ} (hold : AtMost u.marker ((store r).get? u.key))
    (hu : u ∈ sent ∨ u.HeldBy (store r)) :
    u.HeldBy (store (sent.foldl (delivered (c.service h)) r)) := by
  induction sent generalizing r with
  | nil => exact hu.resolve_left List.not_mem_nil
  | cons v sent ih =>
    rw [List.forall_mem_cons] at hsent honly
    rw [List.foldl_cons]
    by_cases hkey : v.key = u.key
    · obtain rfl := honly.1 hkey
      have hheld := heldBy_delivered (c := c) backed reliable hsent.1 hfits hold
      apply ih hsent.2 honly.2 hheld.atMost
      exact .inr hheld
    · -- The record is still to come, or it stays where it is.
      have hsame := get?_delivered_of_ne (c := c) (k := u.key) backed reliable hsent.1
        (fun _ h => hkey h.symm) r
      apply ih hsent.2 honly.2
      · rwa [hsame]
      · rw [Upsert.HeldBy, hsame]
        apply hu.imp_left
        intro hmem
        apply (List.mem_cons.mp hmem).resolve_left
        rintro rfl
        exact hkey rfl

end

/-! ## §2 How a pass ends -/

/-- The records that are sent are those of the subjects that are ready. -/
structure World.Offers (w : World) (directory : Directory) (style : Style) (sent : List Upsert) :
    Prop where
  sound : ∀ u ∈ sent, u.Sound
  mem_iff : ∀ u, u ∈ sent ↔ ∃ x, w.Stands directory x ∧ x.Ready ∧ u ∈ w.upsertsOf style x

section

variable {τ ρ : Type} {w : World} {outside : Handler interface τ}

theorem World.AnsweredCluster.beside (cluster : w.AnsweredCluster outside)
    (service : Handler Storage.Publishing.interface ρ) :
    w.AnsweredCluster (beside outside service) where
  deployment ns name s := cluster.deployment ns name s.1
  deployments s := cluster.deployments s.1
  details d s := cluster.details d s.1

theorem World.AnsweredAt.beside {endpoint : String} (registry : w.AnsweredAt outside endpoint)
    (service : Handler Storage.Publishing.interface ρ) :
    w.AnsweredAt (beside outside service) endpoint := fun q s => registry q s.1

variable {b : Bridge} (cluster : w.AnsweredCluster outside)
  (registries : ∀ endpoint ∈ b.directory.toList, w.AnsweredAt outside endpoint)
include cluster registries

/-- Before it submits its keys, a pass in which no listing fails sends the records of the subjects
that are ready, and it notes the current keys. -/
theorem run_visitAll_of_listed (service : Handler Storage.Publishing.interface ρ) (t : τ) (r : ρ)
    (hlisted : ((visitAll b.style b.directory).trace (beside outside service) (t, r)).any
      listingFailed = false) :
    ∃ (p : Progress) (sent : List Upsert) (t' : τ),
      (visitAll b.style b.directory).run (beside outside service) (t, r) =
          (p, t', sent.foldl (delivered service) r) ∧
        p.complete = true ∧ (∀ k, k ∈ p.keys.toList ↔ w.Current b.directory k) ∧
        w.Offers b.directory b.style sent := by
  have cluster' := cluster.beside service
  have registries' : ∀ endpoint ∈ b.directory.toList,
      w.AnsweredAt (beside outside service) endpoint :=
    fun endpoint hendpoint => (registries endpoint hendpoint).beside _
  have shown := shownBy_of_answered cluster' registries'
  obtain ⟨hcomplete, hkeys⟩ :=
    progress_visitAll shown.registry b.style (shown.deployments (t, r))
  obtain ⟨-, t', hvisit, -⟩ := (alike_visitAll b.style b.directory).run outside service t r r
  rw [hlisted] at hcomplete
  refine ⟨_, _, t', Prod.ext rfl hvisit, hcomplete, hkeys hlisted, ?_, ?_⟩
  · intro u hu
    exact (sends_visitAll b.style b.directory _ u hu).1
  · intro u
    exact mem_upserts_visitAll cluster' registries' b.style hlisted

variable {h : Handler Storage.Service.interface ρ} {store : ρ → Store}

/-- What a pass in which no listing fails does to the store: it sends the records of the subjects
that are ready, and then it removes the records whose keys are not current. -/
theorem run_fullPass_of_listed (hb : b.origin = .fixed) (backed : Backed h store)
    (reliable : Reliable h) (c : Client) (t : τ) (r : ρ)
    (hlisted : ((b.fullPass none).trace (beside outside (c.service h)) (t, r)).any
      listingFailed = false) :
    ∃ (sent : List Upsert) (current : ImportKey → Bool) (summary : Summary) (t' : τ) (r' : ρ),
      (b.fullPass none).run (beside outside (c.service h)) (t, r) = ((.ok summary, b), t', r') ∧
        w.Offers b.directory b.style sent ∧ (∀ k, current k = true ↔ w.Current b.directory k) ∧
        let offered := store (sent.foldl (delivered (c.service h)) r)
        store r' = offered.filterKeys current ∧
          summary.removed = offered.keys.filter fun k => !current k := by
  rw [trace_fullPass_fixed hb, trace_pass, List.any_append, Bool.or_eq_false_iff] at hlisted
  obtain ⟨p, sent, t', hvisit, hcomplete, hkeys, hsent⟩ :=
    run_visitAll_of_listed cluster registries (c.service h) t r hlisted.1
  have hpass := run_pass hvisit
  obtain ⟨gone, hgone, hkeySet, hpruned⟩ := Client.service_keySet (c := c)
    (s := sent.foldl (delivered (c.service h)) r) backed reliable p.keys.toList
  have hkept := (hgone ▸ hpruned).kept
  generalize Storage.Router.next h _ _ = r' at hkeySet hkept
  rw [if_pos hcomplete, hkeySet] at hpass
  refine ⟨sent, (SortedSet.ofList p.keys.toList).contains, p.summary (some gone), t', r', ?_,
    hsent, fun k => ?_, hkept, hgone⟩
  · rw [run_fullPass_fixed hb, hpass]
    rfl
  · rw [SortedSet.contains_ofList, decide_eq_true_iff, hkeys]

end

/-! ## §3 The store and the world -/

namespace World

variable (w : World)

/-- The record of a subject is sent, and it is not too long for the service. -/
def Due (style : Style) (x : Subject) (entry : Catalog.Entry) : Prop :=
  x.Ready ∧ (bodyOf style entry (w.cardOf? x entry)).Fits

/-- No two subjects have one key. -/
def Separate (directory : Directory) : Prop :=
  ∀ x y k, w.Stands directory x → w.Stands directory y → x.key = .ok k → y.key = .ok k → x = y

/-- A store shows a world, and for the rest what it had before: the record that is due is there, and
where none is due the subject keeps the record that it had. -/
structure Mirrored (directory : Directory) (style : Style) (before after : Store) : Prop where
  records : ∀ x k, w.Stands directory x → x.key = .ok k → ∃ entry,
    w.entryOf style x = .ok entry ∧
      (w.Due style x entry → ∃ imported, after.get? k = some
        { body := entry.encode style.format
          lastUpdate := entry.lastUpdate
          provenance := x.provenance
          modelCard := (w.cardOf? x entry).bind Text.nonEmpty?
          imported }) ∧
      (¬ w.Due style x entry → after.get? k = before.get? k)
  -- There are no other records.
  others : ∀ k, ¬ w.Current directory k → after.get? k = none

namespace Mirrored

variable {w} {directory : Directory} {style : Style} {before after : Store}
  (hw : w.Mirrored directory style before after)
include hw

theorem current_of_mem {k : ImportKey} (hk : k ∈ after.keys) : w.Current directory k := by
  by_contra hc
  rw [SortedMap.mem_keys_iff, hw.others k hc] at hk
  cases hk

/-- What stands is not lost. -/
theorem mem_of_current {k : ImportKey} (hc : w.Current directory k) (hk : k ∈ before.keys) :
    k ∈ after.keys := by
  obtain ⟨x, hx, hkey⟩ := (current_iff k).mp hc
  obtain ⟨entry, hentry, hnew, hsame⟩ := hw.records x k hx hkey
  rw [SortedMap.mem_keys_iff] at hk ⊢
  by_cases hdue : w.Due style x entry
  · obtain ⟨imported, hget⟩ := hnew hdue
    rw [hget]
    rfl
  · rwa [hsame hdue]

/-- The stored keys are those of the subjects whose record was due or was there before. -/
theorem mem_keys_iff (k : ImportKey) :
    k ∈ after.keys ↔ ∃ x entry, w.Stands directory x ∧ x.key = .ok k ∧
      w.entryOf style x = .ok entry ∧ (w.Due style x entry ∨ k ∈ before.keys) := by
  constructor
  · intro hk
    obtain ⟨x, hx, hkey⟩ := (current_iff k).mp (hw.current_of_mem hk)
    obtain ⟨entry, hentry, -, hsame⟩ := hw.records x k hx hkey
    refine ⟨x, entry, hx, hkey, hentry, ?_⟩
    by_cases hdue : w.Due style x entry
    · exact .inl hdue
    · rw [SortedMap.mem_keys_iff, hsame hdue, ← SortedMap.mem_keys_iff] at hk
      exact .inr hk
  · rintro ⟨x, entry, hx, hkey, hentry, hdue | hk⟩
    · obtain ⟨entry', hentry', hnew, -⟩ := hw.records x k hx hkey
      cases hentry.symm.trans hentry'
      obtain ⟨imported, hget⟩ := hnew hdue
      rw [SortedMap.mem_keys_iff, hget]
      rfl
    · exact hw.mem_of_current ((current_iff k).mpr ⟨x, hx, hkey⟩) hk

/-- Of the keys that were stored before, those that are not current are gone. -/
theorem gone_eq {current : ImportKey → Bool}
    (hcurrent : ∀ k, current k = true ↔ w.Current directory k) :
    (before.keys.filter fun k => !current k) = before.keys.filter fun k => !after.contains k := by
  refine List.filter_congr fun k hk => ?_
  congr 1
  rw [Bool.eq_iff_iff, hcurrent, SortedMap.contains, ← SortedMap.mem_keys_iff]
  exact ⟨fun hc => hw.mem_of_current hc hk, hw.current_of_mem⟩

end Mirrored

end World

/-- The record of an entry, in its parts. -/
theorem record_ofEntry {w : World} {style : Style} {x : Subject} {entry : Catalog.Entry}
    (hentry : w.entryOf style x = .ok entry) (imported : Bool) :
    (Upsert.ofEntry style entry (w.cardOf? x entry)).record imported =
      { body := entry.encode style.format
        lastUpdate := entry.lastUpdate
        provenance := x.provenance
        modelCard := (w.cardOf? x entry).bind Text.nonEmpty?
        imported } := by
  rw [Upsert.record, (sound_ofEntry style hentry _).2, (World.of_entryOf hentry).2]
  cases w.cardOf? x entry <;> rfl

section

variable {ρ : Type} {w : World} {directory : Directory} {style : Style} {sent : List Upsert}
  (hsent : w.Offers directory style sent)

include hsent in
/-- What is sent for a key is the record of the one subject that has the key. -/
theorem eq_of_sent (separate : w.Separate directory) {x : Subject} {entry : Catalog.Entry}
    (hx : w.Stands directory x) (hentry : w.entryOf style x = .ok entry) {u : Upsert}
    (hu : u ∈ sent) (hkey : u.key = entry.key) :
    x.Ready ∧ u = .ofEntry style entry (w.cardOf? x entry) := by
  obtain ⟨y, hy, hready, hmem⟩ := (hsent.mem_iff u).mp hu
  obtain ⟨entry', hentry', rfl⟩ := World.mem_upsertsOf_iff.mp hmem
  have hykey : y.key = .ok entry.key := hkey ▸ (World.of_entryOf hentry').1
  obtain rfl := separate x y _ hx hy (World.of_entryOf hentry).1 hykey
  cases hentry.symm.trans hentry'
  exact ⟨hready, rfl⟩

variable {h : Handler Storage.Service.interface ρ} {store : ρ → Store} (backed : Backed h store)
  (reliable : Reliable h) {c : Client} {r : ρ}
include hsent backed reliable

/-- After everything was sent, the record that is due is there. -/
theorem heldBy_of_due (separate : w.Separate directory) {x : Subject} {entry : Catalog.Entry}
    (hx : w.Stands directory x) (hentry : w.entryOf style x = .ok entry)
    (hdue : w.Due style x entry) (hold : AtMost entry.lastUpdate ((store r).get? entry.key)) :
    (Upsert.ofEntry style entry (w.cardOf? x entry)).HeldBy
      (store (sent.foldl (delivered (c.service h)) r)) := by
  obtain ⟨u, hu⟩ : ∃ u, u = Upsert.ofEntry style entry (w.cardOf? x entry) := ⟨_, rfl⟩
  have hkey : u.key = entry.key := hu ▸ rfl
  have hmarker : u.marker = entry.lastUpdate := hu ▸ (sound_ofEntry style hentry _).2
  have hfits : u.body.Fits := hu ▸ hdue.2
  have hmem : u ∈ sent :=
    (hsent.mem_iff u).mpr ⟨x, hx, hdue.1, World.mem_upsertsOf_iff.mpr ⟨entry, hentry, hu⟩⟩
  have honly : ∀ v ∈ sent, v.key = u.key → v = u := fun v hv hvkey =>
    (eq_of_sent hsent separate hx hentry hv (hvkey.trans hkey)).2.trans hu.symm
  rw [← hu]
  rw [← hkey, ← hmarker] at hold
  exact heldBy_foldl_delivered backed reliable hsent.sound hfits honly hold (.inl hmem)

/-- Where no record is due, what is sent changes nothing. -/
theorem get?_of_not_due (separate : w.Separate directory) {x : Subject} {entry : Catalog.Entry}
    (hx : w.Stands directory x) (hentry : w.entryOf style x = .ok entry)
    (hdue : ¬ w.Due style x entry) :
    (store (sent.foldl (delivered (c.service h)) r)).get? entry.key = (store r).get? entry.key := by
  refine get?_foldl_delivered_of_ne backed reliable hsent.sound ?_ r
  intro u hu hfits hkey
  obtain ⟨hready, rfl⟩ := eq_of_sent hsent separate hx hentry hu hkey.symm
  exact hdue ⟨hready, hfits⟩

theorem get?_of_not_current {k : ImportKey} (hk : ¬ w.Current directory k) :
    (store (sent.foldl (delivered (c.service h)) r)).get? k = (store r).get? k := by
  refine get?_foldl_delivered_of_ne backed reliable hsent.sound ?_ r
  rintro u hu - rfl
  obtain ⟨x, hx, -, hmem⟩ := (hsent.mem_iff u).mp hu
  obtain ⟨entry, hentry, rfl⟩ := World.mem_upsertsOf_iff.mp hmem
  exact hk ((World.current_iff _).mpr ⟨x, hx, (World.of_entryOf hentry).1⟩)

/-- After everything was sent and the records of other keys were removed, the store shows the
world. -/
theorem mirrored_of_sent (separate : w.Separate directory)
    (hold : ∀ x entry, w.Stands directory x → w.entryOf style x = .ok entry →
      w.Due style x entry → AtMost entry.lastUpdate ((store r).get? entry.key))
    {current : ImportKey → Bool} (hcurrent : ∀ k, current k = true ↔ w.Current directory k) :
    w.Mirrored directory style (store r)
      ((store (sent.foldl (delivered (c.service h)) r)).filterKeys current) where
  records x k hx hkey := by
    obtain ⟨entry, hentry⟩ := World.exists_entryOf hkey
    obtain rfl := Except.ok.inj (hkey.symm.trans (World.of_entryOf hentry).1)
    have hin : current entry.key = true :=
      (hcurrent _).mpr ((World.current_iff _).mpr ⟨x, hx, hkey⟩)
    rw [SortedMap.get?_filterKeys, if_pos hin]
    refine ⟨entry, hentry, fun hdue => ?_, fun hdue => ?_⟩
    · obtain ⟨imported, hheld⟩ := heldBy_of_due (c := c) hsent backed reliable separate hx hentry
        hdue (hold x entry hx hentry hdue)
      exact ⟨imported, by rw [← record_ofEntry hentry]; exact hheld⟩
    · exact get?_of_not_due hsent backed reliable separate hx hentry hdue
  others k hk := by
    rw [SortedMap.get?_filterKeys, if_neg fun hc => hk ((hcurrent k).mp hc)]

/-- Of the records of other keys, what is sent neither adds nor removes any. -/
theorem keys_filter_of_sent {current : ImportKey → Bool}
    (hcurrent : ∀ k, current k = true ↔ w.Current directory k) :
    ((store (sent.foldl (delivered (c.service h)) r)).keys.filter fun k => !current k) =
      (store r).keys.filter fun k => !current k := by
  rw [← SortedMap.keys_filterKeys, ← SortedMap.keys_filterKeys]
  congr 1
  refine SortedMap.ext_get? fun k => ?_
  rw [SortedMap.get?_filterKeys, SortedMap.get?_filterKeys]
  by_cases hc : current k = true
  · rw [hc]
    rfl
  · rw [get?_of_not_current hsent backed reliable fun h => hc ((hcurrent k).mpr h)]

end

section

variable {τ ρ : Type} {b : Bridge} (hb : b.origin = .fixed) {w : World}
  {outside : Handler interface τ} (cluster : w.AnsweredCluster outside)
  (registries : ∀ endpoint ∈ b.directory.toList, w.AnsweredAt outside endpoint)
  {h : Handler Storage.Service.interface ρ} {store : ρ → Store} (backed : Backed h store)
  (reliable : Reliable h) (c : Client) (t : τ) (r : ρ) (separate : w.Separate b.directory)
  (hold : ∀ x entry, w.Stands b.directory x → w.entryOf b.style x = .ok entry →
    w.Due b.style x entry → AtMost entry.lastUpdate ((store r).get? entry.key))
  (hlisted : ((b.fullPass none).trace (beside outside (c.service h)) (t, r)).any
    listingFailed = false)
include hb cluster registries backed reliable separate hold hlisted

/-- A pass in which no listing fails ends with a store that shows the world, and says which records
it has removed. -/
theorem mirrored_fullPass :
    let run := (b.fullPass none).run (beside outside (c.service h)) (t, r)
    w.Mirrored b.directory b.style (store r) (store run.2.2) ∧
      ∃ summary, run.1.1 = .ok summary ∧
        summary.removed = (store r).keys.filter fun k => !(store run.2.2).contains k := by
  intro run
  obtain ⟨sent, current, summary, t', r', hrun, hsent, hcurrent, hafter, hremoved⟩ :=
    run_fullPass_of_listed cluster registries hb backed reliable c t r hlisted
  have hmirrored := mirrored_of_sent (c := c) hsent backed reliable separate hold hcurrent
  rw [keys_filter_of_sent hsent backed reliable hcurrent] at hremoved
  rw [← hafter] at hmirrored
  have hstore : store run.2.2 = store r' := congrArg (fun x => store x.2.2) hrun
  rw [hstore]
  refine ⟨hmirrored, summary, congrArg (·.1.1) hrun, ?_⟩
  rw [hremoved, hmirrored.gone_eq hcurrent]

/-- A pass in which no listing fails synchronises the store with the world, unless it has newer
records or two subjects have one key. Afterwards the stored keys are those of the subjects whose
record was sent and not too long for the service, and those of the other subjects that had a record
before. A record that was sent and not too long shows the entry that follows from the world; the
other subjects keep what they had. The pass says which of the records that were there are gone.

The subjects are the versions in use and the unmanaged deployments without a namesake that serves
one of them. -/
theorem fullPass_synchronises :
    let run := (b.fullPass none).run (beside outside (c.service h)) (t, r)
    let before := store r
    let after := store run.2.2
    (∀ k, k ∈ after.keys ↔ ∃ x entry, w.Stands b.directory x ∧ x.key = .ok k ∧
        w.entryOf b.style x = .ok entry ∧ (w.Due b.style x entry ∨ k ∈ before.keys)) ∧
      (∀ x k, w.Stands b.directory x → x.key = .ok k → ∃ entry,
        w.entryOf b.style x = .ok entry ∧
          (w.Due b.style x entry → ∃ imported, after.get? k = some
            { body := entry.encode b.style.format
              lastUpdate := entry.lastUpdate
              provenance := x.provenance
              modelCard := (w.cardOf? x entry).bind Text.nonEmpty?
              imported }) ∧
          (¬ w.Due b.style x entry → after.get? k = before.get? k)) ∧
      (∃ summary, run.1.1 = .ok summary ∧
        summary.removed = before.keys.filter fun k => !after.contains k) ∧
      (w.Distinct → ∀ d ∈ w.deployments,
        (w.Covered b.directory d ↔ w.Serves b.directory d)) := by
  obtain ⟨hmirrored, hremoved⟩ := mirrored_fullPass hb cluster registries backed reliable c t r
    separate hold hlisted
  exact ⟨hmirrored.mem_keys_iff, hmirrored.records, hremoved,
    fun hw d hd => World.covered_iff_serves hw hd⟩

end

/-! ## §4 Worlds with one version -/

/-- No listing fails where the registries answer consistently. -/
theorem any_listingFailed_fullPass {b : Bridge} (hb : b.origin = .fixed) {w : World}
    (hw : ∀ endpoint, (w.registry endpoint).Consistent) {ρ : Type}
    (service : Handler Storage.Publishing.interface ρ) (r : ρ) :
    ((b.fullPass none).trace (beside w.surroundings service) ((), r)).any listingFailed =
      false := by
  rw [trace_fullPass_fixed hb]
  exact any_listingFailed_pass (w.answeredCluster_surroundings.beside service)
    (fun endpoint _ => ⟨(w.answeredAt_surroundings endpoint).beside service, hw endpoint⟩) _ _

/-- A deployment that is ready, next to a registry that does not know it. -/
def mnistAndFraud : World where
  deployments := [fraud]
  details _ := .ok {}
  registry := mnist.reply

/-- The only model of the registry. -/
def mnistModel : RegisteredModel := { id := "1", name := "mnist" }

def mnistVersion : ModelVersion := { id := "2", name := "v1", modelId := "1" }

def fraudKey : ImportKey := ⟨"ns_fraud", by decide +kernel⟩

theorem key_fraud : (Subject.deployment fraud).key = .ok fraudKey := by rfl

theorem key_mnistVersion (endpoint : String) :
    (Subject.version endpoint mnistModel mnistVersion).key = .ok mnistKey := by rfl

/-- In a registry with one model and one version of it, both in use, no other version is in use. -/
theorem live_iff_of_one {registry : Registry.Snapshot} {only : ModelVersion}
    (hmodels : registry.models = [mnistModel]) (hversions : registry.versions = [only])
    (honly : only.modelId = mnistModel.id ∧ only.isArchived = false) {endpoint : String}
    {model : RegisteredModel} {version : ModelVersion} :
    Registry.Replies.Live (registry.reply endpoint) model version ↔
      model = mnistModel ∧ version = only := by
  have hlisted : version ∈ Registry.Replies.versions (registry.reply endpoint) model.id ↔
      version = only ∧ version.modelId = model.id := by
    show version ∈ registry.versions.filter (·.modelId == model.id) ↔ _
    rw [hversions]
    simp
  have hmem : model ∈ Registry.Replies.models (registry.reply endpoint) ↔ model = mnistModel := by
    show model ∈ registry.models ↔ _
    rw [hmodels]
    exact List.mem_singleton
  constructor
  · rintro ⟨hmodel, -, hversion, -⟩
    exact ⟨hmem.mp hmodel, (hlisted.mp hversion).1⟩
  · rintro ⟨rfl, rfl⟩
    exact ⟨hmem.mpr rfl, rfl, hlisted.mpr ⟨rfl, honly.1⟩, honly.2⟩

theorem live_mnist_iff {endpoint : String} {model : RegisteredModel} {version : ModelVersion} :
    Registry.Replies.Live (mnist.reply endpoint) model version ↔
      model = mnistModel ∧ version = mnistVersion := live_iff_of_one rfl rfl ⟨rfl, rfl⟩

theorem stands_mnistAndFraud {x : Subject} (hx : mnistAndFraud.Stands mnistBridge.directory x) :
    (x = .version "https://registry" mnistModel mnistVersion ∧ x.key = .ok mnistKey) ∨
      (x = .deployment fraud ∧ x.key = .ok fraudKey) := by
  obtain ⟨hendpoint, hlive⟩ | ⟨hd⟩ := hx
  · obtain ⟨rfl, rfl⟩ := live_mnist_iff.mp hlive
    obtain rfl := List.mem_singleton.mp hendpoint
    exact .inl ⟨rfl, key_mnistVersion _⟩
  · obtain rfl := List.mem_singleton.mp hd
    exact .inr ⟨rfl, key_fraud⟩

theorem separate_mnistAndFraud : mnistAndFraud.Separate mnistBridge.directory := by
  intro x y k hx hy hxkey hykey
  have hdiffers : mnistKey ≠ fraudKey := by decide +kernel
  rcases stands_mnistAndFraud hx with ⟨rfl, hx⟩ | ⟨rfl, hx⟩ <;>
    rcases stands_mnistAndFraud hy with ⟨rfl, hy⟩ | ⟨rfl, hy⟩
  · rfl
  · exact absurd (Except.ok.inj (hx.symm.trans (hxkey.trans (hykey.symm.trans hy)))) hdiffers
  · exact absurd (Except.ok.inj (hy.symm.trans (hykey.trans (hxkey.symm.trans hx)))) hdiffers
  · rfl

theorem fullPass_synchronises_leftBehind :
    let run := (mnistBridge.fullPass none).run
      (beside mnistAndFraud.surroundings (storageClient.service Depot.handler)) ((), leftBehind)
    (∀ k ∈ run.2.2.store.keys, k = mnistKey ∨ k = fraudKey) ∧
      ∃ summary, run.1.1 = .ok summary ∧
        summary.removed = leftBehind.store.keys.filter fun k => !run.2.2.store.contains k := by
  have hnew : ∀ x entry, mnistAndFraud.Stands mnistBridge.directory x →
      mnistAndFraud.entryOf mnistBridge.style x = .ok entry →
      leftBehind.store.get? entry.key = none := by
    intro x entry hx hentry
    have hkey := (World.of_entryOf hentry).1
    rcases stands_mnistAndFraud hx with ⟨-, hx⟩ | ⟨-, hx⟩
    · rw [← Except.ok.inj (hx.symm.trans hkey)]
      decide +kernel
    · rw [← Except.ok.inj (hx.symm.trans hkey)]
      decide +kernel
  have hsynchronised := fullPass_synchronises (b := mnistBridge) rfl
    mnistAndFraud.answeredCluster_surroundings
    (fun endpoint _ => mnistAndFraud.answeredAt_surroundings endpoint) Depot.backed_handler
    Depot.reliable_handler storageClient () leftBehind separate_mnistAndFraud
    (fun x entry hx hentry _ old hold => by rw [hnew x entry hx hentry] at hold; cases hold)
    (any_listingFailed_fullPass rfl (Registry.Snapshot.consistent wellFormed_mnist) _ _)
  refine ⟨fun k hk => ?_, hsynchronised.2.2.1⟩
  obtain ⟨x, entry, hx, hkey, -⟩ := (hsynchronised.1 k).mp hk
  rcases stands_mnistAndFraud hx with ⟨-, hx⟩ | ⟨-, hx⟩
  · exact .inl (Except.ok.inj (hkey.symm.trans hx))
  · exact .inr (Except.ok.inj (hkey.symm.trans hx))

/-- A namesake whose labels name the version. -/
def namesake : Deployment where
  ns := "ns"
  name := "fraud"
  labels := .ofList [(Deployment.modelLabel, "1"), (Deployment.versionLabel, "2")]

def shadowed : World where
  deployments := [namesake, fraud]
  details _ := .ok {}
  registry := mnist.reply

/-- A model card that is longer than what the service reads. -/
def longCard : String := .ofList (List.replicate (Storage.Router.bodyLimit + 1) 'a')

def cardedVersion : ModelVersion :=
  { mnistVersion with
    properties := .ofList [("_registeredFromCatalogSourceName", .text "hub"),
      ("_registeredFromCatalogRepositoryName", .text "digits"),
      ("_registeredFromCatalogModelName", .text "mnist")] }

/-- A registry whose only version has a long model card. -/
def carded : Registry.Snapshot where
  models := [mnistModel]
  versions := [cardedVersion]
  cards := SortedMap.empty.insert "hub/digits/mnist" longCard

def cardedAlone : World where
  deployments := []
  details _ := .ok {}
  registry := carded.reply

theorem covered_shadowed {d : Deployment} (hd : d ∈ shadowed.deployments) :
    shadowed.Covered mnistBridge.directory d := by
  have hserves : shadowed.Serves mnistBridge.directory namesake := by
    refine ⟨"https://registry", mnistModel, mnistVersion, mnistKey,
      ⟨List.mem_singleton.mpr rfl, live_mnist_iff.mpr ⟨rfl, rfl⟩, key_mnistVersion ""⟩, ?_⟩
    decide +kernel
  refine ⟨_, List.mem_cons_self, ?_, hserves⟩
  rcases List.mem_cons.mp hd with rfl | hd
  · rfl
  · obtain rfl := List.mem_singleton.mp hd
    rfl

theorem stands_shadowed {x : Subject} (hx : shadowed.Stands mnistBridge.directory x) :
    x = .version "https://registry" mnistModel mnistVersion := by
  obtain ⟨hendpoint, hlive⟩ | ⟨hd, -, huncovered⟩ := hx
  · obtain ⟨rfl, rfl⟩ := live_mnist_iff.mp hlive
    obtain rfl := List.mem_singleton.mp hendpoint
    rfl
  · exact absurd (covered_shadowed hd) huncovered

theorem live_carded_iff {endpoint : String} {model : RegisteredModel} {version : ModelVersion} :
    Registry.Replies.Live (carded.reply endpoint) model version ↔
      model = mnistModel ∧ version = cardedVersion := live_iff_of_one rfl rfl ⟨rfl, rfl⟩

theorem stands_cardedAlone {x : Subject} (hx : cardedAlone.Stands mnistBridge.directory x) :
    x = .version "https://registry" mnistModel cardedVersion := by
  obtain ⟨hendpoint, hlive⟩ | ⟨hd⟩ := hx
  · obtain ⟨rfl, rfl⟩ := live_carded_iff.mp hlive
    obtain rfl := List.mem_singleton.mp hendpoint
    rfl
  · cases hd

theorem wellFormed_carded : carded.WellFormed where
  model_id := by decide +kernel
  models_distinct := by decide +kernel
  versions_distinct := by decide +kernel
  parent := by decide +kernel

/-- The record of the version is too long. -/
theorem not_due_carded {entry : Catalog.Entry}
    (hentry : cardedAlone.entryOf mnistBridge.style
      (.version "https://registry" mnistModel cardedVersion) = .ok entry) :
    ¬ cardedAlone.Due mnistBridge.style (.version "https://registry" mnistModel cardedVersion)
      entry := by
  have horigin : entry.cardOrigin = some ⟨"hub", "digits", "mnist"⟩ := by
    rw [World.cardOrigin_of_entryOf hentry]
    decide +kernel
  rintro ⟨-, hfits⟩
  have hcard : (bodyOf mnistBridge.style entry (some longCard)).Fits := by
    have hlookup : cardedAlone.cardOf? (.version "https://registry" mnistModel cardedVersion) entry
        = some longCard := by
      show entry.cardOrigin.bind _ = _
      rw [horigin]
      exact (SortedMap.get?_insert _ _ _ _).trans (if_pos (by decide +kernel))
    rwa [hlookup] at hfits
  have hlength : longCard.toList.length ≤ Storage.Router.bodyLimit := hcard.length_modelCard_le
  rw [longCard, String.toList_ofList, List.length_replicate] at hlength
  omega

/-- A store that was empty shows the world after a pass. -/
theorem mirrored_of_empty {w : World} (hw : ∀ endpoint, (w.registry endpoint).Consistent)
    {v : Subject} (hone : ∀ x, w.Stands mnistBridge.directory x → x = v) :
    let run := (mnistBridge.fullPass none).run
      (beside w.surroundings (storageClient.service Depot.handler)) ((), { store := .empty })
    w.Mirrored mnistBridge.directory mnistBridge.style .empty run.2.2.store := by
  have hseparate : w.Separate mnistBridge.directory :=
    fun x y _ hx hy _ _ => (hone x hx).trans (hone y hy).symm
  exact (mirrored_fullPass (b := mnistBridge) rfl w.answeredCluster_surroundings
    (fun endpoint _ => w.answeredAt_surroundings endpoint) Depot.backed_handler
    Depot.reliable_handler storageClient () { store := .empty } hseparate
    (fun _ _ _ _ _ _ hold => nomatch hold) (any_listingFailed_fullPass rfl hw _ _)).1

/-- A deployment that is ready and serves nothing gets no record when its namesake serves a version,
and a version gets none when its record is too long for the service. -/
theorem left_out_of_store :
    (let run := (mnistBridge.fullPass none).run
      (beside shadowed.surroundings (storageClient.service Depot.handler)) ((), { store := .empty })
    fraud ∈ shadowed.deployments ∧ fraud.isRegistryManaged = false ∧ fraud.isReady = true ∧
      ¬ shadowed.Serves mnistBridge.directory fraud ∧
      ImportKey.forDeployment fraud.ns fraud.name = .ok fraudKey ∧
      fraudKey ∉ run.2.2.store.keys) ∧
    (let run := (mnistBridge.fullPass none).run
      (beside cardedAlone.surroundings (storageClient.service Depot.handler))
      ((), { store := .empty })
    cardedAlone.Keyed mnistBridge.directory "https://registry" mnistModel cardedVersion mnistKey ∧
      mnistKey ∉ run.2.2.store.keys) := by
  have hshadowed := mirrored_of_empty (Registry.Snapshot.consistent wellFormed_mnist)
    fun x => stands_shadowed (x := x)
  have hcarded := mirrored_of_empty (Registry.Snapshot.consistent wellFormed_carded)
    fun x => stands_cardedAlone (x := x)
  refine ⟨⟨List.mem_cons_of_mem _ List.mem_cons_self, rfl, by decide +kernel, ?_, by rfl, ?_⟩,
    ⟨List.mem_singleton.mpr rfl, live_carded_iff.mpr ⟨rfl, rfl⟩, by rfl⟩, ?_⟩
  · rintro ⟨endpoint, model, version, key, hkeyed, hstrategy⟩
    -- No evidence leads from the only version to the deployment.
    obtain ⟨rfl, rfl⟩ := live_mnist_iff.mp hkeyed.live
    cases hstrategy
  · intro hk
    obtain ⟨x, hx, hkey⟩ := (World.current_iff _).mp (hshadowed.current_of_mem hk)
    obtain rfl := stands_shadowed hx
    have hdiffers : mnistKey ≠ fraudKey := by decide +kernel
    exact hdiffers (Except.ok.inj ((key_mnistVersion _).symm.trans hkey))
  · intro hk
    obtain ⟨x, entry, hx, -, hentry, hdue | hk⟩ := (hcarded.mem_keys_iff _).mp hk
    · obtain rfl := stands_cardedAlone hx
      exact not_due_carded hentry hdue
    · cases hk

end CatalogSync.Sync
