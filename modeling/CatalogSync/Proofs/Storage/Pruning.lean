import CatalogSync.Proofs.Storage.Delivery
import CatalogSync.Proofs.Storage.Locking
/-!
# Removing what is outside a key set

A key set as the publisher submits it, in surroundings that keep a store and in which any call to
the backend may fail. No call touches a record under a key of the set. When no call to the backend
fails, exactly the records under other keys are gone and the response lists them; when one fails,
the request is refused, the first of them are gone, and submitting the keys once more removes the
others (`Client.keySet_collects`). A key set that is missing or holds a bad entry makes no call at all.
-/

namespace CatalogSync.Storage

open Proc (Handler)

namespace Service

variable {σ α β : Type} {h : Handler interface σ} {store : σ → Store} {s : σ}

/-! ## §1 Actions that heed the backend -/

/-- The action comes to a result exactly when no call to the backend fails. -/
def Heeds (h : Handler interface σ) (a : Action α) : Prop :=
  ∀ s, Faultless (a.run.trace h s) ↔ ∃ x, (a.run.run h s).1 = .ok x

namespace Heeds

theorem pure (x : α) : Heeds h (pure x) := fun _ => ⟨fun _ => ⟨x, rfl⟩, fun _ => faultless_nil⟩

theorem bind {a : Action α} {f : α → Action β} (ha : Heeds h a) (hf : ∀ x, Heeds h (f x)) :
    Heeds h (a >>= f) := by
  intro s
  rw [run_bind, Proc.run_bind, Proc.trace_bind, faultless_append, ha s]
  cases hr : (a.run.run h s).1 with
  | ok x =>
    have hrest := hf x (a.run.run h s).2
    simp only [Except.ok.injEq, exists_eq', true_and]
    exact hrest
  -- The action has failed, and with it what it is followed by.
  | error e =>
    constructor
    · rintro ⟨⟨x, hx⟩, -⟩
      cases hx
    · rintro ⟨x, hx⟩
      cases hx

theorem storage (c : Backend.Call) : Heeds h (Service.storage c) := by
  intro s
  show (∀ c' f, ⟨.storage c', .error f⟩ ∉ [(⟨.storage c, (h (.storage c) s).1⟩ : Event interface)]) ↔
    ∃ x, (h (.storage c) s).1.mapError Rejection.ofFault = .ok x
  cases hr : (h (.storage c) s).1 with
  | ok x =>
    refine ⟨fun _ => ⟨x, rfl⟩, fun _ c' f he => ?_⟩
    cases List.mem_singleton.mp he
  | error f =>
    refine ⟨fun hfaultless => absurd (List.mem_singleton_self _) (hfaultless c f), ?_⟩
    rintro ⟨x, hx⟩
    cases hx

theorem tellRemoved (key : ImportKey) : Heeds h (Service.tellRemoved key) := by
  refine fun s => ⟨fun _ => ⟨(), rfl⟩, fun _ c f he => ?_⟩
  cases List.mem_singleton.mp he

theorem prune (keys : List ImportKey) : Heeds h (Service.prune keys) := by
  induction keys with
  | nil => exact .pure _
  | cons key keys ih =>
    refine .bind (.storage _) fun found => ?_
    cases found with
    | true => exact .bind (.tellRemoved key) fun _ => .bind ih fun _ => .pure _
    | false => exact ih

theorem keep (keys : SortedSet ImportKey) : Heeds h (Service.keep keys) :=
  .bind (.storage _) fun _ => .prune _

/-- Under the lock nothing else is done. -/
theorem locked {a : Action α} (ha : Heeds h a) : Heeds h (Service.locked a) := by
  intro s
  have hlock : ∀ {c : Call} {answer : c.Answer} {t : List (Event interface)}, c.isLock = true →
      (Faultless (⟨c, answer⟩ :: t) ↔ Faultless t) := by
    intro c answer t hc
    unfold Faultless
    refine forall_congr' fun c' => forall_congr' fun f => not_congr ?_
    rw [List.mem_cons]
    refine or_iff_right fun he => ?_
    cases he
    cases hc
  rw [run_locked, Proc.run_call, Proc.trace_call, hlock rfl, Proc.run_bind, Proc.trace_bind,
    faultless_append, Proc.trace_call, hlock rfl, Proc.trace_done, ha]
  exact and_iff_left faultless_nil

end Heeds

/-! ## §2 Records that are spared -/

/-- Every record is as it was, or it is gone and its key is not among the given ones. -/
def Spared (keys : List ImportKey) (before after : Store) : Prop :=
  ∀ key, after.get? key = before.get? key ∨ key ∉ keys ∧ after.get? key = none

theorem Spared.refl (keys : List ImportKey) (m : Store) : Spared keys m m := fun _ => .inl rfl

theorem Spared.trans {keys : List ImportKey} {m₁ m₂ m₃ : Store} (h₁ : Spared keys m₁ m₂)
    (h₂ : Spared keys m₂ m₃) : Spared keys m₁ m₃ := by
  intro key
  rcases h₂ key with heq₂ | hgone₂
  · rw [heq₂]
    exact h₁ key
  · exact .inr hgone₂

theorem Spared.erase {keys : List ImportKey} {key : ImportKey} (hkey : key ∉ keys) (m : Store) :
    Spared keys m (m.erase key) := by
  intro k
  rw [SortedMap.get?_erase]
  by_cases hk : k = key
  · exact .inr ⟨hk ▸ hkey, if_pos hk⟩
  · exact .inl (if_neg hk)

/-- No call of the removal touches a record under one of the keys. -/
theorem spares_keep (backed : Backed h store) (keys : List ImportKey) :
    Makes (fun c => ∀ s, Spared keys (store s) (store (h c s).2))
      (locked (keep (.ofList keys))) := by
  refine .locked (fun s => ?_) (.keep (fun s => ?_) fun key hkey => ⟨fun s => ?_, fun s => ?_⟩)
    fun s => ?_
  · exact backed.acquire s ▸ .refl _ _
  · rcases backed.storage .list s with ⟨-, hs⟩ | ⟨-, hs⟩
    all_goals exact (show store _ = store s from hs) ▸ .refl _ _
  · rcases backed.storage (.remove key) s with ⟨-, hs⟩ | ⟨-, hs⟩
    · rw [SortedSet.contains_ofList, decide_eq_false_iff_not] at hkey
      exact hs ▸ .erase hkey _
    · exact hs ▸ .refl _ _
  · exact backed.removed key s ▸ .refl _ _
  · exact backed.release s ▸ .refl _ _

/-! ## §3 Key sets that are refused -/

/-- The text of a key set has an entry that is no key. -/
def Malformed (raw : String) : Prop :=
  ∃ entry ∈ Text.split ',' raw, ∃ text, Text.trimmed? entry = some text ∧
    ImportKey.fault? text.toList ≠ none

theorem read_of_fault {text : String} (hfault : ImportKey.fault? text.toList ≠ none) :
    ∃ e : ImportKey.Error, ImportKey.read text = .error (.validation text e.message) := by
  unfold ImportKey.read ImportKey.parse
  split
  next hnone => exact absurd hnone hfault
  next e _ => exact ⟨e, rfl⟩

/-- One text that is no key fails the whole list. -/
theorem mapM_read_of_fault {texts : List String} {text : String} (hmem : text ∈ texts)
    (hfault : ImportKey.fault? text.toList ≠ none) :
    ∃ bad e, texts.mapM ImportKey.read = .error (.validation bad e) := by
  induction texts with
  | nil => cases hmem
  | cons first rest ih =>
    rw [List.mapM_cons]
    by_cases hfirst : ImportKey.fault? first.toList = none
    -- The first text is a key, so another one is not.
    · have hread := ImportKey.read_text ⟨first, hfirst⟩
      have hrest : text ∈ rest := by
        rcases List.mem_cons.mp hmem with rfl | hrest
        · exact absurd hfirst hfault
        · exact hrest
      obtain ⟨bad, e, hbad⟩ := ih hrest
      refine ⟨bad, e, ?_⟩
      rw [hread, hbad]
      rfl
    · obtain ⟨e, he⟩ := read_of_fault hfirst
      refine ⟨first, e.message, ?_⟩
      rw [he]
      rfl

/-- A key set that is missing or has a bad entry is refused. -/
theorem keysOf_of_bad {parameter : Option String}
    (hbad : ∀ raw, parameter = some raw → Malformed raw) :
    ∃ text, keysOf parameter = .error ⟨400, text⟩ := by
  cases parameter with
  | none => exact ⟨missingKey, rfl⟩
  | some raw =>
    obtain ⟨entry, hentry, text, htext, hfault⟩ := hbad raw rfl
    obtain ⟨bad, e, hread⟩ :=
      mapM_read_of_fault (List.mem_filterMap.mpr ⟨entry, hentry, htext⟩) hfault
    refine ⟨(Fault.validation bad e).message, ?_⟩
    show (KeySet.parse raw).mapError _ = _
    unfold KeySet.parse
    rw [hread]
    rfl

end Service

/-! ## §4 A key set and what is left to remove -/

namespace Router

open Service (Backed)

variable {σ : Type} {h : Handler Service.interface σ} {s : σ}

/-- A key set that is refused makes no call. -/
theorem handle_of_badKeySet {r : Incoming} {parameter : Option String}
    (hq : asked? r = some (.keySet parameter))
    (hbad : ∀ raw, parameter = some raw → Service.Malformed raw) :
    ∃ answer, handle r = .done answer ∧ answer.status = 400 := by
  obtain ⟨text, hkeys⟩ := Service.keysOf_of_bad hbad
  refine ⟨response (.error ⟨400, text⟩), ?_, rfl⟩
  rw [handle_of_asked hq]
  unfold Service.answer Service.perform
  simp only [Service.keySet_eq, hkeys, shown_of_asked hq trivial]
  rfl

end Router

namespace Client

open Router (Incoming asked? handle response)
open Service (Backed Faultless Malformed Pruned Rejection)

variable {σ : Type} {h : Handler Service.interface σ} {store : σ → Store}

/-- The keys of the records outside a key set, in order. -/
def stale (m : Store) (keys : List ImportKey) : List ImportKey := m.keys.filter (· ∉ keys)

theorem stale_eq (m : Store) (keys : List ImportKey) :
    stale m keys = m.keys.filter fun key => !(SortedSet.ofList keys).contains key := by
  unfold stale
  congr 1
  funext key
  rw [SortedSet.contains_ofList, decide_not]

theorem pairwise_stale (m : Store) (keys : List ImportKey) :
    (stale m keys).Pairwise (· < ·) := m.pairwise_keys.filter _

/-- Without the stale records those of the key set are left. -/
theorem filterKeys_stale (m : Store) (keys : List ImportKey) :
    m.filterKeys (· ∉ stale m keys) = m.filterKeys (· ∈ keys) := by
  refine SortedMap.filterKeys_congr fun key hkey => ?_
  simp [stale, hkey]

/-- Removing the first of the stale records leaves those of the key set and the other stale ones, so
removing once more leaves the same as removing all at once. -/
theorem filterKeys_gone {m : Store} {keys gone rest : List ImportKey}
    (hstale : stale m keys = gone ++ rest) :
    (m.filterKeys (· ∉ gone)).filterKeys (· ∈ keys) = m.filterKeys (· ∈ keys) := by
  rw [SortedMap.filterKeys_filterKeys]
  refine SortedMap.filterKeys_congr fun key _ => ?_
  by_cases hkey : key ∈ keys
  · have hgone : key ∉ gone := by
      intro hgone
      have hmem : key ∈ stale m keys := hstale ▸ List.mem_append_left _ hgone
      simp [stale, hkey] at hmem
    simp [hkey, hgone]
  · simp [hkey]

theorem stale_filterKeys (m : Store) (keys : List ImportKey) :
    stale (m.filterKeys (· ∈ keys)) keys = [] := by
  unfold stale
  rw [SortedMap.keys_filterKeys, List.filter_filter]
  refine List.filter_eq_nil_iff.mpr fun key _ => ?_
  simp

variable {c : Client} {keys : List ImportKey} {s : σ}

/-- In every state on the way, each record is as it was or is one that the set leaves out. -/
theorem spared_of_mem_states (backed : Backed h store) {s' : σ}
    (hs' : s' ∈ (handle (c.keySetIncoming keys)).states h s) :
    Service.Spared keys (store s) (store s') := by
  rw [handle_keySetIncoming] at hs'
  have hcalls := Proc.Calls.bind (Service.spares_keep backed keys)
    (f := fun w => .done (response (w.map .pruned))) fun _ => trivial
  exact hcalls.of_mem_states (R := fun s s' => Service.Spared keys (store s) (store s'))
    (fun s => .refl keys (store s)) (fun _ _ _ => .trans) hs'

theorem faultless_iff : Faultless ((handle (c.keySetIncoming keys)).trace h s) ↔
    ∃ gone, ((Service.locked (Service.keep (.ofList keys))).run.run h s).1 = .ok gone := by
  rw [handle_keySetIncoming, Proc.trace_bind, Proc.trace_done, List.append_nil]
  exact (Service.Heeds.keep _).locked s

/-- The response whose document lists the keys of the records that are gone. -/
def listing (gone : List ImportKey) : Http.Response where
  status := 200
  contentType := some "application/json"
  body := Text.Utf8.encode
    (Json.obj [("removed", .arr (gone.map fun key => .str key.text))]).compact

theorem response_pruned (gone : List ImportKey) :
    response (.ok (.pruned gone)) = listing gone := rfl

/-- When the backend does not fail, exactly the stale records are gone, and the response lists their
keys. -/
theorem keySet_of_faultless (backed : Backed h store)
    (hfaultless : Faultless ((handle (c.keySetIncoming keys)).trace h s)) :
    Router.reply h (c.keySetIncoming keys) s = listing (stale (store s) keys) ∧
      store (Router.next h (c.keySetIncoming keys) s) = (store s).filterKeys (· ∈ keys) := by
  obtain ⟨w, hw, hreply, hpruned⟩ := pruned_keySet (c := c) backed keys s
  obtain ⟨gone, hgone⟩ := faultless_iff.mp hfaultless
  obtain rfl : w = .ok gone := hw.trans hgone
  rw [← stale_eq] at hpruned
  obtain ⟨rfl, hstore, -⟩ := hpruned.of_ok
  refine ⟨hreply.trans (response_pruned _), ?_⟩
  rw [hstore, ← filterKeys_stale]
  simp [List.contains_eq_mem]

/-- When the backend fails, the request is refused and the first of the stale records are gone. -/
theorem keySet_of_failed (backed : Backed h store)
    (hfailed : ¬ Faultless ((handle (c.keySetIncoming keys)).trace h s)) :
    ∃ f gone rest, Router.reply h (c.keySetIncoming keys) s = response (.error (.ofFault f)) ∧
      stale (store s) keys = gone ++ rest ∧
      store (Router.next h (c.keySetIncoming keys) s) = (store s).filterKeys (· ∉ gone) := by
  obtain ⟨w, hw, hreply, hpruned⟩ := pruned_keySet (c := c) backed keys s
  rw [← stale_eq] at hpruned
  rw [hreply]
  generalize store (Router.next h (c.keySetIncoming keys) s) = after at hpruned ⊢
  generalize Router.told h (c.keySetIncoming keys) s = told at hpruned
  cases hpruned with
  | all htold => exact absurd (faultless_iff.mpr ⟨_, hw.symm⟩) hfailed
  | @part gone rest f told _ hkeys htold =>
    refine ⟨f, gone, rest, rfl, hkeys, ?_⟩
    simp [List.contains_eq_mem]

/-- Keys that are submitted to the service, in surroundings in which any call to the backend may
fail. In every state on the way the records under these keys are as they were. When no call to the
backend fails, exactly the records under other keys are gone, the response lists their keys in
ascending order, and submitting the keys once more removes nothing. When one fails, the request is
refused, the first of these records are gone, and submitting the keys again, without a failure,
leaves what a submission without a failure would have left. A key set that is missing or has an
entry that is no key is refused before anything is done. -/
theorem keySet_collects (backed : Backed h store) (c : Client) (keys : List ImportKey) (s : σ) :
    (∀ s' ∈ (handle (c.keySetIncoming keys)).states h s, ∀ key ∈ keys,
      (store s').get? key = (store s).get? key) ∧
    (Faultless ((handle (c.keySetIncoming keys)).trace h s) →
      Router.reply h (c.keySetIncoming keys) s = listing (stale (store s) keys) ∧
      (stale (store s) keys).Pairwise (· < ·) ∧
      store (Router.next h (c.keySetIncoming keys) s) = (store s).filterKeys (· ∈ keys) ∧
      (store (Router.next h (c.keySetIncoming keys) s)).keys = (store s).keys.filter (· ∈ keys) ∧
      ∀ again, store again = store (Router.next h (c.keySetIncoming keys) s) →
        (∀ s' ∈ (handle (c.keySetIncoming keys)).states h again, store s' = store again) ∧
        (Faultless ((handle (c.keySetIncoming keys)).trace h again) →
          Router.reply h (c.keySetIncoming keys) again = listing [])) ∧
    (¬ Faultless ((handle (c.keySetIncoming keys)).trace h s) →
      Http.Status.isSuccess (Router.reply h (c.keySetIncoming keys) s).status = false ∧
      ∃ f gone rest, Router.reply h (c.keySetIncoming keys) s = response (.error (.ofFault f)) ∧
        stale (store s) keys = gone ++ rest ∧
        store (Router.next h (c.keySetIncoming keys) s) = (store s).filterKeys (· ∉ gone) ∧
        ∀ later, store later = store (Router.next h (c.keySetIncoming keys) s) →
          Faultless ((handle (c.keySetIncoming keys)).trace h later) →
          store (Router.next h (c.keySetIncoming keys) later) = (store s).filterKeys (· ∈ keys)) ∧
    ∀ r parameter, asked? r = some (.keySet parameter) →
      (∀ raw, parameter = some raw → Malformed raw) →
      (handle r).states h s = [s] ∧ (Router.reply h r s).status = 400 := by
  refine ⟨fun s' hs' key hkey => ?_, fun hfaultless => ?_, fun hfailed => ?_,
    fun r parameter hq hbad => ?_⟩
  · rcases spared_of_mem_states backed hs' key with hsame | ⟨hout, -⟩
    · exact hsame
    · exact absurd hkey hout
  · obtain ⟨hreply, hstore⟩ := keySet_of_faultless backed hfaultless
    refine ⟨hreply, pairwise_stale _ _, hstore, ?_, fun again hagain => ⟨fun s' hs' => ?_,
      fun hfaultless' => ?_⟩⟩
    · rw [hstore, SortedMap.keys_filterKeys]
    -- A record outside the set is not there any more.
    · refine SortedMap.ext_get? fun key => ?_
      rcases spared_of_mem_states backed hs' key with hsame | ⟨hout, hnone⟩
      · exact hsame
      · rw [hnone, hagain, hstore, SortedMap.get?_filterKeys, if_neg (by simpa using hout)]
    · rw [(keySet_of_faultless backed hfaultless').1, hagain, hstore, stale_filterKeys]
  · obtain ⟨f, gone, rest, hreply, hstale, hstore⟩ := keySet_of_failed backed hfailed
    refine ⟨?_, f, gone, rest, hreply, hstale, hstore, fun later hlater hfaultless => ?_⟩
    · rw [hreply]
      exact Service.Rejection.fails_ofFault f
    · rw [(keySet_of_faultless backed hfaultless).2, hlater, hstore, filterKeys_gone hstale]
  · obtain ⟨answer, hhandle, hstatus⟩ := Router.handle_of_badKeySet hq hbad
    rw [Router.reply, hhandle]
    exact ⟨rfl, hstatus⟩

/-! ### A backend that fails once -/

/-- The removal of one record fails the first time. -/
def jammed : Handler Service.interface (Depot × Option ImportKey)
  | .storage (.remove key), (d, stuck) =>
    if stuck = some key then (.error (.internal "backend" "timeout"), (d, none))
    else (.ok (d.store.contains key), ({ d with store := d.store.erase key }, stuck))
  | c, (d, stuck) => ((Depot.handler c d).1, ((Depot.handler c d).2, stuck))

theorem backed_jammed : Backed jammed fun s => s.1.store where
  acquire _ := rfl
  release _ := rfl
  imported _ _ := rfl
  removed _ _ := rfl
  storage c s := by
    cases c with
    | get key => exact .inl ⟨rfl, rfl⟩
    | put key record => exact .inl ⟨rfl, rfl⟩
    | list => exact .inl ⟨rfl, rfl⟩
    | remove key =>
      by_cases hstuck : s.2 = some key
      · simp only [jammed, if_pos hstuck]
        exact .inr ⟨⟨_, rfl⟩, trivial⟩
      · simp only [jammed, if_neg hstuck]
        exact .inl ⟨rfl, rfl⟩

def draftKey : ImportKey := ⟨"team_draft", by decide +kernel⟩

def scratchKey : ImportKey := ⟨"team_scratch", by decide +kernel⟩

/-- Three records, the last of which cannot be removed the first time. -/
def cluttered : Depot × Option ImportKey :=
  ({ store := .ofList [(draftKey, { body := [0x64], lastUpdate := 3 }),
      (Router.reportKey, { body := [0x78], lastUpdate := 7 }),
      (scratchKey, { body := [0x73], lastUpdate := 5 })] }, some scratchKey)

def shelfClient : Client := .connect "http://shelf"

/-- The submission of the one record that is still wanted. -/
def shelfKeys : Router.Incoming := shelfClient.keySetIncoming [Router.reportKey]

theorem keySet_collects_cluttered :
    (Router.reply jammed shelfKeys cluttered).status = 500 ∧
      (Router.next jammed shelfKeys cluttered).1.store =
        cluttered.1.store.filterKeys (· ∉ [draftKey]) ∧
      (Router.next jammed shelfKeys (Router.next jammed shelfKeys cluttered)).1.store =
        cluttered.1.store.filterKeys (· ∈ [Router.reportKey]) := by
  have hfirst : (Router.reply jammed shelfKeys cluttered).status = 500 := by decide +kernel
  have hsecond : (Router.reply jammed shelfKeys (Router.next jammed shelfKeys cluttered)).status =
      200 := by decide +kernel
  have hfailed : ¬ Faultless ((handle shelfKeys).trace jammed cluttered) := by
    intro hfaultless
    have hreply := ((keySet_collects backed_jammed shelfClient [Router.reportKey]
      cluttered).2.1 hfaultless).1
    exact absurd ((congrArg Http.Response.status hreply).symm.trans hfirst) (by decide)
  have hfaultless : Faultless ((handle shelfKeys).trace jammed
      (Router.next jammed shelfKeys cluttered)) := by
    refine Classical.byContradiction fun hfailed => ?_
    have hstatus := ((keySet_collects backed_jammed shelfClient [Router.reportKey]
      (Router.next jammed shelfKeys cluttered)).2.2.1 hfailed).1
    change Http.Status.isSuccess (Router.reply jammed shelfKeys _).status = false at hstatus
    rw [hsecond] at hstatus
    cases hstatus
  obtain ⟨-, f, gone, rest, -, -, -, hlater⟩ := (keySet_collects backed_jammed shelfClient
    [Router.reportKey] cluttered).2.2.1 hfailed
  refine ⟨hfirst, ?_, hlater _ rfl hfaultless⟩
  decide +kernel

end Client

end CatalogSync.Storage
