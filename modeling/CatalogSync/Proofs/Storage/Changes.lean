import CatalogSync.Proofs.Naming.KeyGrammar
import CatalogSync.Proofs.Order.Membership
import CatalogSync.Proofs.Storage.Calls
/-!
# What requests do to a store

Three kinds of request change the store: a write, the removal of one record, and the removal of all
records outside a key set. Each is refused for what it asks, or carries out one action under the
lock; what that action can do is said once for each kind, guards included (`Wrote`, `Erased`,
`Pruned`). An action that is refused by the backend has told the importer nothing, unless it was
removing several records: then it has removed the first of them.
-/

namespace CatalogSync.Storage

namespace Service

open Proc (Handler)

variable {σ : Type} {h : Handler interface σ} {store : σ → Store} {s : σ}

/-! ## §1 What a request asks for -/

/-- The key that a parameter gives, or why the request is refused. -/
def keyOf (parameter : Option String) : Except Rejection ImportKey :=
  match parameter.bind Text.trimmed? with
  | none => .error ⟨400, missingKey⟩
  | some raw => (ImportKey.read raw).mapError .ofFault

/-- What is said when a model card is sent for another key. -/
def foreignCard (body : PostBody) (key : ImportKey) : String :=
  "modelCardKey '" ++ body.modelCardKey ++ "' does not match key '" ++ key.text ++ "'"

/-- The key and the marker of a write, or why it is refused. -/
def targetOf (parameter : Option String) (body : PostBody) :
    Except Rejection (ImportKey × Nat) := do
  let key ← keyOf parameter
  let marker ← body.marker.mapError .ofFault
  if body.modelCardKey ≠ "" ∧ body.modelCardKey ≠ key.text then
    .error ⟨400, foreignCard body key⟩
  else .ok (key, marker)

/-- The keys of a key set, or why it is refused. -/
def keysOf : Option String → Except Rejection (List ImportKey)
  | none => .error ⟨400, missingKey⟩
  | some raw => (KeySet.parse raw).mapError .ofFault

/-- Remove the record under a key. -/
def erase (key : ImportKey) : Action Unit := do
  if ← storage (.remove key) then tellRemoved key
  else reject 404 (noRecord key)

theorem requiredKey_eq (parameter : Option String) :
    requiredKey parameter = accept.liftExcept (keyOf parameter) := by
  unfold requiredKey keyOf
  cases parameter.bind Text.trimmed? <;> rfl

/-- A write is refused for what it asks, or compared with the record and carried out under the
lock. -/
theorem upsert_eq (parameter type : Option String) (body : PostBody) :
    upsert parameter type body =
      match targetOf parameter body with
      | .error r => throw r
      | .ok (key, marker) =>
        locked (write key body marker (.ofParameter type)) >>= fun outcome =>
          pure (.written key outcome) := by
  unfold upsert targetOf accept
  rw [requiredKey_eq]
  cases keyOf parameter with
  | error r => rfl
  | ok key =>
    cases hmarker : body.marker.mapError Rejection.ofFault with
    | error r => rfl
    | ok marker =>
      show (if body.modelCardKey ≠ "" ∧ body.modelCardKey ≠ key.text then
          (throw ⟨400, foreignCard body key⟩ : Action Reply) else _) =
        match (if body.modelCardKey ≠ "" ∧ body.modelCardKey ≠ key.text then
          (.error ⟨400, foreignCard body key⟩ : Except Rejection _) else .ok (key, marker)) with
        | .error r => throw r
        | .ok (key, marker) => _
      split <;> rfl

theorem remove_eq (parameter : Option String) :
    remove parameter =
      match keyOf parameter with
      | .error r => throw r
      | .ok key => locked (erase key) >>= fun _ => pure .removed := by
  unfold remove
  rw [requiredKey_eq]
  cases keyOf parameter <;> rfl

theorem keySet_eq (parameter : Option String) :
    keySet parameter =
      match keysOf parameter with
      | .error r => throw r
      | .ok keys => locked (keep (.ofList keys)) >>= fun gone => pure (.pruned gone) := by
  cases parameter with
  | none => rfl
  | some raw =>
    unfold keySet keysOf accept
    simp only
    cases (KeySet.parse raw).mapError Rejection.ofFault <;> rfl

theorem mapError_ofFault_eq_ok_iff {α : Type} {x : Except Fault α} {a : α} :
    x.mapError Rejection.ofFault = .ok a ↔ x = .ok a := by
  cases x <;> simp [Except.mapError]

/-- A key is taken when nothing but blanks stands around it. -/
theorem keyOf_eq_ok_iff {parameter : Option String} {key : ImportKey} :
    keyOf parameter = .ok key ↔ parameter.map Text.trim = some key.text := by
  have hkey : key.text ≠ "" := by simpa using key.text_facts.1
  cases parameter with
  | none => simp [keyOf]
  | some raw =>
    simp only [keyOf, Option.bind_some, Option.map_some, Option.some.injEq]
    cases hraw : Text.trimmed? raw with
    | none => simp [Text.trimmed?_eq_none_iff.mp hraw, hkey.symm]
    | some text =>
      obtain ⟨rfl, -⟩ := Text.trimmed?_eq_some_iff.mp hraw
      exact mapError_ofFault_eq_ok_iff.trans (ImportKey.read_eq_ok_iff.trans eq_comm)

/-- A write has a key and a marker when both are in order and its model card is for no other key. -/
theorem targetOf_eq_ok_iff {parameter : Option String} {body : PostBody} {key : ImportKey}
    {marker : Nat} : targetOf parameter body = .ok (key, marker) ↔
      keyOf parameter = .ok key ∧ body.marker = .ok marker ∧
        (body.modelCardKey = "" ∨ body.modelCardKey = key.text) := by
  unfold targetOf
  cases keyOf parameter with
  | error e => simp [bind, Except.bind]
  | ok k =>
    cases body.marker with
    | error f => simp [bind, Except.bind, Except.mapError]
    | ok n =>
      show (if body.modelCardKey ≠ "" ∧ body.modelCardKey ≠ k.text then
          (.error ⟨400, foreignCard body k⟩ : Except Rejection (ImportKey × Nat))
        else .ok (k, n)) = _ ↔ _
      grind

/-! ## §2 Refusals -/

/-- The status of a refusal says that the request has failed. -/
def Rejection.Fails (r : Rejection) : Prop := Http.Status.isSuccess r.status = false

theorem Rejection.fails_ofFault (f : Fault) : (Rejection.ofFault f).Fails := by
  unfold ofFault Fails
  split
  · rfl
  · split <;> rfl

theorem fails_of_mapError {α : Type} {x : Except Fault α} {r : Rejection}
    (hr : x.mapError Rejection.ofFault = .error r) : r.Fails := by
  cases x with
  | ok a => cases hr
  | error f =>
    cases hr
    exact Rejection.fails_ofFault f

theorem fails_of_keyOf {parameter : Option String} {r : Rejection}
    (hr : keyOf parameter = .error r) : r.Fails := by
  unfold keyOf at hr
  split at hr
  · cases hr
    rfl
  · exact fails_of_mapError hr

theorem fails_of_targetOf {parameter : Option String} {body : PostBody} {r : Rejection}
    (hr : targetOf parameter body = .error r) : r.Fails := by
  unfold targetOf at hr
  cases hkey : keyOf parameter with
  | error e =>
    rw [hkey] at hr
    cases hr
    exact fails_of_keyOf hkey
  | ok key =>
    rw [hkey] at hr
    cases hmarker : body.marker.mapError Rejection.ofFault with
    | error e =>
      rw [hmarker] at hr
      cases hr
      exact fails_of_mapError hmarker
    | ok marker =>
      rw [hmarker] at hr
      change (if _ then _ else _) = _ at hr
      split at hr
      · cases hr
        rfl
      · cases hr

/-! ## §3 Writing -/

/-- What the importer is told about a record, and whether the record says so afterwards. -/
inductive Announced (h : Handler interface σ) (key : ImportKey) :
    (before after : Bool) → List (Notice × Bool) → Prop where
  -- The importer knows the record.
  | known : Announced h key true true []
  -- The importer is told; the record may miss that it took the notice, but only when the backend
  -- fails.
  | told {took after : Bool} (htook : after = true → took = true)
      (hreliable : Reliable h → after = took) (hheard : Heard h → took = true) :
      Announced h key false after [(.imported key, took)]

theorem ends_announce (backed : Backed h store) {key : ImportKey} {record : StoredRecord}
    {before : Store} (hunknown : record.imported = false)
    (hs : store s = before.insert key record) :
    Ends h (announce key record) s fun r s' told =>
      r = .ok () ∧ ∃ imported, store s' = before.insert key { record with imported } ∧
        Announced h key false imported told := by
  have hsame : { record with imported := false } = record := by
    cases record
    cases hunknown
    rfl
  refine Ends.tellImported backed fun took s₁ hheard hs₁ => ?_
  cases took with
  | false =>
    refine Ends.pure ⟨rfl, false, by rw [hs₁, hs, hsame], ?_⟩
    exact .told (fun h => h) (fun _ => rfl) hheard
  | true =>
    show Ends h (tryStorage _ >>= pure) s₁ _
    refine Ends.tryStorage backed (fun s₂ hs₂ => Ends.pure ⟨rfl, true, ?_, ?_⟩)
      (fun s₂ hfail hs₂ => Ends.pure ⟨rfl, false, ?_, ?_⟩)
    · rw [hs₂, hs₁, hs]
      exact SortedMap.insert_insert before key _ _
    · exact .told (fun _ => rfl) (fun _ => rfl) hheard
    -- The importer has taken the notice, but the record does not say so.
    · rw [hs₂, hs₁, hs, hsame]
    · exact .told (fun h => absurd h Bool.false_ne_true) (fun h => absurd h hfail) hheard

/-- All that a write can do to a store. -/
inductive Wrote (h : Handler interface σ) (key : ImportKey) (record : Bool → StoredRecord)
    (before : Store) : Except Rejection WriteOutcome → Store → List (Notice × Bool) → Prop where
  | refused {f : Fault} (hfail : ¬ Reliable h) :
      Wrote h key record before (.error (.ofFault f)) before []
  | ignored {old : StoredRecord} (hold : before.get? key = some old)
      (holder : (record old.imported).lastUpdate < old.lastUpdate) :
      Wrote h key record before (.ok .ignored) before []
  | created {imported : Bool} {told : List (Notice × Bool)} (hnew : before.get? key = none)
      (htold : Announced h key false imported told) :
      Wrote h key record before (.ok .created) (before.insert key (record imported)) told
  | updated {old : StoredRecord} {imported : Bool} {told : List (Notice × Bool)}
      (hold : before.get? key = some old)
      (hnotOlder : old.lastUpdate ≤ (record old.imported).lastUpdate)
      (htold : Announced h key old.imported imported told) :
      Wrote h key record before (.ok .updated) (before.insert key (record imported)) told

/-- A write succeeds beside a backend that does not fail. -/
theorem Wrote.exists_ok {key : ImportKey} {record : Bool → StoredRecord} {before after : Store}
    {r : Except Rejection WriteOutcome} {told : List (Notice × Bool)} (reliable : Reliable h)
    (hw : Wrote h key record before r after told) : ∃ outcome, r = .ok outcome := by
  cases hw with
  | refused hfail => exact absurd reliable hfail
  | ignored | created | updated => exact ⟨_, rfl⟩

/-- A write leaves the records under other keys as they are. -/
theorem Wrote.get?_of_ne {key k : ImportKey} {record : Bool → StoredRecord} {before after : Store}
    {r : Except Rejection WriteOutcome} {told : List (Notice × Bool)}
    (hw : Wrote h key record before r after told) (hk : k ≠ key) : after.get? k = before.get? k := by
  cases hw with
  | refused | ignored => rfl
  | created | updated => rw [SortedMap.get?_insert, if_neg hk]

/-- Unless a newer record is there, the record is there after the write. -/
theorem Wrote.get?_key {key : ImportKey} {record : Bool → StoredRecord} {before after : Store}
    {outcome : WriteOutcome} {told : List (Notice × Bool)}
    (hw : Wrote h key record before (.ok outcome) after told)
    (hold : ∀ old imported, before.get? key = some old →
      old.lastUpdate ≤ (record imported).lastUpdate) :
    ∃ imported, after.get? key = some (record imported) := by
  cases hw with
  | ignored hstored holder => exact absurd (hold _ _ hstored) (Nat.not_le.mpr holder)
  | created | updated => exact ⟨_, by rw [SortedMap.get?_insert, if_pos rfl]⟩

theorem ends_write (backed : Backed h store) (key : ImportKey) (body : PostBody) (marker : Nat)
    (provenance : Provenance) :
    Ends h (write key body marker provenance) s fun r s' told =>
      Wrote h key (recordOf body marker provenance) (store s) r (store s') told := by
  unfold write
  refine Ends.storage backed (fun x s₁ hold hs₁ => ?_) fun e s₁ hfail hs₁ => hs₁ ▸ .refused hfail
  cases x with
  | none =>
    refine Ends.storage backed (fun _ s₂ _ hs₂ => ?_) fun e s₂ hfail hs₂ => ?_
    · refine Ends.bind (ends_announce backed rfl hs₂) (fun x s₃ told hp => Ends.pure ?_)
        fun e s₃ told hp => nomatch hp.1
      obtain ⟨-, imported, hs₃, htold⟩ := hp
      rw [List.append_nil, hs₃, hs₁]
      exact .created hold htold
    · rw [hs₂, hs₁]
      exact .refused hfail
  | some old =>
    by_cases holder : marker < old.lastUpdate
    · simp only [if_pos holder]
      refine Ends.pure ?_
      rw [hs₁]
      exact .ignored hold holder
    · have hnotOlder : old.lastUpdate ≤ marker := Nat.le_of_not_lt holder
      simp only [if_neg holder]
      refine Ends.storage backed (fun _ s₂ _ hs₂ => ?_) fun e s₂ hfail hs₂ => ?_
      -- The importer is told unless the record says that it knows.
      · cases himported : old.imported with
        | true =>
          refine Ends.pure ?_
          rw [hs₂, hs₁]
          exact .updated hold hnotOlder (himported ▸ .known)
        | false =>
          rw [himported] at hs₂
          refine Ends.bind (ends_announce backed rfl hs₂) (fun x s₃ told hp => Ends.pure ?_)
            fun e s₃ told hp => nomatch hp.1
          obtain ⟨-, imported, hs₃, htold⟩ := hp
          rw [List.append_nil, hs₃, hs₁]
          exact .updated hold hnotOlder (himported ▸ htold)
      · rw [hs₂, hs₁]
        exact .refused hfail

/-- A write reads the record first, and ends when it is the older one. -/
theorem exists_write_eq (key : ImportKey) (body : PostBody) (marker : Nat)
    (provenance : Provenance) :
    ∃ judge : Option StoredRecord → Action WriteOutcome,
      write key body marker provenance = storage (.get key) >>= judge ∧
      ∀ old, marker < old.lastUpdate → judge (some old) = pure .ignored :=
  ⟨_, rfl, fun _ holder => if_pos holder⟩

/-! ## §4 Removing -/

/-- All that the removal of one record can do to a store. -/
inductive Erased (h : Handler interface σ) (key : ImportKey) (before : Store) :
    Except Rejection Unit → Store → List (Notice × Bool) → Prop where
  | refused {f : Fault} (hfail : ¬ Reliable h) : Erased h key before (.error (.ofFault f)) before []
  | absent (habsent : before.contains key = false) :
      Erased h key before (.error ⟨404, noRecord key⟩) before []
  | erased {took : Bool} (hfound : before.contains key = true) :
      Erased h key before (.ok ()) (before.erase key) [(.removed key, took)]

theorem ends_erase (backed : Backed h store) (key : ImportKey) :
    Ends h (erase key) s fun r s' told => Erased h key (store s) r (store s') told := by
  unfold erase
  refine Ends.storage backed (fun x s₁ hfound hs₁ => ?_) fun e s₁ hfail hs₁ => hs₁ ▸ .refused hfail
  cases x with
  | true =>
    show Ends h (tellRemoved key >>= pure) s₁ _
    refine Ends.tellRemoved backed fun took s₂ hs₂ => Ends.pure ?_
    rw [hs₂, hs₁]
    exact .erased hfound
  | false =>
    have hsame : (store s).erase key = store s := by
      refine SortedMap.filterKeys_eq_self fun k hk => bne_iff_ne.mpr ?_
      rintro rfl
      exact Bool.eq_false_iff.mp hfound ((SortedMap.mem_keys_iff _ _).mp hk)
    refine Ends.refuse ?_
    rw [hs₁]
    show Erased h key (store s) _ ((store s).erase key) []
    rw [hsame]
    exact .absent hfound

/-- All that the removal of several records can do to a store: it removes them all, or the first of
them until the backend fails. -/
inductive Pruned (h : Handler interface σ) (before : Store) (keys : List ImportKey) :
    Except Rejection (List ImportKey) → Store → List (Notice × Bool) → Prop where
  | all {told : List (Notice × Bool)} (htold : told.map (·.1) = keys.map .removed) :
      Pruned h before keys (.ok keys) (before.filterKeys fun k => !keys.contains k) told
  | part {gone rest : List ImportKey} {f : Fault} {told : List (Notice × Bool)}
      (hfail : ¬ Reliable h) (hkeys : keys = gone ++ rest)
      (htold : told.map (·.1) = gone.map .removed) :
      Pruned h before keys (.error (.ofFault f))
        (before.filterKeys fun k => !gone.contains k) told

theorem Pruned.of_ok {before after : Store} {keys gone : List ImportKey}
    {told : List (Notice × Bool)} (hp : Pruned h before keys (.ok gone) after told) :
    gone = keys ∧ after = before.filterKeys (fun k => !keys.contains k) ∧
      told.map (·.1) = keys.map .removed := by
  cases hp with
  | all htold => exact ⟨rfl, rfl, htold⟩

/-- Of a store whose other records are pruned the records that are kept are left. -/
theorem Pruned.kept {before after : Store} {keep : ImportKey → Bool} {gone : List ImportKey}
    {told : List (Notice × Bool)}
    (hp : Pruned h before (before.keys.filter fun key => !keep key) (.ok gone) after told) :
    after = before.filterKeys keep := by
  rw [hp.of_ok.2.1]
  refine SortedMap.filterKeys_congr fun key hkey => ?_
  simp [List.contains_eq_mem, hkey]

/-- Removing one more record in front. -/
theorem filterKeys_erase (m : Store) (key : ImportKey) (gone : List ImportKey) :
    (m.erase key).filterKeys (fun k => !gone.contains k) =
      m.filterKeys fun k => !(key :: gone).contains k := by
  unfold SortedMap.erase
  rw [SortedMap.filterKeys_filterKeys]
  congr 1
  funext k
  rw [List.contains_cons, Bool.not_or]
  rfl

theorem Pruned.cons {before : Store} {key : ImportKey} {keys : List ImportKey}
    {r : Except Rejection (List ImportKey)} {after : Store} {told : List (Notice × Bool)}
    (took : Bool) (hp : Pruned h (before.erase key) keys r after told) :
    Pruned h before (key :: keys) (r.map (key :: ·)) after ((.removed key, took) :: told) := by
  cases hp with
  | all htold =>
    rw [filterKeys_erase]
    exact .all (by rw [List.map_cons, List.map_cons, htold])
  | @part gone rest f told hfail hkeys htold =>
    rw [filterKeys_erase]
    have htold : ((.removed key, took) :: told).map (·.1) = (key :: gone).map .removed := by
      rw [List.map_cons, List.map_cons, htold]
    exact .part hfail (by rw [hkeys, List.cons_append]) htold

theorem filterKeys_notContains_nil (m : Store) :
    m.filterKeys (fun k => !([] : List ImportKey).contains k) = m :=
  SortedMap.filterKeys_eq_self fun _ _ => rfl

/-- The backend may fail before anything is removed. -/
theorem Pruned.none {before : Store} (keys : List ImportKey) {f : Fault} (hfail : ¬ Reliable h) :
    Pruned h before keys (.error (.ofFault f)) before [] := by
  have hpart : Pruned h before keys (.error (.ofFault f)) _ [] :=
    .part hfail (List.nil_append keys).symm rfl
  rwa [filterKeys_notContains_nil] at hpart

theorem ends_prune (backed : Backed h store) {keys : List ImportKey} (hnodup : keys.Nodup)
    (hstored : ∀ key ∈ keys, (store s).contains key = true) :
    Ends h (prune keys) s fun r s' told => Pruned h (store s) keys r (store s') told := by
  induction keys generalizing s with
  | nil =>
    refine Ends.pure ?_
    have hall : Pruned h (store s) [] (.ok []) _ [] := .all rfl
    rwa [filterKeys_notContains_nil] at hall
  | cons key keys ih =>
    obtain ⟨hkey, hnodup⟩ := List.nodup_cons.mp hnodup
    refine Ends.storage backed (fun x s₁ hfound hs₁ => ?_) fun e s₁ hfail hs₁ => ?_
    · change store s₁ = (store s).erase key at hs₁
      obtain rfl : true = x := (hstored key List.mem_cons_self).symm.trans hfound
      refine Ends.tellRemoved backed fun took s₂ hs₂ => ?_
      -- The other records are still there.
      have hrest : ∀ k ∈ keys, (store s₂).contains k = true := by
        intro k hk
        have hne : k ≠ key := fun h => hkey (h ▸ hk)
        rw [hs₂, hs₁, SortedMap.contains, SortedMap.get?_erase, if_neg hne]
        exact hstored k (List.mem_cons_of_mem _ hk)
      refine Ends.bind (ih hnodup hrest) (fun gone s₃ told hp => Ends.pure ?_)
        fun e s₃ told hp => ?_
      · rw [List.append_nil]
        rw [hs₂, hs₁] at hp
        exact hp.cons took
      · rw [hs₂, hs₁] at hp
        exact hp.cons took
    · rw [hs₁]
      exact .none _ hfail

/-- The records of other keys than the given ones, in order, are pruned. -/
theorem ends_keep (backed : Backed h store) (keys : SortedSet ImportKey) :
    Ends h (keep keys) s fun r s' told =>
      Pruned h (store s) ((store s).keys.filter fun key => !keys.contains key) r (store s')
        told := by
  unfold keep
  refine Ends.storage backed (fun x s₁ hlisted hs₁ => ?_) fun e s₁ hfail hs₁ => ?_
  · change store s₁ = store s at hs₁
    obtain rfl : (store s).keys = x := hlisted
    rw [← hs₁]
    refine ends_prune backed ?_ fun key hkey => ?_
    · exact ((store s₁).pairwise_keys.imp Std.ne_of_lt).filter _
    · exact (SortedMap.mem_keys_iff _ _).mp (List.mem_filter.mp hkey).1
  · rw [hs₁]
    exact .none _ hfail

end Service

end CatalogSync.Storage
