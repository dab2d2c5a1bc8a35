import CatalogSync.Proofs.Storage.Changes
import CatalogSync.Proofs.Storage.Depot
import CatalogSync.Proofs.Storage.Routing
import CatalogSync.Proofs.Storage.Wire
/-!
# The store over a series of requests

The service handles requests one after another, whatever they ask for and however they are formed.
Its surroundings keep a store, any call to the backend may fail, and the importer may refuse any
notice. What a single request does is read off its response (`Handled`); over a series of requests
it follows that the marker of a record never goes down while the record is there
(`store_history`).
-/

namespace CatalogSync.Storage

open Proc (Handler)
open Service (Backed Notice Request Reply Rejection Wrote Erased Pruned Ends)

/-! ## §1 What the service does with a request -/

namespace Service

variable {σ : Type} {h : Handler interface σ} {store : σ → Store} {s : σ}

/-- All that a request can do to a store, by what it asks for. -/
inductive Performed (h : Handler interface σ) (before : Store) :
    Request → Except Rejection Reply → Store → List (Notice × Bool) → Prop where
  | upsert {parameter type : Option String} {body : PostBody} {key : ImportKey} {marker : Nat}
      {w : Except Rejection WriteOutcome} {after : Store} {told : List (Notice × Bool)}
      (htarget : targetOf parameter body = .ok (key, marker))
      (hw : Wrote h key (recordOf body marker (.ofParameter type)) before w after told) :
      Performed h before (.upsert parameter type body) (w.map (.written key)) after told
  | badUpsert {parameter type : Option String} {body : PostBody} {e : Rejection}
      (htarget : targetOf parameter body = .error e) :
      Performed h before (.upsert parameter type body) (.error e) before []
  | remove {parameter : Option String} {key : ImportKey} {w : Except Rejection Unit}
      {after : Store} {told : List (Notice × Bool)} (hkey : keyOf parameter = .ok key)
      (hw : Erased h key before w after told) :
      Performed h before (.remove parameter) (w.map fun _ => .removed) after told
  | badRemove {parameter : Option String} {e : Rejection} (hkey : keyOf parameter = .error e) :
      Performed h before (.remove parameter) (.error e) before []
  | keySet {parameter : Option String} {keys : List ImportKey}
      {w : Except Rejection (List ImportKey)} {after : Store} {told : List (Notice × Bool)}
      (hkeys : keysOf parameter = .ok keys)
      (hw : Pruned h before (before.keys.filter fun key => !(SortedSet.ofList keys).contains key) w
        after told) :
      Performed h before (.keySet parameter) (w.map .pruned) after told
  | badKeySet {parameter : Option String} {e : Rejection} (hkeys : keysOf parameter = .error e) :
      Performed h before (.keySet parameter) (.error e) before []
  | read {q : Request} {r : Except Rejection Reply} (hq : ¬ Router.IsChange q) :
      Performed h before q r before []

/-- What is done under the lock decides the answer. -/
theorem ends_locked_map {α β : Type} (backed : Backed h store) {a : Action α} {f : α → β}
    {P : Except Rejection α → Store → List (Notice × Bool) → Prop}
    (ha : ∀ s', store s' = store s → Ends h a s' fun r s'' told => P r (store s'') told) :
    Ends h (locked a >>= fun x => pure (f x)) s fun r s' told =>
      ∃ w, r = w.map f ∧ P w (store s') told := by
  refine Ends.bind (Ends.locked backed fun s' hs' => (ha s' hs').imp
    (R := fun r s'' told => ∀ s₁, store s₁ = store s'' → P r (store s₁) told) ?_) ?_ ?_
  · intro r s'' told hp s₁ hs₁
    rwa [hs₁]
  · intro x s' told hp
    exact Ends.pure ⟨.ok x, rfl, by rwa [List.append_nil]⟩
  · intro e s' told hp
    exact ⟨.error e, rfl, hp⟩

/-- Reading a record changes nothing. -/
theorem ends_stored (backed : Backed h store) {α : Type} (key : ImportKey)
    {f : StoredRecord → Action α}
    (hf : ∀ record s', Ends h (f record) s' fun _ s'' told => store s'' = store s' ∧ told = []) :
    Ends h (stored key >>= f) s fun _ s' told => store s' = store s ∧ told = [] := by
  have hstored : Ends h (stored key) s fun _ s' told => store s' = store s ∧ told = [] := by
    refine Ends.storage backed (fun x s₁ _ hs₁ => ?_) fun e s₁ _ hs₁ => ⟨hs₁, rfl⟩
    cases x with
    | none => exact Ends.refuse ⟨hs₁, rfl⟩
    | some record => exact Ends.pure ⟨hs₁, rfl⟩
  refine Ends.bind hstored (fun record s₁ told hp => ?_) fun e s₁ told hp => hp
  obtain ⟨hs₁, rfl⟩ := hp
  exact (hf record s₁).imp fun r s₂ told hp => ⟨hp.1.trans hs₁, hp.2⟩

theorem ends_perform (backed : Backed h store) (q : Request) :
    Ends h (perform q) s fun r s' told => Performed h (store s) q r (store s') told := by
  cases q with
  | upsert parameter type body =>
    show Ends h (upsert parameter type body) s _
    rw [upsert_eq]
    cases htarget : targetOf parameter body with
    | error e => exact Ends.refuse (.badUpsert htarget)
    | ok target =>
      refine (ends_locked_map backed fun s' hs' => hs' ▸ ends_write backed _ _ _ _).imp ?_
      rintro r s' told ⟨w, rfl, hw⟩
      exact .upsert htarget hw
  | remove parameter =>
    show Ends h (remove parameter) s _
    rw [remove_eq]
    cases hkey : keyOf parameter with
    | error e => exact Ends.refuse (.badRemove hkey)
    | ok key =>
      refine (ends_locked_map backed fun s' hs' => hs' ▸ ends_erase backed _).imp ?_
      rintro r s' told ⟨w, rfl, hw⟩
      exact .remove hkey hw
  | keySet parameter =>
    show Ends h (keySet parameter) s _
    rw [keySet_eq]
    cases hkeys : keysOf parameter with
    | error e => exact Ends.refuse (.badKeySet hkeys)
    | ok keys =>
      refine (ends_locked_map backed fun s' hs' => hs' ▸ ends_keep backed _).imp ?_
      rintro r s' told ⟨w, rfl, hw⟩
      exact .keySet hkeys hw
  | list =>
    refine Ends.storage backed (fun _ s₁ _ hs₁ => Ends.pure ?_) fun e s₁ _ hs₁ => ?_
    · exact (show store s₁ = store s from hs₁) ▸ .read id
    · exact hs₁ ▸ .read id
  | fetch parameter =>
    show Ends h (requiredKey parameter >>= _) s _
    rw [requiredKey_eq]
    cases keyOf parameter with
    | error e => exact Ends.refuse (.read id)
    | ok key =>
      refine (ends_stored backed key fun record s' => Ends.pure ⟨rfl, rfl⟩).imp ?_
      rintro r s' told ⟨hs', rfl⟩
      exact hs' ▸ .read id
  | card parameter =>
    show Ends h (requiredKey parameter >>= _) s _
    rw [requiredKey_eq]
    cases keyOf parameter with
    | error e => exact Ends.refuse (.read id)
    | ok key =>
      refine (ends_stored backed key fun record s' => ?_).imp ?_
      · cases record.modelCard with
        | none => exact Ends.refuse ⟨rfl, rfl⟩
        | some text => exact Ends.pure ⟨rfl, rfl⟩
      · rintro r s' told ⟨hs', rfl⟩
        exact hs' ▸ .read id

/-- A write that is older than the record reads it and, when that succeeds, does nothing more. -/
theorem answer_stale {parameter : Option String} (type : Option String) {body : PostBody}
    {key : ImportKey} {marker : Nat} {old : StoredRecord}
    (htarget : targetOf parameter body = .ok (key, marker))
    (holder : marker < old.lastUpdate) :
    ∃ rest, answer (.upsert parameter type body) =
        .call .acquire (fun _ => .call (.storage (.get key)) rest) ∧
      (∀ f, rest (.error f) = .call .release fun _ => .done (.error (.ofFault f))) ∧
      rest (.ok (some old)) = .call .release fun _ => .done (.ok (.written key .ignored)) := by
  obtain ⟨judge, hwrite, hjudge⟩ := exists_write_eq key body marker (.ofParameter type)
  have hupsert : upsert parameter type body =
      locked (storage (.get key) >>= judge) >>= fun outcome => pure (.written key outcome) := by
    rw [upsert_eq, htarget, ← hwrite]
  unfold answer perform
  simp only
  rw [hupsert]
  refine ⟨_, rfl, fun _ => rfl, ?_⟩
  show ((judge (some old)).run >>= _) >>= _ = _
  rw [hjudge old holder]
  rfl

/-- A record that stays has no smaller marker than before. -/
def Advances (before after : Store) : Prop :=
  ∀ key old new, before.get? key = some old → after.get? key = some new →
    old.lastUpdate ≤ new.lastUpdate

theorem Advances.refl (m : Store) : Advances m m := by
  intro key old new hold hnew
  exact Nat.le_of_eq (congrArg _ (Option.some.inj (hold.symm.trans hnew)))

theorem Advances.insert {m : Store} {key : ImportKey} {record : StoredRecord}
    (hrecord : ∀ old, m.get? key = some old → old.lastUpdate ≤ record.lastUpdate) :
    Advances m (m.insert key record) := by
  intro k old new hold hnew
  rw [SortedMap.get?_insert] at hnew
  split at hnew
  next heq =>
    subst heq
    cases hnew
    exact hrecord old hold
  next => exact Advances.refl m _ _ _ hold hnew

theorem Advances.filterKeys (m : Store) (keep : ImportKey → Bool) :
    Advances m (m.filterKeys keep) := by
  intro k old new hold hnew
  rw [SortedMap.get?_filterKeys] at hnew
  split at hnew
  · exact Advances.refl m _ _ _ hold hnew
  · cases hnew

theorem Performed.advances {before after : Store} {q : Request} {r : Except Rejection Reply}
    {told : List (Notice × Bool)} (hp : Performed h before q r after told) :
    Advances before after := by
  cases hp with
  | upsert htarget hw =>
    cases hw with
    | refused hfail => exact .refl _
    | ignored hold holder => exact .refl _
    | created hnew htold => exact .insert fun old hold => nomatch hnew.symm.trans hold
    | updated hold hnotOlder htold =>
      exact .insert fun old hold' => Option.some.inj (hold.symm.trans hold') ▸ hnotOlder
  | remove hkey hw =>
    cases hw with
    | refused hfail => exact .refl _
    | absent habsent => exact .refl _
    | erased hfound => exact .filterKeys _ _
  | keySet hkeys hw =>
    cases hw with
    | all htold => exact .filterKeys _ _
    | part hfail hkeys htold => exact .filterKeys _ _
  | badUpsert _ => exact .refl _
  | badRemove _ => exact .refl _
  | badKeySet _ => exact .refl _
  | read _ => exact .refl _

end Service

/-! ## §2 What is seen of a request -/

namespace Router

variable {σ : Type} {h : Handler Service.interface σ} {store : σ → Store} {s : σ}

/-- What the importer is told in a request. -/
def told (h : Handler Service.interface σ) (r : Incoming) (s : σ) : List (Notice × Bool) :=
  Service.notices ((handle r).trace h s)

/-- A request that asks for nothing changes nothing. -/
theorem next_of_not_asked {r : Incoming} (hq : asked? r = none) :
    next h r s = s ∧ told h r s = [] := by
  obtain ⟨answer, hhandle⟩ := handle_of_not_asked hq
  unfold next told
  rw [hhandle]
  exact ⟨rfl, rfl⟩

/-- The response is made of the answer of the service, and the rest is its doing. -/
theorem performed_of_asked (backed : Backed h store) {r : Incoming} {q : Request}
    (hq : asked? r = some q) :
    ∃ answer, reply h r s = shown r (response answer) ∧
      Service.Performed h (store s) q answer (store (next h r s)) (told h r s) := by
  have hperformed := Service.ends_perform (s := s) backed q
  unfold reply next told
  rw [handle_of_asked hq, Proc.run_bind, Proc.trace_bind, Proc.trace_done, List.append_nil]
  exact ⟨_, rfl, hperformed⟩

section

variable {r : Incoming} {parameter type : Option String} {body : PostBody}

/-- A write whose parameters are in order is carried out, and the response says what became of it.
-/
theorem wrote_of_asked (backed : Backed h store)
    (hq : asked? r = some (.upsert parameter type body)) {key : ImportKey} {marker : Nat}
    (htarget : Service.targetOf parameter body = .ok (key, marker)) (s : σ) :
    ∃ w, reply h r s = response (w.map (.written key)) ∧
      Wrote h key (Service.recordOf body marker (.ofParameter type)) (store s) w
        (store (next h r s)) (told h r s) := by
  obtain ⟨answer, hreply, hp⟩ := performed_of_asked (s := s) backed hq
  rw [shown_of_asked hq trivial] at hreply
  generalize store (next h r s) = after at hp ⊢
  generalize told h r s = told at hp ⊢
  cases hp with
  | upsert htarget' hw =>
    cases htarget.symm.trans htarget'
    exact ⟨_, hreply, hw⟩
  | badUpsert htarget' => cases htarget.symm.trans htarget'
  | read hread => exact absurd trivial hread

/-- A write whose parameters are refused does nothing. -/
theorem refused_of_asked (backed : Backed h store)
    (hq : asked? r = some (.upsert parameter type body)) {e : Rejection}
    (htarget : Service.targetOf parameter body = .error e) (s : σ) :
    reply h r s = response (.error e) ∧ store (next h r s) = store s ∧ told h r s = [] := by
  obtain ⟨answer, hreply, hp⟩ := performed_of_asked (s := s) backed hq
  rw [shown_of_asked hq trivial] at hreply
  generalize store (next h r s) = after at hp ⊢
  generalize told h r s = told at hp ⊢
  cases hp with
  | upsert htarget' hw => cases htarget.symm.trans htarget'
  | badUpsert htarget' =>
    cases htarget.symm.trans htarget'
    exact ⟨hreply, rfl, rfl⟩
  | read hread => exact absurd trivial hread

end

theorem isSuccess_response_ok (x : Reply) :
    Http.Status.isSuccess (response (.ok x)).status = true := by
  cases x with
  | written key outcome => cases outcome <;> rfl
  | pruned _ => rfl
  | keys _ => rfl
  | document _ _ => rfl
  | card _ => rfl
  | removed => rfl

/-- What becomes of a store when a write is taken: under its key are the document, the marker, the
provenance and the model card that were sent, and no other record is touched. -/
structure Taken (parameter type : Option String) (body : PostBody) (key : ImportKey) (marker : Nat)
    (before after : Store) : Prop where
  key_sent : parameter.map Text.trim = some key.text
  marker_sent : if Text.trim body.lastUpdate = "" then marker = 0
    else Natural.read64? (Text.trim body.lastUpdate).toList = some marker
  -- Whether the importer knows the record is not for the write to say.
  record : ∃ imported, after.get? key = some
    { body := body.body
      lastUpdate := marker
      provenance := if type = some "kubeflow" then .registry
        else if type = some "kserve" then .clusterOnly else .unknown
      modelCard := if body.modelCard = "" then none else some body.modelCard
      imported }
  others : ∀ other, other ≠ key → after.get? other = before.get? other

/-- What a request does, as far as its response tells it. -/
structure Handled (h : Handler Service.interface σ) (store : σ → Store) (r : Incoming) (s : σ) :
    Prop where
  -- A record is created when there was none.
  created : ∀ {parameter type body}, asked? r = some (.upsert parameter type body) →
    (reply h r s).status = 201 →
    ∃ key marker, Service.targetOf parameter body = .ok (key, marker) ∧
      reply h r s = response (.ok (.written key .created)) ∧
      (store s).get? key = none ∧
      Taken parameter type body key marker (store s) (store (next h r s))
  -- Otherwise there was a record. Either it was not newer, and then it is replaced; or it was, and
  -- then nothing happens.
  updated : ∀ {parameter type body}, asked? r = some (.upsert parameter type body) →
    (reply h r s).status = 200 →
    ∃ key marker old, Service.targetOf parameter body = .ok (key, marker) ∧
      (store s).get? key = some old ∧
      ((reply h r s = response (.ok (.written key .updated)) ∧ old.lastUpdate ≤ marker ∧
          Taken parameter type body key marker (store s) (store (next h r s))) ∨
        (reply h r s = response (.ok (.written key .ignored)) ∧ marker < old.lastUpdate ∧
          store (next h r s) = store s ∧ told h r s = []))
  -- An older write is ignored, unless its record cannot be read.
  stale : ∀ {parameter type body key marker old}, asked? r = some (.upsert parameter type body) →
    Service.targetOf parameter body = .ok (key, marker) → (store s).get? key = some old →
    marker < old.lastUpdate →
    (reply h r s = response (.ok (.written key .ignored)) ∧ (reply h r s).status = 200 ∧
        store (next h r s) = store s ∧ told h r s = []) ∨
      ∃ f, reply h r s = response (.error (.ofFault f)) ∧
        ⟨.storage (.get key), .error f⟩ ∈ (handle r).trace h s
  -- Only a key set may have removed records when it fails.
  failed : (∀ keys, asked? r ≠ some (.keySet keys)) →
    Http.Status.isSuccess (reply h r s).status = false →
    store (next h r s) = store s ∧ told h r s = []

/-- The record of a write holds what was sent. -/
theorem taken_insert {parameter : Option String} {body : PostBody} {key : ImportKey} {marker : Nat}
    (htarget : Service.targetOf parameter body = .ok (key, marker)) (type : Option String)
    (imported : Bool) (m : Store) :
    Taken parameter type body key marker m
      (m.insert key (Service.recordOf body marker (.ofParameter type) imported)) where
  key_sent := Service.keyOf_eq_ok_iff.mp (Service.targetOf_eq_ok_iff.mp htarget).1
  marker_sent := PostBody.marker_eq_ok_iff.mp (Service.targetOf_eq_ok_iff.mp htarget).2.1
  record := by
    have hprovenance : Provenance.ofParameter type = if type = some "kubeflow" then .registry
        else if type = some "kserve" then .clusterOnly else .unknown := by
      cases type with
      | none => rfl
      | some name => simp only [Option.some.injEq]; rfl
    have hcard : Text.nonEmpty? body.modelCard =
        if body.modelCard = "" then none else some body.modelCard := by
      simp only [Text.nonEmpty?, String.isEmpty_iff]
    refine ⟨imported, ?_⟩
    rw [SortedMap.get?_insert, if_pos rfl, Service.recordOf, hprovenance, hcard]
  others other hother := by rw [SortedMap.get?_insert, if_neg hother]

theorem stale_of_asked (backed : Backed h store) {r : Incoming} {parameter type : Option String}
    {body : PostBody} {key : ImportKey} {marker : Nat} {old : StoredRecord}
    (hq : asked? r = some (.upsert parameter type body))
    (htarget : Service.targetOf parameter body = .ok (key, marker))
    (hold : (store s).get? key = some old) (holder : marker < old.lastUpdate) :
    (reply h r s = response (.ok (.written key .ignored)) ∧ (reply h r s).status = 200 ∧
        store (next h r s) = store s ∧ told h r s = []) ∨
      ∃ f, reply h r s = response (.error (.ofFault f)) ∧
        ⟨.storage (.get key), .error f⟩ ∈ (handle r).trace h s := by
  obtain ⟨rest, hanswer, herror, hok⟩ := Service.answer_stale type htarget holder
  have hhandle : handle r = .call .acquire fun _ => .call (.storage (.get key)) fun x =>
      rest x >>= fun answer => .done (shown r (response answer)) := by
    rw [handle_of_asked hq, hanswer]
    rfl
  have hshown := shown_of_asked hq trivial
  unfold reply next told
  rw [hhandle]
  simp only [Proc.run_call, Proc.trace_call, Proc.run_bind, Proc.trace_bind]
  -- The record is read, or the backend fails and the request with it.
  rcases backed.storage (.get key) (h .acquire s).2 with ⟨hread, hstore⟩ | ⟨⟨f, hread⟩, -⟩
  · left
    have hfound : (Store.perform (.get key) (store (h .acquire s).2)).1 = some old := by
      rw [backed.acquire]
      exact hold
    rw [hread, hfound, hok]
    refine ⟨?_, ?_, ?_, ?_⟩
    · exact hshown _
    · exact congrArg Http.Response.status (hshown _)
    · exact (backed.release _).trans (hstore.trans (backed.acquire s))
    · rfl
  · right
    refine ⟨f, ?_, ?_⟩
    · rw [hread, herror]
      exact hshown _
    · rw [hread]
      exact List.mem_cons_of_mem _ List.mem_cons_self

/-- A successful response is no refusal. -/
theorem status_ne_of_fails {e : Rejection} (he : e.Fails) {n : Nat}
    (hn : Http.Status.isSuccess n = true) : (response (.error e)).status ≠ n := by
  rintro rfl
  exact Bool.false_ne_true (he.symm.trans hn)

theorem created_of_asked (backed : Backed h store) {r : Incoming} {parameter type : Option String}
    {body : PostBody} (hq : asked? r = some (.upsert parameter type body))
    (hstatus : (reply h r s).status = 201) :
    ∃ key marker, Service.targetOf parameter body = .ok (key, marker) ∧
      reply h r s = response (.ok (.written key .created)) ∧
      (store s).get? key = none ∧
      Taken parameter type body key marker (store s) (store (next h r s)) := by
  cases htarget : Service.targetOf parameter body with
  | error e =>
    rw [(refused_of_asked backed hq htarget s).1] at hstatus
    exact absurd hstatus (status_ne_of_fails (Service.fails_of_targetOf htarget) rfl)
  | ok target =>
    obtain ⟨w, hreply, hw⟩ := wrote_of_asked backed hq htarget s
    rw [hreply] at hstatus ⊢
    generalize store (next h r s) = after at hw ⊢
    generalize told h r s = told at hw
    cases hw with
    | refused hfail => exact absurd hstatus (status_ne_of_fails (Rejection.fails_ofFault _) rfl)
    | ignored hold holder => cases hstatus
    | updated hold hnotOlder htold => cases hstatus
    | created hnew htold => exact ⟨_, _, rfl, rfl, hnew, taken_insert htarget ..⟩

theorem updated_of_asked (backed : Backed h store) {r : Incoming} {parameter type : Option String}
    {body : PostBody} (hq : asked? r = some (.upsert parameter type body))
    (hstatus : (reply h r s).status = 200) :
    ∃ key marker old, Service.targetOf parameter body = .ok (key, marker) ∧
      (store s).get? key = some old ∧
      ((reply h r s = response (.ok (.written key .updated)) ∧ old.lastUpdate ≤ marker ∧
          Taken parameter type body key marker (store s) (store (next h r s))) ∨
        (reply h r s = response (.ok (.written key .ignored)) ∧ marker < old.lastUpdate ∧
          store (next h r s) = store s ∧ told h r s = [])) := by
  cases htarget : Service.targetOf parameter body with
  | error e =>
    rw [(refused_of_asked backed hq htarget s).1] at hstatus
    exact absurd hstatus (status_ne_of_fails (Service.fails_of_targetOf htarget) rfl)
  | ok target =>
    obtain ⟨w, hreply, hw⟩ := wrote_of_asked backed hq htarget s
    rw [hreply] at hstatus ⊢
    generalize store (next h r s) = after at hw ⊢
    generalize told h r s = told at hw ⊢
    cases hw with
    | refused hfail => exact absurd hstatus (status_ne_of_fails (Rejection.fails_ofFault _) rfl)
    | created hnew htold => cases hstatus
    | ignored hold holder => exact ⟨_, _, _, rfl, hold, .inr ⟨rfl, holder, rfl, rfl⟩⟩
    | updated hold hnotOlder htold =>
      exact ⟨_, _, _, rfl, hold, .inl ⟨rfl, hnotOlder, taken_insert htarget ..⟩⟩

/-- A failed request other than a key set changes nothing. -/
theorem unchanged_of_failed (backed : Backed h store) {r : Incoming}
    (hother : ∀ keys, asked? r ≠ some (.keySet keys))
    (hstatus : Http.Status.isSuccess (reply h r s).status = false) :
    store (next h r s) = store s ∧ told h r s = [] := by
  cases hq : asked? r with
  | none =>
    obtain ⟨hnext, htold⟩ := next_of_not_asked (h := h) (s := s) hq
    exact ⟨congrArg store hnext, htold⟩
  | some q =>
    obtain ⟨answer, hreply, hp⟩ := performed_of_asked (s := s) backed hq
    rw [hreply, status_shown] at hstatus
    have hrefused : ∀ x, answer ≠ .ok x := by
      rintro x rfl
      exact Bool.false_ne_true (hstatus.symm.trans (isSuccess_response_ok x))
    generalize store (next h r s) = after at hp ⊢
    generalize told h r s = told at hp ⊢
    cases hp with
    | upsert htarget hw =>
      cases hw with
      | refused hfail => exact ⟨rfl, rfl⟩
      | ignored hold holder => exact ⟨rfl, rfl⟩
      | created hnew htold => exact absurd rfl (hrefused _)
      | updated hold hnotOlder htold => exact absurd rfl (hrefused _)
    | remove hkey hw =>
      cases hw with
      | refused hfail => exact ⟨rfl, rfl⟩
      | absent habsent => exact ⟨rfl, rfl⟩
      | erased hfound => exact absurd rfl (hrefused _)
    | keySet hkeys hw => exact absurd hq (hother _)
    | badUpsert _ => exact ⟨rfl, rfl⟩
    | badRemove _ => exact ⟨rfl, rfl⟩
    | badKeySet _ => exact ⟨rfl, rfl⟩
    | read _ => exact ⟨rfl, rfl⟩

theorem handled (backed : Backed h store) (r : Incoming) (s : σ) : Handled h store r s where
  created hq hstatus := created_of_asked backed hq hstatus
  updated hq hstatus := updated_of_asked backed hq hstatus
  stale hq htarget hold holder := stale_of_asked backed hq htarget hold holder
  failed hother hstatus := unchanged_of_failed backed hother hstatus

/-! ## §3 Series of requests -/

theorem advances_next (backed : Backed h store) (r : Incoming) (s : σ) :
    Service.Advances (store s) (store (next h r s)) := by
  cases hq : asked? r with
  | none =>
    rw [(next_of_not_asked hq).1]
    exact .refl _
  | some q =>
    obtain ⟨answer, -, hp⟩ := performed_of_asked (s := s) backed hq
    exact hp.advances

/-- While a key stays stored its marker never goes down. -/
theorem marker_le_of_stays (backed : Backed h store) {key : ImportKey} {old new : StoredRecord}
    {requests : List Incoming}
    (hstays : ∀ part, part <+: requests → (store (after h part s)).contains key = true)
    (hold : (store s).get? key = some old)
    (hnew : (store (after h requests s)).get? key = some new) :
    old.lastUpdate ≤ new.lastUpdate := by
  induction requests generalizing s old with
  | nil => exact Service.Advances.refl _ _ _ _ hold hnew
  | cons r requests ih =>
    have hlater : ∀ part, part <+: requests →
        (store (after h part (next h r s))).contains key = true := by
      intro part hpart
      rw [← after_cons]
      exact hstays (r :: part) (List.cons_prefix_cons.mpr ⟨rfl, hpart⟩)
    -- The record in between is there because the key stays stored.
    have hthere := hlater [] List.nil_prefix
    rw [after_nil] at hthere
    obtain ⟨mid, hmid⟩ := Option.isSome_iff_exists.mp hthere
    rw [after_cons] at hnew
    exact Nat.le_trans (advances_next backed r s _ _ _ hold hmid) (ih hlater hmid hnew)

/-- Over any series of requests, in any surroundings that keep a store, the marker of a record never
goes down while the record is there, and every request is handled as its response says. -/
theorem store_history (backed : Backed h store) (requests : List Incoming) (start : σ) :
    (∀ key old new,
      (∀ part, part <+: requests → (store (after h part start)).contains key = true) →
      (store start).get? key = some old → (store (after h requests start)).get? key = some new →
      old.lastUpdate ≤ new.lastUpdate) ∧
    ∀ part r, part ++ [r] <+: requests → Handled h store r (after h part start) :=
  ⟨fun _ _ _ hstays hold hnew => marker_le_of_stays backed hstays hold hnew,
    fun part r _ => handled backed r (after h part start)⟩

/-! ### Three writes -/

def reportKey : ImportKey := ⟨"team_report", by decide +kernel⟩

def noteKey : ImportKey := ⟨"team_note", by decide +kernel⟩

/-- A store with one record, of marker 7. -/
def stocked : Depot where
  store := .ofList [(reportKey, { body := [0x78], lastUpdate := 7 })]

/-- A write for a key without a record. -/
def newWrite : Incoming where
  method := .post
  target := "/upsert?key=team_note&type=kserve"
  contentType := some "application/json"
  body := Text.Utf8.encode "\x7b\"body\":\"eg==\",\"lastUpdateTimeSinceEpoch\":\"3\"\x7d"

/-- A write with marker 9, a provenance and a model card. -/
def newerWrite : Incoming where
  method := .post
  target := "/upsert?key=team_report&type=kubeflow"
  contentType := some "application/json"
  body := Text.Utf8.encode ("\x7b\"body\":\"eg==\",\"lastUpdateTimeSinceEpoch\":\"9\"," ++
    "\"modelCardKey\":\"team_report\",\"modelCard\":\"# Report\"\x7d")

/-- A write with marker 5. -/
def olderWrite : Incoming where
  method := .post
  target := "/upsert?key=team_report"
  contentType := some "application/json"
  body := Text.Utf8.encode "\x7b\"body\":\"eQ==\",\"lastUpdateTimeSinceEpoch\":\"5\"\x7d"

deriving instance DecidableEq for Request

theorem asked?_newWrite :
    asked? newWrite = some (.upsert (some "team_note") (some "kserve")
      { body := [0x7a], lastUpdate := "3" }) := by
  decide +kernel

theorem asked?_newerWrite :
    asked? newerWrite = some (.upsert (some "team_report") (some "kubeflow")
      { body := [0x7a], lastUpdate := "9", modelCardKey := "team_report",
        modelCard := "# Report" }) := by
  decide +kernel

theorem asked?_olderWrite :
    asked? olderWrite =
      some (.upsert (some "team_report") none { body := [0x79], lastUpdate := "5" }) := by
  decide +kernel

section

variable {d : Depot}

theorem created_newWrite (hd : Handled Depot.handler Depot.store newWrite d)
    (hstatus : (reply Depot.handler newWrite d).status = 201) :
    (∃ imported, (next Depot.handler newWrite d).store.get? noteKey =
      some { body := [0x7a], lastUpdate := 3, provenance := .clusterOnly, imported }) ∧
    (next Depot.handler newWrite d).store.get? reportKey = d.store.get? reportKey := by
  obtain ⟨key, marker, htarget, -, -, htaken⟩ := hd.created asked?_newWrite hstatus
  obtain ⟨rfl, rfl⟩ : noteKey = key ∧ 3 = marker := Prod.mk.inj (Except.ok.inj htarget)
  obtain ⟨imported, hrecord⟩ := htaken.record
  exact ⟨⟨imported, by simpa using hrecord⟩, htaken.others reportKey (by decide)⟩

theorem updated_newerWrite (hd : Handled Depot.handler Depot.store newerWrite d)
    (hstatus : (reply Depot.handler newerWrite d).status = 200) {old : StoredRecord}
    (hold : d.store.get? reportKey = some old) (hnotOlder : old.lastUpdate ≤ 9) :
    reply Depot.handler newerWrite d = response (.ok (.written reportKey .updated)) ∧
    (∃ imported, (next Depot.handler newerWrite d).store.get? reportKey =
      some { body := [0x7a], lastUpdate := 9, provenance := .registry,
             modelCard := some "# Report", imported }) ∧
    (next Depot.handler newerWrite d).store.get? noteKey = d.store.get? noteKey := by
  obtain ⟨key, marker, found, htarget, hfound, houtcome⟩ := hd.updated asked?_newerWrite hstatus
  obtain ⟨rfl, rfl⟩ : reportKey = key ∧ 9 = marker := Prod.mk.inj (Except.ok.inj htarget)
  obtain rfl := Option.some.inj (hold.symm.trans hfound)
  obtain ⟨hreply, -, htaken⟩ := houtcome.resolve_right fun h => Nat.not_lt.mpr hnotOlder h.2.1
  obtain ⟨imported, hrecord⟩ := htaken.record
  exact ⟨hreply, ⟨imported, by simpa using hrecord⟩, htaken.others noteKey (by decide)⟩

theorem ignored_olderWrite (hd : Handled Depot.handler Depot.store olderWrite d)
    {old : StoredRecord} (hold : d.store.get? reportKey = some old) (holder : 5 < old.lastUpdate) :
    reply Depot.handler olderWrite d = response (.ok (.written reportKey .ignored)) ∧
      (next Depot.handler olderWrite d).store = d.store ∧ told Depot.handler olderWrite d = [] := by
  have htarget : Service.targetOf (some "team_report") { body := [0x79], lastUpdate := "5" } =
      .ok (reportKey, 5) := rfl
  rcases hd.stale asked?_olderWrite htarget hold holder with
    ⟨hreply, -, hstore, htold⟩ | ⟨f, -, hmem⟩
  · exact ⟨hreply, hstore, htold⟩
  · obtain ⟨s', hs'⟩ := Proc.exists_answer_of_mem_trace hmem
    exact absurd hs'.symm (Depot.reliable_handler _ _ _)

end

/-- The first write creates a record, the second replaces the one that was there, and the third is
ignored. -/
theorem store_history_threeWrites :
    let first := next Depot.handler newWrite stocked
    let second := next Depot.handler newerWrite first
    let third := next Depot.handler olderWrite second
    (reply Depot.handler newWrite stocked).status = 201 ∧
      (∃ imported, first.store.get? noteKey =
        some { body := [0x7a], lastUpdate := 3, provenance := .clusterOnly, imported }) ∧
      first.store.get? reportKey = some { body := [0x78], lastUpdate := 7 } ∧
      reply Depot.handler newerWrite first = response (.ok (.written reportKey .updated)) ∧
      (∃ imported, second.store.get? reportKey =
        some { body := [0x7a], lastUpdate := 9, provenance := .registry,
               modelCard := some "# Report", imported }) ∧
      second.store.get? noteKey = first.store.get? noteKey ∧
      reply Depot.handler olderWrite second = response (.ok (.written reportKey .ignored)) ∧
      third.store = second.store ∧ told Depot.handler olderWrite second = [] ∧
      ∀ new, third.store.get? reportKey = some new → 7 ≤ new.lastUpdate := by
  dsimp only
  obtain ⟨hmarkers, hhandled⟩ :=
    store_history Depot.backed_handler [newWrite, newerWrite, olderWrite] stocked
  have hfirst := hhandled [] newWrite ⟨_, rfl⟩
  have hsecond := hhandled [newWrite] newerWrite ⟨_, rfl⟩
  have hthird := hhandled [newWrite, newerWrite] olderWrite ⟨_, rfl⟩
  rw [after_nil] at hfirst
  rw [after_cons, after_nil] at hsecond
  rw [after_cons, after_cons, after_nil] at hthird
  rw [after_cons, after_cons, after_cons, after_nil] at hmarkers
  have hold : stocked.store.get? reportKey = some { body := [0x78], lastUpdate := 7 } := by
    decide +kernel
  have hcreated : (reply Depot.handler newWrite stocked).status = 201 := by
    rw [reply_of_asked asked?_newWrite]
    decide +kernel
  obtain ⟨hnote, hreport⟩ := created_newWrite hfirst hcreated
  rw [hold] at hreport
  have hupdated : (reply Depot.handler newerWrite (next Depot.handler newWrite stocked)).status =
      200 := by
    rw [reply_of_asked asked?_newerWrite, next_of_asked asked?_newWrite]
    decide +kernel
  obtain ⟨hreply, ⟨imported, hrecord⟩, hother⟩ :=
    updated_newerWrite hsecond hupdated hreport (by decide)
  obtain ⟨hignored, hsame, htold⟩ := ignored_olderWrite hthird hrecord (show 5 < 9 by decide)
  have hstays : ∀ part, part <+: [newWrite, newerWrite, olderWrite] →
      (after Depot.handler part stocked).store.contains reportKey = true := by
    intro part hpart
    simp only [List.prefix_cons_iff, List.prefix_nil] at hpart
    obtain rfl | ⟨_, rfl, rfl | ⟨_, rfl, rfl | ⟨_, rfl, rfl⟩⟩⟩ := hpart
    all_goals simp only [after_cons, after_nil, SortedMap.contains, hsame, hrecord, hreport, hold,
      Option.isSome_some]
  exact ⟨hcreated, hnote, hreport, hreply, ⟨imported, hrecord⟩, hother, hignored, hsame, htold,
    fun new => hmarkers reportKey _ new hstays hold⟩

end Router

end CatalogSync.Storage
