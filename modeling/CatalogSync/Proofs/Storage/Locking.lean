import CatalogSync.Proofs.Storage.Changes
import CatalogSync.Proofs.Storage.Routing
/-!
# Changes under the lock

A request for a change either ends without any call, or takes the lock, makes all its calls to the
backend and the importer, and gives the lock back as its last call (`Guarded`). While it runs alone
it never puts a record in the place of a newer one (`NotOlder`).
-/

namespace CatalogSync.Storage

namespace Service

open Proc (Handler)

variable {σ α β : Type} {h : Handler interface σ} {store : σ → Store} {s : σ}

/-! ## §1 Calls of the lock -/

def Call.isLock : Call → Bool
  | .acquire => true
  | .release => true
  | _ => false

/-- Surroundings in which nothing happens when the lock is taken or given back. -/
def alone (h : Handler interface σ) : Handler interface σ
  | .acquire, s => ((), s)
  | .release, s => ((), s)
  | .storage c, s => h (.storage c) s
  | .imported key, s => h (.imported key) s
  | .removed key, s => h (.removed key) s

theorem alone_eq {c : Call} (hc : c.isLock = false) (s : σ) : alone h c s = h c s := by
  cases c with
  | acquire => cases hc
  | release => cases hc
  | storage c => rfl
  | imported key => rfl
  | removed key => rfl

theorem Backed.alone (backed : Backed h store) : Backed (alone h) store where
  acquire _ := rfl
  release _ := rfl
  imported := backed.imported
  removed := backed.removed
  storage := backed.storage

/-- The procedure holds the lock: it makes calls other than those of the lock, then gives the lock
back, and then it ends. -/
inductive Held : Proc interface α → Prop where
  | release {a : α} {rest : Unit → Proc interface α} (hrest : ∀ answer, rest answer = .done a) :
      Held (.call .release rest)
  | call {c : Call} {rest : c.Answer → Proc interface α} (hc : c.isLock = false)
      (hrest : ∀ answer, Held (rest answer)) : Held (.call c rest)

theorem Held.resume {c : Call} {rest : c.Answer → Proc interface α} (hc : c.isLock = false)
    (hheld : Held (.call c rest)) (answer : c.Answer) : Held (rest answer) := by
  cases hheld with
  | release _ => cases hc
  | call _ hrest => exact hrest answer

/-- The procedure ends at once, or takes the lock and holds it until it is about to end. -/
inductive Guarded : Proc interface α → Prop where
  | done (a : α) : Guarded (.done a)
  | acquire {rest : Unit → Proc interface α} (hrest : ∀ answer, Held (rest answer)) :
      Guarded (.call .acquire rest)

/-! ## §2 What is called under the lock -/

/-- All calls of an action have a property. -/
def Makes (P : Call → Prop) (a : Action α) : Prop := a.run.Calls P

namespace Makes

variable {P : Call → Prop}

theorem pure (x : α) : Makes P (pure x) := trivial

theorem refuse (r : Rejection) : Makes P (throw r : Action α) := trivial

theorem liftExcept (r : Except Rejection α) : Makes P (accept.liftExcept r) := trivial

theorem bind {a : Action α} {f : α → Action β} (ha : Makes P a) (hf : ∀ x, Makes P (f x)) :
    Makes P (a >>= f) := by
  refine Proc.Calls.bind ha fun r => ?_
  cases r with
  | ok x => exact hf x
  | error e => trivial

theorem storage {c : Backend.Call} (hc : P (.storage c)) : Makes P (Service.storage c) :=
  ⟨hc, fun _ => trivial⟩

theorem tryStorage {c : Backend.Call} (hc : P (.storage c)) : Makes P (Service.tryStorage c) :=
  ⟨hc, fun _ => trivial⟩

theorem tellImported {key : ImportKey} (hc : P (.imported key)) :
    Makes P (Service.tellImported key) := ⟨hc, fun _ => trivial⟩

theorem tellRemoved {key : ImportKey} (hc : P (.removed key)) :
    Makes P (Service.tellRemoved key) := ⟨hc, fun _ => trivial⟩

theorem locked {a : Action α} (hacquire : P .acquire) (ha : Makes P a) (hrelease : P .release) :
    Makes P (Service.locked a) :=
  ⟨hacquire, fun _ => Proc.Calls.bind ha fun _ => ⟨hrelease, fun _ => trivial⟩⟩

theorem prune {keys : List ImportKey}
    (hkeys : ∀ key ∈ keys, P (.storage (.remove key)) ∧ P (.removed key)) :
    Makes P (Service.prune keys) := by
  induction keys with
  | nil => exact .pure _
  | cons key keys ih =>
    obtain ⟨hremove, htell⟩ := hkeys key List.mem_cons_self
    have hrest := ih fun k hk => hkeys k (List.mem_cons_of_mem _ hk)
    refine .bind (.storage hremove) fun found => ?_
    cases found with
    | true => exact .bind (.tellRemoved htell) fun _ => .bind hrest fun _ => .pure _
    | false => exact hrest

/-- Only records outside the key set are removed. -/
theorem keep {keys : SortedSet ImportKey} (hlist : P (.storage .list))
    (hkeys : ∀ key, keys.contains key = false → P (.storage (.remove key)) ∧ P (.removed key)) :
    Makes P (Service.keep keys) := by
  refine .bind (.storage hlist) fun stored => .prune fun key hkey => hkeys key ?_
  simpa using (List.mem_filter.mp hkey).2

theorem announce {key : ImportKey} {record : StoredRecord} (htell : P (.imported key))
    (hput : P (.storage (.put key { record with imported := true }))) :
    Makes P (Service.announce key record) := by
  refine .bind (.tellImported htell) fun took => ?_
  cases took with
  | true => exact .tryStorage hput
  | false => exact .pure ()

/-- A write puts nothing but the record that it makes of its body. -/
theorem write {key : ImportKey} {body : PostBody} {marker : Nat} {provenance : Provenance}
    (hget : P (.storage (.get key))) (htell : P (.imported key))
    (hput : ∀ imported, P (.storage (.put key (recordOf body marker provenance imported)))) :
    Makes P (Service.write key body marker provenance) := by
  have hannounce : ∀ imported, Makes P
      (Service.announce key (recordOf body marker provenance imported)) :=
    fun imported => .announce htell (hput true)
  refine .bind (.storage hget) fun found => ?_
  cases found with
  | none => exact .bind (.storage (hput _)) fun _ => .bind (hannounce _) fun _ => .pure _
  | some old =>
    by_cases holder : marker < old.lastUpdate
    · simp only [if_pos holder]
      exact .pure _
    · simp only [if_neg holder]
      refine .bind (.storage (hput _)) fun _ => ?_
      cases old.imported with
      | true => exact .pure _
      | false => exact .bind (hannounce _) fun _ => .pure _

end Makes

/-- The calls that removing records takes. -/
def Call.IsRemoval : Call → Prop
  | .storage (.remove _) => True
  | .storage .list => True
  | .removed _ => True
  | _ => False

theorem Call.IsRemoval.not_lock {c : Call} (hc : c.IsRemoval) : c.isLock = false := by
  cases c with
  | acquire => cases hc
  | release => cases hc
  | storage c => rfl
  | imported key => cases hc
  | removed key => rfl

theorem makes_erase (key : ImportKey) : Makes Call.IsRemoval (erase key) := by
  refine .bind (.storage trivial) fun found => ?_
  cases found with
  | true => exact .tellRemoved trivial
  | false => exact .refuse _

theorem makes_keep (keys : SortedSet ImportKey) : Makes Call.IsRemoval (keep keys) :=
  .keep trivial fun _ _ => ⟨trivial, trivial⟩

/-! ## §3 Changes are guarded -/

theorem held_bind {p : Proc interface α} (hp : p.Calls fun (c : Call) => c.isLock = false)
    (g : α → β) : Held (p >>= fun x => .call .release fun _ => .done (g x)) := by
  induction p with
  | done x => exact .release fun _ => rfl
  | call c rest ih => exact .call hp.1 fun answer => ih answer (hp.2 answer)

/-- What is done under the lock, and then shown, as one procedure. -/
theorem locked_eq (a : Action α) (f : α → Reply) (g : Except Rejection Reply → β) :
    ((locked a >>= fun x => pure (f x)).run >>= fun r => .done (g r)) =
      .call .acquire fun _ =>
        a.run >>= fun r => .call .release fun _ => .done (g (r.map f)) := by
  rw [ExceptT.run_bind, run_locked, Proc.bind_call, Proc.bind_call]
  refine congrArg _ (funext fun _ => ?_)
  rw [Proc.bind_assoc, Proc.bind_assoc]
  refine congrArg _ (funext fun r => ?_)
  cases r <;> rfl

theorem guarded_locked {a : Action α} (ha : Makes (fun c => c.isLock = false) a) (f : α → Reply)
    (g : Except Rejection Reply → β) :
    Guarded ((locked a >>= fun x => pure (f x)).run >>= fun r => .done (g r)) := by
  rw [locked_eq]
  exact .acquire fun _ => held_bind ha _

theorem guarded_answer {q : Request} (hq : Router.IsChange q)
    (g : Except Rejection Reply → β) : Guarded (answer q >>= fun r => .done (g r)) := by
  unfold answer perform
  cases q with
  | upsert parameter type body =>
    simp only [upsert_eq]
    cases targetOf parameter body with
    | error e => exact .done _
    | ok target => exact guarded_locked (.write rfl rfl fun _ => rfl) _ g
  | remove parameter =>
    simp only [remove_eq]
    cases keyOf parameter with
    | error e => exact .done _
    | ok key =>
      exact guarded_locked ((makes_erase key).imp fun _ => Call.IsRemoval.not_lock) _ g
  | keySet parameter =>
    simp only [keySet_eq]
    cases keysOf parameter with
    | error e => exact .done _
    | ok keys => exact guarded_locked ((makes_keep _).imp fun _ => Call.IsRemoval.not_lock) _ g
  | list => cases hq
  | fetch _ => cases hq
  | card _ => cases hq

/-! ## §4 No record is replaced by an older one -/

/-- A call that puts a record finds no newer one in its place. -/
def NotOlder (store : σ → Store) : Call → σ → Prop
  | .storage (.put key record), s =>
    ∀ old, (store s).get? key = some old → old.lastUpdate ≤ record.lastUpdate
  | _, _ => True

theorem Call.IsRemoval.notOlder {c : Call} (hc : c.IsRemoval) (s : σ) : NotOlder store c s := by
  cases c with
  | storage c =>
    cases c with
    | put key record => cases hc
    | get key => trivial
    | remove key => trivial
    | list => trivial
  | acquire => trivial
  | release => trivial
  | imported key => trivial
  | removed key => trivial

theorem meets_storage (backed : Backed h store) {c : Backend.Call} {f : c.Result → Action β}
    (hc : NotOlder store (.storage c) s)
    (hok : ∀ x s', (Store.perform c (store s)).1 = x → store s' = (Store.perform c (store s)).2 →
      (f x).run.Meets (NotOlder store) h s') :
    (storage c >>= f).run.Meets (NotOlder store) h s := by
  refine .call hc ?_
  rcases backed.storage c s with ⟨hans, hstore⟩ | ⟨⟨e, hans⟩, hstore⟩
  · rw [hans]
    exact hok _ _ rfl hstore
  · rw [hans]
    exact .done _ _

theorem meets_tellImported {key : ImportKey} {f : Bool → Action β}
    (hf : ∀ took, (f took).run.Meets (NotOlder store) h (h (.imported key) s).2) :
    (tellImported key >>= f).run.Meets (NotOlder store) h s := .call trivial (hf _)

theorem meets_announce (backed : Backed h store) {key : ImportKey} {record : StoredRecord}
    {before : Store} (hs : store s = before.insert key record) :
    (announce key record).run.Meets (NotOlder store) h s := by
  refine meets_tellImported fun took => ?_
  cases took with
  | false => exact .done _ _
  | true =>
    refine .call (fun old hold => ?_) (.done _ _)
    -- The record there is the one that has just been stored.
    rw [backed.imported, hs, SortedMap.get?_insert, if_pos rfl] at hold
    cases hold
    exact Nat.le_refl _

theorem meets_bind {P : Call → σ → Prop} {a : Action α} {f : α → Action β}
    (ha : a.run.Meets P h s) (hf : ∀ x s', (f x).run.Meets P h s') :
    (a >>= f).run.Meets P h s := by
  have hrest : ∀ r s', Proc.Meets P h (ExceptT.bindCont f r : Proc interface _) s' := by
    intro r s'
    cases r with
    | ok x => exact hf x s'
    | error e => exact .done _ _
  exact Proc.Meets.bind ha (hrest _ _)

theorem meets_write (backed : Backed h store) (key : ImportKey) (body : PostBody) (marker : Nat)
    (provenance : Provenance) :
    (write key body marker provenance).run.Meets (NotOlder store) h s := by
  refine meets_storage backed trivial fun found s₁ hfound hs₁ => ?_
  change store s₁ = store s at hs₁
  cases found with
  | none =>
    refine meets_storage backed ?_ fun _ s₂ _ hs₂ =>
      meets_bind (meets_announce backed hs₂) fun _ _ => .done _ _
    intro old hold
    rw [hs₁] at hold
    cases hold.symm.trans hfound
  | some old =>
    by_cases holder : marker < old.lastUpdate
    · simp only [if_pos holder]
      exact .done _ _
    · simp only [if_neg holder]
      refine meets_storage backed ?_ fun _ s₂ _ hs₂ => ?_
      · intro old' hold'
        rw [hs₁] at hold'
        obtain rfl : old' = old := Option.some.inj (hold'.symm.trans hfound)
        exact Nat.le_of_not_lt holder
      · cases himported : old.imported with
        | true => exact .done _ _
        | false =>
          rw [himported] at hs₂
          exact meets_bind (meets_announce backed hs₂) fun _ _ => .done _ _

theorem meets_locked {a : Action α} (ha : ∀ s, a.run.Meets (NotOlder store) h s) (f : α → Reply)
    (s : σ) : (locked a >>= fun x => pure (f x)).run.Meets (NotOlder store) h s := by
  refine meets_bind (.call trivial ?_) fun _ _ => .done _ _
  exact Proc.Meets.bind (ha _) (.call trivial (.done _ _))

/-- A change never puts a record in the place of a newer one. -/
theorem meets_answer (backed : Backed h store) {q : Request} (hq : Router.IsChange q) (s : σ) :
    (answer q).Meets (NotOlder store) h s := by
  unfold answer perform
  cases q with
  | upsert parameter type body =>
    simp only [upsert_eq]
    cases targetOf parameter body with
    | error e => exact .done _ _
    | ok target => exact meets_locked (fun _ => meets_write backed _ _ _ _) _ _
  | remove parameter =>
    simp only [remove_eq]
    cases keyOf parameter with
    | error e => exact .done _ _
    | ok key =>
      exact meets_locked
        (fun s => ((makes_erase key).imp fun _ hc s => hc.notOlder s).meets h s) _ _
  | keySet parameter =>
    simp only [keySet_eq]
    cases keysOf parameter with
    | error e => exact .done _ _
    | ok keys =>
      exact meets_locked
        (fun s => ((makes_keep _).imp fun _ hc s => hc.notOlder s).meets h s) _ _
  | list => cases hq
  | fetch _ => cases hq
  | card _ => cases hq

end Service

namespace Router

open Proc (Handler)
open Service (Backed Guarded NotOlder)

variable {σ : Type} {h : Handler Service.interface σ} {store : σ → Store}

/-- The request asks for a change, or for nothing. -/
def Changes (r : Incoming) : Prop := ∀ q, asked? r = some q → IsChange q

theorem guarded_handle {r : Incoming} (hr : Changes r) : Guarded (handle r) := by
  rcases handle_cases r with ⟨answer, hp⟩ | ⟨q, hq, hp⟩
  · rw [hp]
    exact .done answer
  · rw [hp]
    exact Service.guarded_answer (hr q hq) _

theorem meets_handle (backed : Backed h store) {r : Incoming} (hr : Changes r) (s : σ) :
    (handle r).Meets (NotOlder store) h s := by
  rcases handle_cases r with ⟨answer, hp⟩ | ⟨q, hq, hp⟩
  · rw [hp]
    exact .done answer s
  · rw [hp]
    exact (Service.meets_answer backed (hr q hq) s).bind (.done _ _)

end Router

end CatalogSync.Storage
