import CatalogSync.Proofs.Effect.Trace
import CatalogSync.Storage.Service
/-!
# Calls of the storage service

Surroundings keep a store when every call to the backend is either carried out on it or fails
without an effect, and no other call touches it (`Backed`). Which calls fail is left open, and so is
what the importer says.

`Ends` says of an action how it ends in a state: with which outcome, in which state, and what the
importer was told on the way. There is one rule for each kind of call, and in each the call is
followed by the rest of the action, so that an action is treated from its first call to its last.
-/

namespace CatalogSync.Storage

namespace Service

open Proc (Handler)

variable {σ α β : Type} {h : Handler interface σ} {store : σ → Store}

/-! ## §1 Surroundings that keep a store -/

/-- Every call to the backend is carried out on the store or fails without an effect, and no other
call touches the store. -/
structure Backed (h : Handler interface σ) (store : σ → Store) : Prop where
  acquire : ∀ s, store (h .acquire s).2 = store s
  release : ∀ s, store (h .release s).2 = store s
  imported : ∀ key s, store (h (.imported key) s).2 = store s
  removed : ∀ key s, store (h (.removed key) s).2 = store s
  storage : ∀ c s,
    ((h (.storage c) s).1 = .ok (Store.perform c (store s)).1 ∧
      store (h (.storage c) s).2 = (Store.perform c (store s)).2) ∨
    ((∃ f, (h (.storage c) s).1 = .error f) ∧ store (h (.storage c) s).2 = store s)

/-- No call to the backend fails. -/
def Reliable (h : Handler interface σ) : Prop := ∀ c s f, (h (.storage c) s).1 ≠ .error f

/-- No call to the backend has failed. -/
def Faultless (t : List (Event interface)) : Prop := ∀ c f, ⟨.storage c, .error f⟩ ∉ t

theorem faultless_nil : Faultless [] := fun _ _ => List.not_mem_nil

theorem faultless_append {t t' : List (Event interface)} :
    Faultless (t ++ t') ↔ Faultless t ∧ Faultless t' := by
  simp only [Faultless, List.mem_append, not_or, forall_and]

/-- The importer takes every notice of a record that is there. -/
def Heard (h : Handler interface σ) : Prop :=
  ∀ key s, Except.toBool (h (.imported key) s).1 = true

/-- What the importer is told. -/
inductive Notice where
  | imported (key : ImportKey)
  | removed (key : ImportKey)
  deriving DecidableEq

/-- What the importer was told in a run, and whether it took it. -/
def notices (t : List (Event interface)) : List (Notice × Bool) :=
  t.filterMap fun
    | ⟨.imported key, answer⟩ => some (.imported key, Except.toBool answer)
    | ⟨.removed key, answer⟩ => some (.removed key, Except.toBool answer)
    | _ => none

theorem notices_append (t t' : List (Event interface)) :
    notices (t ++ t') = notices t ++ notices t' := List.filterMap_append

/-! ## §2 Rules for actions -/

/-- What a refused action is followed by is left out. -/
theorem run_bind (a : Action α) (f : α → Action β) : (a >>= f).run = a.run >>= fun
    | .ok x => (f x).run
    | .error e => .done (.error e) := by
  show (a.run >>= _) = _
  congr 1
  funext r
  cases r <;> rfl

/-- A failed call to the backend leaves out the rest of an action. -/
theorem run_storage_bind (c : Backend.Call) (f : c.Result → Action α) :
    (storage c >>= f).run = .call (.storage c) fun (r : Except Fault c.Result) =>
      match r with
      | .ok x => (f x).run
      | .error e => .done (.error (.ofFault e)) := by
  show Proc.call _ _ = Proc.call _ _
  congr 1
  funext r
  cases r <;> rfl

theorem run_locked (a : Action α) : (locked a).run =
    .call .acquire fun _ => a.run >>= fun r => .call .release fun _ => .done r := rfl

/-- An action that starts in a state has an outcome, leaves a state and tells the importer such that
a property holds of the three. -/
def Ends (h : Handler interface σ) (a : Action α) (s : σ)
    (Q : Except Rejection α → σ → List (Notice × Bool) → Prop) : Prop :=
  Q (a.run.run h s).1 (a.run.run h s).2 (notices (a.run.trace h s))

namespace Ends

variable {s : σ} {Q : Except Rejection β → σ → List (Notice × Bool) → Prop}

theorem imp {a : Action α} {P R : Except Rejection α → σ → List (Notice × Bool) → Prop}
    (ha : Ends h a s P) (hPR : ∀ r s' told, P r s' told → R r s' told) : Ends h a s R :=
  hPR _ _ _ ha

theorem pure {x : β} (hx : Q (.ok x) s []) : Ends h (pure x) s Q := hx

theorem refuse {r : Rejection} (hr : Q (.error r) s []) : Ends h (throw r) s Q := hr

theorem bind {a : Action α} {f : α → Action β}
    {P : Except Rejection α → σ → List (Notice × Bool) → Prop} (ha : Ends h a s P)
    (hok : ∀ x s' told, P (.ok x) s' told →
      Ends h (f x) s' fun r s'' told' => Q r s'' (told ++ told'))
    (herror : ∀ e s' told, P (.error e) s' told → Q (.error e) s' told) :
    Ends h (a >>= f) s Q := by
  unfold Ends at ha ⊢
  rw [run_bind, Proc.run_bind, Proc.trace_bind, notices_append]
  cases hr : (a.run.run h s).1 with
  | ok x =>
    rw [hr] at ha
    exact hok x _ _ ha
  | error e =>
    rw [hr] at ha
    simpa [notices] using herror e _ _ ha

/-- A call to the backend whose failure refuses the request. -/
theorem storage (backed : Backed h store) {c : Backend.Call} {f : c.Result → Action β}
    (hok : ∀ x s', (Store.perform c (store s)).1 = x → store s' = (Store.perform c (store s)).2 →
      Ends h (f x) s' Q)
    (herror : ∀ e s', ¬ Reliable h → store s' = store s → Q (.error (.ofFault e)) s' []) :
    Ends h (Service.storage c >>= f) s Q := by
  unfold Ends
  rw [run_storage_bind, Proc.run_call, Proc.trace_call]
  rcases backed.storage c s with ⟨hans, hstore⟩ | ⟨⟨e, hans⟩, hstore⟩
  · rw [hans]
    exact hok _ _ rfl hstore
  · rw [hans]
    exact herror e _ (fun hreliable => hreliable c s e hans) hstore

/-- A call to the backend whose failure is not heeded. -/
theorem tryStorage (backed : Backed h store) {c : Backend.Call} {f : Unit → Action β}
    (hok : ∀ s', store s' = (Store.perform c (store s)).2 → Ends h (f ()) s' Q)
    (herror : ∀ s', ¬ Reliable h → store s' = store s → Ends h (f ()) s' Q) :
    Ends h (Service.tryStorage c >>= f) s Q := by
  have hends : Ends h (f ()) (h (.storage c) s).2 Q := by
    rcases backed.storage c s with ⟨-, hstore⟩ | ⟨⟨e, hans⟩, hstore⟩
    · exact hok _ hstore
    · exact herror _ (fun hreliable => hreliable c s e hans) hstore
  exact hends

theorem tellImported (backed : Backed h store) {key : ImportKey} {f : Bool → Action β}
    (hf : ∀ took s', (Heard h → took = true) → store s' = store s →
      Ends h (f took) s' fun r s'' told => Q r s'' ((.imported key, took) :: told)) :
    Ends h (Service.tellImported key >>= f) s Q :=
  hf _ _ (fun hheard => hheard key s) (backed.imported key s)

theorem tellRemoved (backed : Backed h store) {key : ImportKey} {f : Unit → Action β}
    (hf : ∀ took s', store s' = store s →
      Ends h (f ()) s' fun r s'' told => Q r s'' ((.removed key, took) :: told)) :
    Ends h (Service.tellRemoved key >>= f) s Q :=
  hf (Except.toBool (h (.removed key) s).1) _ (backed.removed key s)

/-- Neither taking the lock nor giving it back touches the store. -/
theorem locked (backed : Backed h store) {a : Action β}
    (ha : ∀ s', store s' = store s → Ends h a s' fun r s'' told =>
      ∀ s₁, store s₁ = store s'' → Q r s₁ told) : Ends h (Service.locked a) s Q := by
  have hinner := ha _ (backed.acquire s) _ (backed.release _)
  unfold Ends
  rw [run_locked, Proc.run_call, Proc.trace_call, Proc.run_bind, Proc.trace_bind, Proc.run_call,
    Proc.trace_call, ← List.cons_append, notices_append]
  simpa [notices] using hinner

end Ends

end Service

end CatalogSync.Storage
