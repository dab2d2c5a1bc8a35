import CatalogSync.Proofs.Storage.History
import CatalogSync.Proofs.Storage.Pool
/-!
# Requests at the same time

Any number of requests for changes are handled at the same time, interleaved at their calls.
Whatever the backend and the importer answer, the outcome is that of handling the requests one at a
time in the order in which they took the lock (`serializable`): the surroundings end in the same
state, they have seen the same calls with the same answers, and every response is the same. On the
way only the holder of the lock calls the backend or the importer, so a request acts on what it has
read itself, and no step puts a record in the place of a newer one.
-/

namespace CatalogSync.Storage

open Proc (Handler)
open Service (Advances Backed Notice NotOlder alone notices)

namespace Service

variable {σ : Type} {h : Handler interface σ} {store : σ → Store}

/-- A call that does not put a record in the place of a newer one lets no marker go down. -/
theorem advances_of_notOlder (backed : Backed h store) {c : Call} {s : σ}
    (hc : NotOlder store c s) : Advances (store s) (store (h c s).2) := by
  cases c with
  | acquire => exact backed.acquire s ▸ .refl _
  | release => exact backed.release s ▸ .refl _
  | imported key => exact backed.imported key s ▸ .refl _
  | removed key => exact backed.removed key s ▸ .refl _
  | storage c =>
    rcases backed.storage c s with ⟨-, hstore⟩ | ⟨-, hstore⟩
    · rw [hstore]
      cases c with
      | get key => exact .refl _
      | list => exact .refl _
      | put key record => exact .insert hc
      | remove key => exact .filterKeys _ _
    · rw [hstore]
      exact .refl _

end Service

namespace Router

variable {n : Nat} {σ : Type} {h : Handler Service.interface σ} {requests : Fin n → Incoming}
  {s : σ}

/-- What the importer is told in a series of requests. -/
def toldIn (h : Handler Service.interface σ) : List Incoming → σ → List (Notice × Bool)
  | [], _ => []
  | r :: rest, s => told h r s ++ toldIn h rest (next h r s)

/-- The handling of several requests. -/
def tasks (requests : Fin n → Incoming) (i : Fin n) : Proc Service.interface Http.Response :=
  handle (requests i)

theorem guarded_tasks (hchanges : ∀ i, Changes (requests i)) (i : Fin n) :
    Service.Guarded (tasks requests i) := by
  rw [tasks]
  exact guarded_handle (hchanges i)

theorem meets_tasks (hchanges : ∀ i, Changes (requests i)) {store : σ → Store}
    (backed : Backed h store) (i : Fin n) (s : σ) :
    (tasks requests i).Meets (NotOlder store) (alone h) s := by
  rw [tasks]
  exact meets_handle backed.alone (hchanges i) s

theorem after_tasks (l : List (Fin n)) (s : σ) :
    Pool.after h (l.map (tasks requests)) s = after h (l.map requests) s := by
  induction l generalizing s with
  | nil => rfl
  | cons i l ih =>
    rw [List.map_cons, List.map_cons, Pool.after_cons, after_cons, ih]
    rfl

theorem notices_outsideOf (t : List (Event Service.interface)) :
    notices (Pool.outsideOf t) = notices t := by
  induction t with
  | nil => rfl
  | cons e t ih =>
    obtain ⟨c, answer⟩ := e
    cases c <;> simpa [notices, Pool.outsideOf, Service.Call.isLock] using ih

theorem notices_work (l : List (Fin n)) (s : σ) :
    notices (Pool.work h (l.map (tasks requests)) s) = toldIn h (l.map requests) s := by
  induction l generalizing s with
  | nil => rfl
  | cons i l ih =>
    rw [List.map_cons, List.map_cons, Pool.work, toldIn, Service.notices_append,
      notices_outsideOf, ih]
    rfl

/-- Requests for changes that are handled at the same time. In every pool that they can reach, only
the holder of the lock calls the backend and the importer, their calls so far are the first of those
that the requests make one at a time in the order of the lock, and no step lets the marker of a
record that stays go down. When all requests have been answered, the state of the surroundings, the
calls to the backend and the importer with their answers, what the importer was told and every
response are those of handling the requests one at a time, first those that took the lock, in the
order in which they took it. -/
theorem serializable (hchanges : ∀ i, Changes (requests i)) {p : Pool n Http.Response σ}
    (hreach : Pool.Reaches h (Pool.start (tasks requests) s) p) :
    (∀ i c rest, p.running i = .call c rest → c.isLock = false → p.holder = some i) ∧
    p.log <+: Pool.work (alone h) (p.acquired.map (tasks requests)) s ∧
    (∀ store, Backed h store → ∀ p', Pool.Step h p p' →
      Advances (store p.outside) (store p'.outside)) ∧
    (p.Complete → ∃ order : List (Fin n), order.Nodup ∧ (∀ i, i ∈ order) ∧
      p.acquired <+: order ∧
      p.outside = after (alone h) (order.map requests) s ∧
      p.log = Pool.work (alone h) (order.map (tasks requests)) s ∧
      notices p.log = toldIn (alone h) (order.map requests) s ∧
      ∀ earlier i, earlier ++ [i] <+: order →
        p.running i =
          .done (reply (alone h) (requests i) (after (alone h) (earlier.map requests) s))) := by
  have hguarded := guarded_tasks hchanges
  have inv : Pool.Inv h (fun _ _ => True) (tasks requests) s p :=
    .of_reaches hguarded (fun i s => .of_true _ _ _) hreach
  refine ⟨fun i c rest hi hc => ?_, inv.log_prefix, fun store backed p' hstep => ?_,
    fun hcomplete => ?_⟩
  · exact inv.holder_of_call hguarded hi fun h => by cases h; cases hc
  · have inv : Pool.Inv h (NotOlder store) (tasks requests) s p :=
      .of_reaches hguarded (meets_tasks hchanges backed) hreach
    cases hstep with
    | acquire _ _ => exact .refl _
    | release _ _ => exact .refl _
    | outside hi hc =>
      have hcall := inv.meets_of_call hguarded hi fun h => by cases h; cases hc
      exact Service.advances_of_notOlder backed hcall
  · obtain ⟨order, hnodup, hall, hfront, houtside, hlog, hresponses⟩ :=
      inv.exists_order hcomplete
    refine ⟨order, hnodup, hall, hfront, ?_, hlog, ?_, fun earlier i hearlier => ?_⟩
    · rw [houtside, after_tasks]
    · rw [hlog, notices_work]
    · rw [hresponses earlier i hearlier, after_tasks]
      rfl

/-! ### A write and a removal at the same time -/

def removal : Incoming where
  method := .delete
  target := "/remove?key=team_report"

theorem asked?_removal : asked? removal = some (.remove (some "team_report")) := by decide +kernel

def writeAndRemoval (i : Fin 2) : Incoming := if i = 0 then olderWrite else removal

theorem changes_writeAndRemoval (i : Fin 2) : Changes (writeAndRemoval i) := by
  intro q hq
  unfold writeAndRemoval at hq
  split at hq
  · rw [asked?_olderWrite] at hq
    cases hq
    trivial
  · rw [asked?_removal] at hq
    cases hq
    trivial

theorem serializable_writeAndRemoval :
    ∃ p : Pool 2 Http.Response Depot,
      Pool.Reaches Depot.handler (Pool.start (tasks writeAndRemoval) stocked) p ∧ p.Complete ∧
      ∃ order : List (Fin 2), (∀ i, i ∈ order) ∧ p.acquired <+: order ∧
        p.outside = after (alone Depot.handler) (order.map writeAndRemoval) stocked := by
  obtain ⟨p, hreach, hcomplete⟩ :=
    Pool.exists_complete Depot.handler (guarded_tasks changes_writeAndRemoval) stocked
  obtain ⟨order, -, hall, hfront, houtside, -⟩ :=
    (serializable changes_writeAndRemoval hreach).2.2.2 hcomplete
  exact ⟨p, hreach, hcomplete, order, hall, hfront, houtside⟩

end Router

end CatalogSync.Storage
