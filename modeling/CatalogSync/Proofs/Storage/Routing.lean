import CatalogSync.Proofs.Effect.Trace
import CatalogSync.Storage.Router
/-!
# What reaches the service

An incoming request either asks the service for something (`Router.asked?`) or is answered without
any call. The response to a request that asks for something is made of the answer of the service
alone; only the body is left out where none is wanted.
-/

namespace CatalogSync.Storage

namespace Router

open Service (Request Reply Rejection)

/-! ## §1 What is asked for -/

/-- What an endpoint is asked for, if it takes the request. -/
def askedAt? (r : Incoming) (query : String) : Option Endpoint → Option Request
  | none => none
  | some e =>
    if e.takes r.method then
      match request e query r with
      | .ok asked => asked
      | .error _ => none
    else none

/-- What an incoming request asks the service for. -/
def asked? (r : Incoming) : Option Request :=
  let target := Http.Target.split r.target
  askedAt? r target.query (Endpoint.all.find? fun e => e.path == target.path)

/-- What is sent of a response. -/
def shown (r : Incoming) (answer : Http.Response) : Http.Response :=
  if r.method = .head then { answer with body := [] } else answer

theorem status_shown (r : Incoming) (answer : Http.Response) :
    (shown r answer).status = answer.status := by
  unfold shown
  split <;> rfl

/-- The response of an endpoint that takes the request. -/
def handleAt (r : Incoming) (query : String) :
    Option Endpoint → Proc Service.interface Http.Response
  | none => .done { status := 404 }
  | some e =>
    if e.takes r.method then serve e query r >>= fun answer => .done (shown r answer)
    else .done { status := 405 }

theorem asked?_eq (r : Incoming) :
    asked? r = askedAt? r (Http.Target.split r.target).query
      (Endpoint.all.find? fun e => e.path == (Http.Target.split r.target).path) := rfl

theorem handle_eq (r : Incoming) :
    handle r = handleAt r (Http.Target.split r.target).query
      (Endpoint.all.find? fun e => e.path == (Http.Target.split r.target).path) := by
  unfold handle
  generalize Http.Target.split r.target = target
  simp only
  generalize (Endpoint.all.find? fun e => e.path == target.path) = found
  cases found <;> rfl

theorem handleAt_of_asked {r : Incoming} {query : String} {found : Option Endpoint} {q : Request}
    (hq : askedAt? r query found = some q) :
    handleAt r query found =
      Service.answer q >>= fun answer => .done (shown r (response answer)) := by
  cases found with
  | none => cases hq
  | some e =>
    simp only [askedAt?] at hq
    simp only [handleAt]
    by_cases htakes : e.takes r.method = true
    · simp only [if_pos htakes] at hq ⊢
      unfold serve
      cases hrequest : request e query r with
      | error _ =>
        rw [hrequest] at hq
        cases hq
      | ok asked =>
        rw [hrequest] at hq
        obtain rfl : asked = some q := hq
        exact Proc.bind_assoc _ _ _
    · rw [if_neg htakes] at hq
      cases hq

theorem handleAt_of_not_asked {r : Incoming} {query : String} {found : Option Endpoint}
    (hq : askedAt? r query found = none) : ∃ answer, handleAt r query found = .done answer := by
  cases found with
  | none => exact ⟨_, rfl⟩
  | some e =>
    simp only [askedAt?] at hq
    simp only [handleAt]
    by_cases htakes : e.takes r.method = true
    · simp only [if_pos htakes] at hq ⊢
      unfold serve
      cases hrequest : request e query r with
      | error _ => exact ⟨_, rfl⟩
      | ok asked =>
        rw [hrequest] at hq
        obtain rfl : asked = none := hq
        exact ⟨_, rfl⟩
    · exact ⟨_, if_neg htakes⟩

theorem handle_of_asked {r : Incoming} {q : Request} (hq : asked? r = some q) :
    handle r = Service.answer q >>= fun answer => .done (shown r (response answer)) := by
  rw [handle_eq]
  rw [asked?_eq] at hq
  exact handleAt_of_asked hq

/-- A request that asks for nothing makes no calls. -/
theorem handle_of_not_asked {r : Incoming} (hq : asked? r = none) :
    ∃ answer, handle r = .done answer := by
  rw [handle_eq]
  rw [asked?_eq] at hq
  exact handleAt_of_not_asked hq

/-- Handling a request either ends without a call, or asks the service. -/
theorem handle_cases (r : Incoming) :
    (∃ answer, handle r = .done answer) ∨ ∃ q, asked? r = some q ∧
      handle r = (Service.answer q >>= fun answer => .done (shown r (response answer))) := by
  cases hq : asked? r with
  | none => exact .inl (handle_of_not_asked hq)
  | some q => exact .inr ⟨q, rfl, handle_of_asked hq⟩

/-- The requests that may change the store. -/
def IsChange : Request → Prop
  | .upsert _ _ _ => True
  | .keySet _ => True
  | .remove _ => True
  | _ => False

/-- An endpoint that is read asks for no change. -/
theorem not_isChange_of_request {e : Endpoint} (hget : e.method = .get) {query : String}
    {r : Incoming} {q : Request} (hq : request e query r = .ok (some q)) : ¬ IsChange q := by
  cases e with
  | list =>
    cases hq
    exact id
  | fetch =>
    simp only [request] at hq
    cases hp : parameters query with
    | error _ =>
      rw [hp] at hq
      cases hq
    | ok p =>
      rw [hp] at hq
      cases hq
      exact id
  | card =>
    simp only [request] at hq
    cases hp : parameters query with
    | error _ =>
      rw [hp] at hq
      cases hq
    | ok p =>
      rw [hp] at hq
      cases hq
      exact id
  | health => cases hq
  | upsert => cases hget
  | keySet => cases hget
  | remove => cases hget

theorem not_head_of_askedAt {r : Incoming} {query : String} {found : Option Endpoint} {q : Request}
    (hq : askedAt? r query found = some q) (hchange : IsChange q) : r.method ≠ .head := by
  intro hhead
  cases found with
  | none => cases hq
  | some e =>
    simp only [askedAt?] at hq
    by_cases htakes : e.takes r.method = true
    · rw [if_pos htakes] at hq
      have hget : e.method = .get := by
        revert htakes
        rw [hhead]
        cases e <;> decide
      cases hrequest : request e query r with
      | error _ =>
        rw [hrequest] at hq
        cases hq
      | ok asked =>
        rw [hrequest] at hq
        obtain rfl : asked = some q := hq
        exact not_isChange_of_request hget hrequest hchange
    · rw [if_neg htakes] at hq
      cases hq

/-- A change is not asked for by a request that wants no body. -/
theorem shown_of_asked {r : Incoming} {q : Request} (hq : asked? r = some q) (hchange : IsChange q)
    (answer : Http.Response) : shown r answer = answer := by
  rw [asked?_eq] at hq
  exact if_neg (not_head_of_askedAt hq hchange)

/-! ## §2 Requests one after another -/

open Proc (Handler)

variable {σ : Type} {h : Handler Service.interface σ}

/-- The response to a request. -/
def reply (h : Handler Service.interface σ) (r : Incoming) (s : σ) : Http.Response :=
  ((handle r).run h s).1

/-- The state after a request. -/
def next (h : Handler Service.interface σ) (r : Incoming) (s : σ) : σ := ((handle r).run h s).2

section

variable {r : Incoming} {q : Request}

/-- The response to a request is made of the answer of the service. -/
theorem reply_of_asked (hq : asked? r = some q) (s : σ) :
    reply h r s = shown r (response ((Service.answer q).run h s).1) := by
  rw [reply, handle_of_asked hq, Proc.run_bind, Proc.run_done]

/-- What a request leaves is what the service leaves. -/
theorem next_of_asked (hq : asked? r = some q) (s : σ) :
    next h r s = ((Service.answer q).run h s).2 := by
  rw [next, handle_of_asked hq, Proc.run_bind, Proc.run_done]

end

/-- The state after a series of requests. -/
def after (h : Handler Service.interface σ) (requests : List Incoming) (s : σ) : σ :=
  requests.foldl (fun s r => next h r s) s

theorem after_nil (s : σ) : after h [] s = s := by
  unfold after
  rw [List.foldl_nil]

theorem after_cons (r : Incoming) (requests : List Incoming) (s : σ) :
    after h (r :: requests) s = after h requests (next h r s) := by
  unfold after
  rw [List.foldl_cons]

end Router

end CatalogSync.Storage
