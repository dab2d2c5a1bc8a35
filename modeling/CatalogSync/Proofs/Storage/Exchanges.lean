import CatalogSync.Proofs.Effect.Retry
import CatalogSync.Proofs.Effect.Trace
import CatalogSync.Storage.Client
/-!
# Exchanges of the publisher

Every call of the publisher is one request, made again as long as no response settles it and the
policy allows another attempt (`Client.proc_reply`). A response settles the call when it is a
success or blames the publisher; a call that is not settled fails as its last exchange does. So the
responses decide how many requests are sent, all of them the same, and what comes of the call
(`Client.run_reply_answering`).
-/

namespace CatalogSync.Storage

open Proc (Handler Final attempt)

/-! ## §1 Requests and responses -/

/-- Whether a response leaves nothing to be attempted again. -/
def Settles (answer : Http.Response) : Prop :=
  Http.Status.isSuccess answer.status = true ∨ Fault.blamesCaller (some answer.status) = true

namespace Client

/-- The request of a write. -/
def upsertRequest (c : Client) (key : ImportKey) (provenance : Provenance) (body : PostBody) :
    Http.Request where
  method := .post
  url := c.base ++ upsertPath
  query := [(keyParameter, key.text), (typeParameter, provenance.name)]
  body := some body.toJson

/-- The request that submits keys. -/
def keySetRequest (c : Client) (keys : List ImportKey) : Http.Request where
  method := .post
  url := c.base ++ keySetPath
  query := [(keyParameter, KeySet.join keys)]

/-- The request of a call. -/
def request (c : Client) : Publishing.Call → Http.Request
  | .upsert key provenance body => c.upsertRequest key provenance body
  | .keySet keys => c.keySetRequest keys
  | .list => { method := .get, url := c.base ++ listPath }

/-- What became of a write, by the response to it. -/
def outcomeOf (answer : Http.Response) : WriteOutcome :=
  match answer.decode? UpsertResponse with
  | some r => r.outcome
  | none => if answer.status = 201 then .created else .updated

/-- Which keys were removed, by the response to a key set. -/
def removedOf (answer : Http.Response) : Except Fault (List ImportKey) :=
  match answer.decode? KeySetResponse with
  | some r => .ok r.removed
  | none => .error (.serialization "key set response")

/-- Which keys are stored, by the response to a listing. -/
def listedOf (answer : Http.Response) : Except Fault (List ImportKey) :=
  match answer.decode? ListResponse with
  | some r => r.keys.mapM ImportKey.read
  | none => .error (.serialization "list response")

theorem final_removedOf (answer : Http.Response) :
    Final Fault.retryable (removedOf answer) := by
  unfold removedOf
  split
  · exact Proc.final_ok
  · exact Proc.final_error_iff.mpr rfl

/-- A text that is no key is no better the next time. -/
theorem final_read (text : String) : Final Fault.retryable (ImportKey.read text) := by
  unfold ImportKey.read
  cases ImportKey.parse text with
  | ok key => exact Proc.final_ok
  | error reason => exact Proc.final_error_iff.mpr rfl

theorem final_mapM_read (texts : List String) :
    Final Fault.retryable (texts.mapM ImportKey.read) := by
  induction texts with
  | nil => exact Proc.final_ok
  | cons text rest ih =>
    rw [List.mapM_cons]
    exact (final_read text).bind fun key => ih.bind fun keys => Proc.final_ok

theorem final_listedOf (answer : Http.Response) : Final Fault.retryable (listedOf answer) := by
  unfold listedOf
  split
  · exact final_mapM_read _
  · exact Proc.final_error_iff.mpr rfl

end Client

namespace Publishing.Call

/-- What a failed call is said to be about. -/
def subject : Call → String
  | .upsert key _ _ => key.text
  | .keySet _ => keySetPath
  | .list => listPath

/-- What is said to have failed when a call brings no response. -/
def purpose : Call → String
  | .upsert _ _ _ => "upsert"
  | .keySet _ => "key set submission"
  | .list => "list"

/-- What a successful response says. -/
def said : (call : Call) → Http.Response → Except Fault call.Result
  | .upsert _ _ _, answer => .ok (Client.outcomeOf answer)
  | .keySet _, answer => Client.removedOf answer
  | .list, answer => Client.listedOf answer

/-- What comes of one exchange about a call. -/
def concluded (call : Call) : Option Http.Response → Except Fault call.Result
  | none => .error (.storage call.subject (call.purpose ++ " failed") none)
  | some answer =>
    if Http.Status.isSuccess answer.status = true then call.said answer
    else .error (.storage call.subject ("storage returned " ++
      Http.Status.describe answer.status ++ ": " ++ Text.trim answer.text) (some answer.status))

/-- A successful response that cannot be understood is not asked for again. -/
theorem final_said (call : Call) (answer : Http.Response) :
    Final Fault.retryable (call.said answer) := by
  cases call with
  | upsert key provenance body => exact Proc.final_ok
  | keySet keys => exact Client.final_removedOf answer
  | list => exact Client.final_listedOf answer

theorem final_concluded_iff {call : Call} {answer? : Option Http.Response} :
    Final Fault.retryable (call.concluded answer?) ↔ ∃ answer, answer? = some answer ∧
      Settles answer := by
  cases answer? with
  | none => simp [concluded, Fault.retryable, Fault.blamesCaller]
  | some answer =>
    by_cases hsuccess : Http.Status.isSuccess answer.status = true
    · rw [concluded, if_pos hsuccess]
      exact iff_of_true (final_said call answer) ⟨answer, rfl, .inl hsuccess⟩
    · rw [concluded, if_neg hsuccess]
      simp [Settles, Fault.retryable, hsuccess]

end Publishing.Call

/-! ## §2 Calls of the publisher -/

namespace Client

open Publishing (Call)

variable {σ : Type} {k : Handler Http.interface σ} {s s' : σ}

theorem upsertOnce_eq (c : Client) (key : ImportKey) (provenance : Provenance) (body : PostBody) :
    c.upsertOnce key provenance body =
      exchange key.text "upsert" (c.upsertRequest key provenance body) >>= fun answer =>
        Task.ofExcept (.ok (outcomeOf answer)) := by
  unfold upsertOnce outcomeOf
  congr 1
  funext answer
  cases answer.decode? UpsertResponse <;> rfl

theorem keySetOnce_eq (c : Client) (keys : List ImportKey) :
    c.keySetOnce keys =
      exchange keySetPath "key set submission" (c.keySetRequest keys) >>= fun answer =>
        Task.ofExcept (removedOf answer) := by
  unfold keySetOnce removedOf
  congr 1
  funext answer
  cases answer.decode? KeySetResponse <;> rfl

theorem listOnce_eq (c : Client) :
    c.listOnce = exchange listPath "list" (c.request .list) >>= fun answer =>
      Task.ofExcept (listedOf answer) := by
  unfold listOnce listedOf
  congr 1
  funext answer
  cases answer.decode? ListResponse <;> rfl

/-- What a call of the publisher does once: it makes its request and ends. -/
theorem proc_exchange (c : Client) (call : Call) :
    (exchange call.subject call.purpose (c.request call) >>= fun answer =>
        Task.ofExcept (call.said answer)).proc =
      .call (c.request call) fun answer => .done (call.concluded answer) := by
  rw [Task.proc_bind]
  show Proc.call _ _ = Proc.call _ _
  congr 1
  funext answer
  cases answer with
  | none => rfl
  | some answer =>
    show Proc.bind (ExceptT.bindCont _ _) _ = .done (call.concluded (some answer))
    by_cases hsuccess : Http.Status.isSuccess answer.status = true
    · simp only [ExceptT.bindCont, Call.concluded, if_pos hsuccess]
      rfl
    · simp only [ExceptT.bindCont, Call.concluded, if_neg hsuccess]
      rfl

/-- A call of the publisher is its request, made again as long as it is not settled. -/
theorem proc_reply (c : Client) (call : Call) :
    (c.reply call).proc = Proc.retry c.retry Fault.retryable
      (.call (c.request call) fun answer => .done (call.concluded answer)) := by
  have honce : c.reply call = (exchange call.subject call.purpose (c.request call) >>= fun answer =>
      Task.ofExcept (call.said answer)).retry c.retry := by
    cases call with
    | upsert key provenance body =>
      show (c.upsertOnce key provenance body).retry c.retry = _
      rw [upsertOnce_eq]
      rfl
    | keySet keys =>
      show (c.keySetOnce keys).retry c.retry = _
      rw [keySetOnce_eq]
      rfl
    | list =>
      show c.listOnce.retry c.retry = _
      rw [listOnce_eq]
      rfl
  rw [honce, ← proc_exchange]
  rfl

/-! ## §3 Calls in surroundings -/

/-- A call is one exchange when its response settles it, as often as it might be attempted. -/
theorem run_reply_settled (c : Client) (call : Call) {answer : Http.Response}
    (hk : k (c.request call) s = (some answer, s')) (hsettles : Settles answer) :
    (c.reply call).proc.run k s = (call.concluded (some answer), s') := by
  have hrun : (Proc.call (c.request call) fun answer => .done (call.concluded answer)).run k s =
      (call.concluded (some answer), s') := by
    rw [Proc.run_call, hk]
    rfl
  rw [proc_reply, ← hrun]
  refine Proc.run_attempts ?_ _
  rw [hrun]
  exact Call.final_concluded_iff.mpr ⟨answer, rfl, hsettles⟩

/-- A write is made once when its response is settled. A successful response says what became of it,
and after any other the write has failed. -/
theorem run_upsert {c : Client} {key : ImportKey} {provenance : Provenance} {body : PostBody}
    {answer : Http.Response}
    (hk : k (c.upsertRequest key provenance body) s = (some answer, s'))
    (hsettles : Settles answer) :
    ((c.reply (.upsert key provenance body)).proc.run k s).2 = s' ∧
      (Http.Status.isSuccess answer.status = true →
        ((c.reply (.upsert key provenance body)).proc.run k s).1 = .ok (outcomeOf answer)) ∧
      ∀ outcome, ((c.reply (.upsert key provenance body)).proc.run k s).1 = .ok outcome →
        Http.Status.isSuccess answer.status = true := by
  rw [run_reply_settled c (.upsert key provenance body) hk hsettles]
  refine ⟨rfl, fun hsuccess => if_pos hsuccess, fun outcome houtcome => ?_⟩
  refine Decidable.by_contra fun hsuccess => ?_
  change Call.concluded (.upsert key provenance body) (some answer) = _ at houtcome
  rw [Call.concluded, if_neg hsuccess] at houtcome
  cases houtcome

/-- Keys are submitted once when the response is settled, and a successful response says which
records were removed. -/
theorem run_keySet {c : Client} {keys : List ImportKey} {answer : Http.Response}
    (hk : k (c.keySetRequest keys) s = (some answer, s')) (hsettles : Settles answer) :
    ((c.reply (.keySet keys)).proc.run k s).2 = s' ∧
      (Http.Status.isSuccess answer.status = true →
        ((c.reply (.keySet keys)).proc.run k s).1 = removedOf answer) := by
  rw [run_reply_settled c (.keySet keys) hk hsettles]
  exact ⟨rfl, fun hsuccess => if_pos hsuccess⟩

/-- A service whose answers are laid down; it keeps the requests in order. Where there is no answer,
the exchange fails on the way. -/
def answering (answers : Nat → Option Http.Response) : Handler Http.interface (List Http.Request) :=
  fun r sent => (answers (sent.length + 1), sent ++ [r])

theorem attempt_answering {α : Type} (answers : Nat → Option Http.Response) (r : Http.Request)
    (judge : Option Http.Response → Except Fault α) (n : Nat) :
    attempt (answering answers) (.call r fun answer => .done (judge answer)) [] n =
      (judge (answers (n + 1)), List.replicate (n + 1) r) := by
  induction n with
  | zero => rfl
  | succ n ih =>
    rw [attempt, ih, Proc.run_call, answering]
    simp only [List.length_replicate, Proc.run_done]
    rw [← List.replicate_succ']

/-- Whatever the service answers, a call sends one and the same request until it is settled or has
been attempted as often as the policy allows, and the last exchange says what comes of it. -/
theorem run_reply_answering (c : Client) (call : Call) (answers : Nat → Option Http.Response) :
    ∃ k, Proc.IsLast c.retry.maxAttempts
        (fun k => ∃ answer, answers k = some answer ∧ Settles answer) k ∧
      (c.reply call).proc.run (answering answers) [] =
        (call.concluded (answers k), List.replicate k (c.request call)) := by
  obtain ⟨n, hn, hrun⟩ := Proc.run_retry (answering answers) c.retry Fault.retryable
    (.call (c.request call) fun answer => .done (call.concluded answer)) []
  simp only [attempt_answering, Call.final_concluded_iff] at hn hrun
  exact ⟨n + 1, Proc.isLast_succ hn, by rw [proc_reply, hrun]⟩

end Client

end CatalogSync.Storage
