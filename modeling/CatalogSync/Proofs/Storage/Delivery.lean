import CatalogSync.Proofs.Http.Target
import CatalogSync.Proofs.Storage.Exchanges
import CatalogSync.Proofs.Storage.History
import CatalogSync.Proofs.Storage.Wire
import CatalogSync.Storage.Exchange
/-!
# Writes on their way to the storage service

A publisher and the service exchange requests and responses, and nothing fails on the way. What
arrives is what was sent: the service reads the key, the provenance and the document of a write, and
the keys of a key set, from the request that the publisher makes of them. What the service answers
settles a call, so that no other attempt follows. So a call of the publisher does to the service
what the request does (`Client.service_upsert_fits`, `Client.service_keySet`), unless a document is
longer than the service reads; then the write is refused, and nothing changes
(`Client.service_upsert_long`).
-/

namespace CatalogSync

open Proc (Handler)

namespace Storage

/-! ## §1 What is asked of the service -/

namespace PostBody

/-- Whether the service reads a document of this size. -/
def Fits (body : PostBody) : Prop :=
  (Text.Utf8.encode body.toJson.compact).length ≤ Router.bodyLimit

/-- A document that is read has a model card that is no longer. -/
theorem Fits.length_modelCard_le {body : PostBody} (hfits : body.Fits) :
    body.modelCard.toList.length ≤ Router.bodyLimit := by
  refine Nat.le_trans (Json.length_quote_le _) ?_
  refine Nat.le_trans ?_ (Nat.le_trans (Json.length_encode_le _) hfits)
  -- The model card is the last member.
  simp only [toJson, Json.compact, String.toList_ofList, Json.printValue, Json.printMembers,
    List.length_cons, List.length_append]
  omega

end PostBody

namespace Client

open Router (Endpoint asked? asked?_eq askedAt?)

variable (c : Client)

/-- A request without a document as it comes in at the service. -/
theorem target_incoming {r : Http.Request} {path : String} (hurl : r.url = c.base ++ path)
    (hquery : r.query ≠ []) :
    (Exchange.incoming c.base r).target = path ++ "?" ++ Text.Form.encode r.query := by
  have hpath : String.ofList (r.url.toList.drop c.base.toList.length) = path := by
    rw [hurl, String.toList_append, List.drop_left, String.ofList_toList]
  have hfalse : r.query.isEmpty = false := by simpa using hquery
  show Exchange.target c.base r = _
  unfold Exchange.target
  simp only [hpath, hfalse]
  rfl

/-- A write as it comes in. -/
def upsertIncoming (key : ImportKey) (provenance : Provenance) (body : PostBody) :
    Router.Incoming := Exchange.incoming c.base (c.upsertRequest key provenance body)

def keySetIncoming (keys : List ImportKey) : Router.Incoming :=
  Exchange.incoming c.base (c.keySetRequest keys)

theorem split_incoming {r : Http.Request} {path : String} {rest : List Char}
    (hslash : path.toList = '/' :: rest) (hplain : '#' ∉ path.toList ∧ '?' ∉ path.toList)
    (hurl : r.url = c.base ++ path) (hquery : r.query ≠ []) :
    Http.Target.split (Exchange.incoming c.base r).target =
      ⟨path, Text.Form.encode r.query⟩ := by
  rw [target_incoming c hurl hquery, Http.Target.split_query hslash hplain.1 hplain.2]

theorem split_upsertIncoming (key : ImportKey) (provenance : Provenance) (body : PostBody) :
    Http.Target.split (c.upsertIncoming key provenance body).target =
      ⟨upsertPath, Text.Form.encode
        [(keyParameter, key.text), (typeParameter, provenance.name)]⟩ :=
  c.split_incoming (by rfl) (by decide) rfl (List.cons_ne_nil _ _)

theorem split_keySetIncoming (keys : List ImportKey) :
    Http.Target.split (c.keySetIncoming keys).target =
      ⟨keySetPath, Text.Form.encode [(keyParameter, KeySet.join keys)]⟩ :=
  c.split_incoming (by rfl) (by decide) rfl (List.cons_ne_nil _ _)

theorem parameters_upsert (key : ImportKey) (provenance : Provenance) :
    Router.parameters (Text.Form.encode
        [(keyParameter, key.text), (typeParameter, provenance.name)]) =
      .ok ⟨some key.text, some provenance.name⟩ := by
  unfold Router.parameters
  rw [Text.Form.decode_encode]
  rfl

theorem parameters_keySet (keys : String) :
    Router.parameters (Text.Form.encode [(keyParameter, keys)]) = .ok ⟨some keys, none⟩ := by
  unfold Router.parameters
  rw [Text.Form.decode_encode]
  rfl

/-- The document of a write is read as it was sent, unless it is too long. -/
theorem postBody_upsertIncoming (key : ImportKey) (provenance : Provenance) (body : PostBody) :
    (body.Fits → Router.postBody (c.upsertIncoming key provenance body) = .ok body) ∧
      (¬ body.Fits → ∃ text,
        Router.postBody (c.upsertIncoming key provenance body) = .error ⟨413, text⟩) := by
  have hjson : Router.isJson (c.upsertIncoming key provenance body).contentType = true := by
    show Router.isJson (some "application/json") = true
    decide +kernel
  have hbody : (c.upsertIncoming key provenance body).body =
      Text.Utf8.encode body.toJson.compact := by
    simp only [upsertIncoming, Exchange.incoming, upsertRequest, Option.map_some, Option.getD_some]
  unfold Router.postBody
  rw [hjson, hbody, PostBody.ofBytes_toJson]
  constructor
  · intro hfits
    rw [if_neg (by decide), if_neg (Nat.not_lt.mpr hfits)]
    rfl
  · intro hlong
    rw [if_neg (by decide), if_pos (Nat.not_le.mp hlong)]
    exact ⟨_, rfl⟩

theorem request_upsertIncoming (key : ImportKey) (provenance : Provenance) (body : PostBody) :
    Router.request .upsert (Text.Form.encode
        [(keyParameter, key.text), (typeParameter, provenance.name)])
        (c.upsertIncoming key provenance body) =
      (Router.postBody (c.upsertIncoming key provenance body)).map fun body =>
        some (.upsert (some key.text) (some provenance.name) body) := by
  unfold Router.request
  rw [parameters_upsert]
  cases Router.postBody (c.upsertIncoming key provenance body) <;> rfl

/-- A write asks for what was sent. -/
theorem asked?_upsertIncoming (key : ImportKey) (provenance : Provenance) {body : PostBody}
    (hfits : body.Fits) : asked? (c.upsertIncoming key provenance body) =
      some (.upsert (some key.text) (some provenance.name) body) := by
  have hfound : (Endpoint.all.find? fun e => e.path == upsertPath) = some .upsert := by decide
  rw [asked?_eq, split_upsertIncoming, hfound]
  unfold askedAt?
  simp only
  rw [request_upsertIncoming, (c.postBody_upsertIncoming key provenance body).1 hfits]
  rfl

/-- A write that is too long is refused. -/
theorem handle_upsertIncoming (key : ImportKey) (provenance : Provenance) {body : PostBody}
    (hlong : ¬ body.Fits) : ∃ text, Router.handle (c.upsertIncoming key provenance body) =
      .done (Router.response (.error ⟨413, text⟩)) := by
  have hfound : (Endpoint.all.find? fun e => e.path == upsertPath) = some .upsert := by decide
  obtain ⟨text, hbody⟩ := (c.postBody_upsertIncoming key provenance body).2 hlong
  refine ⟨text, ?_⟩
  rw [Router.handle_eq, split_upsertIncoming, hfound]
  unfold Router.handleAt Router.serve
  simp only
  rw [request_upsertIncoming, hbody]
  rfl

end Client

/-- A key is read from its text. -/
theorem Service.keyOf_text (key : ImportKey) : keyOf (some key.text) = .ok key := by
  unfold keyOf
  simp only [Option.bind_some, key.trimmed?_text, ImportKey.read_text]
  rfl

namespace Client

open Router (Endpoint asked? asked?_eq askedAt?)

variable (c : Client)

/-- A key set asks for the keys that were sent. -/
theorem asked?_keySetIncoming (keys : List ImportKey) :
    asked? (c.keySetIncoming keys) = some (.keySet (some (KeySet.join keys))) := by
  have hfound : (Endpoint.all.find? fun e => e.path == keySetPath) = some .keySet := by decide
  rw [asked?_eq, split_keySetIncoming, hfound]
  unfold askedAt? Router.request
  simp only
  rw [parameters_keySet]
  rfl

end Client

/-! ## §2 The service as the publisher reaches it -/

open Service (Backed Reliable Wrote Pruned)

variable {σ : Type} {h : Handler Service.interface σ} {store : σ → Store}

/-- Calls of the publisher that reach the service over exchanges in which nothing fails on the way.
-/
def Client.service (c : Client) (h : Handler Service.interface σ) :
    Handler Publishing.interface σ :=
  fun call => ((c.reply call).proc.through (Exchange.perform c.base)).run h

theorem Client.service_eq (c : Client) (h : Handler Service.interface σ)
    (call : Publishing.Call) (s : σ) :
    c.service h call s =
      (c.reply call).proc.run (fun r => (Exchange.perform c.base r).run h) s :=
  Proc.run_through _ _ _ _

theorem Exchange.run_perform (base : String) (r : Http.Request) (s : σ) :
    (perform base r).run h s =
      (some (Router.reply h (incoming base r) s), Router.next h (incoming base r) s) := by
  unfold perform
  rw [Proc.run_bind]
  rfl

namespace Client

variable {c : Client} {s : σ}

/-- A key set removes, under the lock, what is outside it. -/
theorem handle_keySetIncoming (keys : List ImportKey) :
    Router.handle (c.keySetIncoming keys) =
      (Service.locked (Service.keep (.ofList keys))).run >>= fun w =>
        .done (Router.response (w.map .pruned)) := by
  have hasked := c.asked?_keySetIncoming keys
  have hkeys : Service.keysOf (some (KeySet.join keys)) = .ok keys := by
    show (KeySet.parse (KeySet.join keys)).mapError _ = _
    rw [KeySet.parse_join]
    rfl
  rw [Router.handle_of_asked hasked]
  unfold Service.answer Service.perform
  simp only [Service.keySet_eq, hkeys, Router.shown_of_asked hasked trivial, ExceptT.run_bind]
  rw [Proc.bind_assoc]
  refine congrArg _ (funext fun w => ?_)
  cases w <;> rfl

/-- What a key set does to the store, whatever fails. -/
theorem pruned_keySet (backed : Backed h store) (keys : List ImportKey) (s : σ) :
    ∃ w, w = ((Service.locked (Service.keep (.ofList keys))).run.run h s).1 ∧
      Router.reply h (c.keySetIncoming keys) s = Router.response (w.map .pruned) ∧
      Pruned h (store s) ((store s).keys.filter fun key => !(SortedSet.ofList keys).contains key) w
        (store (Router.next h (c.keySetIncoming keys) s))
        (Router.told h (c.keySetIncoming keys) s) := by
  have hends : Service.Ends h (Service.locked (Service.keep (.ofList keys))) s
      fun w s' told => Pruned h (store s)
        ((store s).keys.filter fun key => !(SortedSet.ofList keys).contains key) w (store s')
        told := by
    refine Service.Ends.locked backed fun s' hs' => (Service.ends_keep backed _).imp ?_
    intro w s'' told hp s₁ hs₁
    rwa [hs₁, ← hs']
  refine ⟨_, rfl, ?_, ?_⟩
  · rw [Router.reply, handle_keySetIncoming, Proc.run_bind]
    rfl
  · rw [Router.next, Router.told, handle_keySetIncoming, Proc.run_bind, Proc.trace_bind,
      Proc.trace_done, List.append_nil]
    exact hends

theorem performed_keySet (backed : Backed h store) (reliable : Reliable h) (keys : List ImportKey) :
    ∃ gone, gone = (store s).keys.filter (fun key => !(SortedSet.ofList keys).contains key) ∧
      Router.reply h (c.keySetIncoming keys) s = Router.response (.ok (.pruned gone)) ∧
      Pruned h (store s) gone (.ok gone) (store (Router.next h (c.keySetIncoming keys) s))
        (Router.told h (c.keySetIncoming keys) s) := by
  obtain ⟨w, -, hreply, hpruned⟩ := pruned_keySet (c := c) backed keys s
  rw [hreply]
  generalize store (Router.next h (c.keySetIncoming keys) s) = after at hpruned ⊢
  generalize Router.told h (c.keySetIncoming keys) s = told at hpruned ⊢
  cases hpruned with
  | all htold => exact ⟨_, rfl, rfl, .all htold⟩
  | part hfail => exact absurd reliable hfail

/-- Submitting keys removes the records of all others, and says so. -/
theorem service_keySet (backed : Backed h store) (reliable : Reliable h)
    (keys : List ImportKey) :
    ∃ gone, gone = (store s).keys.filter (fun key => !(SortedSet.ofList keys).contains key) ∧
      c.service h (.keySet keys) s = (.ok gone, Router.next h (c.keySetIncoming keys) s) ∧
      Pruned h (store s) gone (.ok gone) (store (Router.next h (c.keySetIncoming keys) s))
        (Router.told h (c.keySetIncoming keys) s) := by
  obtain ⟨gone, hgone, hreply, hpruned⟩ := performed_keySet (c := c) (s := s) backed reliable keys
  refine ⟨gone, hgone, ?_, hpruned⟩
  have hsuccess := Router.isSuccess_response_ok (.pruned gone)
  rw [← hreply] at hsuccess
  have hk : (Exchange.perform c.base (c.keySetRequest keys)).run h s =
      (some (Router.reply h (c.keySetIncoming keys) s), Router.next h (c.keySetIncoming keys) s) :=
    Exchange.run_perform _ _ _
  obtain ⟨hstate, hresult⟩ :=
    run_keySet (k := fun r => (Exchange.perform c.base r).run h) hk (.inl hsuccess)
  have hremoved : removedOf (Router.response (.ok (.pruned gone))) = .ok gone := by
    unfold removedOf Http.Response.decode?
    simp only [Router.response, Router.jsonResponse, KeySetResponse.decode_written]
    rfl
  rw [service_eq]
  have hfst := hresult hsuccess
  rw [hreply, hremoved] at hfst
  refine Prod.ext ?_ ?_
  · exact hfst
  · rw [hstate]

variable {key : ImportKey} {provenance : Provenance} {body : PostBody}

/-- A write that is too long changes nothing and fails. -/
theorem service_upsert_long (hlong : ¬ body.Fits) :
    (c.service h (.upsert key provenance body) s).2 = s ∧
      ∀ outcome, (c.service h (.upsert key provenance body) s).1 ≠ .ok outcome := by
  obtain ⟨text, hhandle⟩ := c.handle_upsertIncoming key provenance hlong
  have hk : (Exchange.perform c.base (c.upsertRequest key provenance body)).run h s =
      (some (Router.reply h (c.upsertIncoming key provenance body) s),
        Router.next h (c.upsertIncoming key provenance body) s) := Exchange.run_perform _ _ _
  have hreply : Router.reply h (c.upsertIncoming key provenance body) s =
      Router.response (.error ⟨413, text⟩) := by
    unfold Router.reply
    rw [hhandle, Proc.run_done]
  have hnext : Router.next h (c.upsertIncoming key provenance body) s = s := by
    unfold Router.next
    rw [hhandle, Proc.run_done]
  rw [hreply, hnext] at hk
  obtain ⟨hstate, -, hfails⟩ :=
    run_upsert (k := fun r => (Exchange.perform c.base r).run h) hk (.inr rfl)
  rw [service_eq]
  refine ⟨hstate, fun outcome houtcome => ?_⟩
  cases hfails outcome houtcome

/-- A write that is not too long is compared with the record and carried out, and the service and
the publisher both say what became of it. -/
theorem service_upsert_written (provenance : Provenance) (backed : Backed h store)
    (reliable : Reliable h) (hfits : body.Fits) {marker : Nat}
    (htarget : Service.targetOf (some key.text) body = .ok (key, marker)) :
    ∃ outcome, Wrote h key (Service.recordOf body marker provenance) (store s) (.ok outcome)
        (store (Router.next h (c.upsertIncoming key provenance body) s))
        (Router.told h (c.upsertIncoming key provenance body) s) ∧
      Router.reply h (c.upsertIncoming key provenance body) s =
        Router.response (.ok (.written key outcome)) ∧
      c.service h (.upsert key provenance body) s =
        (.ok outcome, Router.next h (c.upsertIncoming key provenance body) s) := by
  have hasked := c.asked?_upsertIncoming key provenance hfits
  have hprovenance : Provenance.ofParameter (some provenance.name) = provenance :=
    Provenance.ofName_name provenance
  obtain ⟨w, hreply, hw⟩ := Router.wrote_of_asked backed hasked htarget s
  rw [hprovenance] at hw
  obtain ⟨outcome, rfl⟩ := hw.exists_ok reliable
  rw [Except.map] at hreply
  have hsuccess := Router.isSuccess_response_ok (.written key outcome)
  rw [← hreply] at hsuccess
  have hk : (Exchange.perform c.base (c.upsertRequest key provenance body)).run h s =
      (some (Router.reply h (c.upsertIncoming key provenance body) s),
        Router.next h (c.upsertIncoming key provenance body) s) := Exchange.run_perform _ _ _
  obtain ⟨hstate, hresult, -⟩ :=
    run_upsert (k := fun r => (Exchange.perform c.base r).run h) hk (.inl hsuccess)
  have houtcome : outcomeOf (Router.response (.ok (.written key outcome))) = outcome := by
    unfold outcomeOf Http.Response.decode?
    simp only [Router.response, Router.jsonResponse, UpsertResponse.decode_written]
    rfl
  refine ⟨outcome, hw, hreply, ?_⟩
  have hfst := hresult hsuccess
  rw [hreply, houtcome] at hfst
  rw [service_eq]
  refine Prod.ext ?_ ?_
  · exact hfst
  · rw [hstate]

theorem service_upsert_fits (provenance : Provenance) (backed : Backed h store)
    (reliable : Reliable h) (hfits : body.Fits) {marker : Nat}
    (htarget : Service.targetOf (some key.text) body = .ok (key, marker)) :
    (c.service h (.upsert key provenance body) s).2 =
        Router.next h (c.upsertIncoming key provenance body) s ∧
      ∃ outcome, Wrote h key (Service.recordOf body marker provenance) (store s) (.ok outcome)
        (store (Router.next h (c.upsertIncoming key provenance body) s))
        (Router.told h (c.upsertIncoming key provenance body) s) := by
  obtain ⟨outcome, hw, -, hservice⟩ :=
    service_upsert_written (c := c) (s := s) provenance backed reliable hfits htarget
  exact ⟨by rw [hservice], outcome, hw⟩

end Client

end Storage

end CatalogSync
