import CatalogSync.Proofs.Storage.Commutation
import CatalogSync.Proofs.Storage.Delivery
/-!
# Writes that arrive more than once

A publisher that gets no response cannot know whether its request has arrived, and makes it again.
The service carries out a write that is as old as the record, so a write that arrives again replaces
what it wrote by the same; after a newer one it is ignored again. In both cases the record stays as
it is, but for what it says of the importer (`Carries`, `contents_next_of_delivered`). So however
often a write arrives, and whatever is read in between, what is stored is what one delivery leaves
(`leftBy_after`), also when requests and responses are lost on the way (`run_upsert_lossy`).
-/

namespace CatalogSync.Storage

open Proc (Handler attempt)
open Service (Backed Notice Rejection Reliable Request Wrote recordOf targetOf)

/-! ## §1 What a store holds -/

/-- What a record says, but for what the importer has been told. -/
structure Content where
  body : Bytes
  lastUpdate : Nat
  provenance : Provenance
  modelCard : Option String
  deriving DecidableEq

def StoredRecord.content (r : StoredRecord) : Content where
  body := r.body
  lastUpdate := r.lastUpdate
  provenance := r.provenance
  modelCard := r.modelCard

namespace Store

def contents (m : Store) (key : ImportKey) : Option Content := (m.get? key).map StoredRecord.content

/-- A store holds a record with this content, or a newer record. -/
def Carries (m : Store) (key : ImportKey) (content : Content) : Prop :=
  ∃ held, m.contents key = some held ∧ (content.lastUpdate < held.lastUpdate ∨ held = content)

end Store

namespace Service

variable {σ : Type} {h : Handler interface σ} {key : ImportKey} {body : PostBody} {marker : Nat}
  {provenance : Provenance} {before after : Store} {told : List (Notice × Bool)}

/-- The content of the record that a write makes. -/
def contentOf (body : PostBody) (marker : Nat) (provenance : Provenance) : Content :=
  (recordOf body marker provenance false).content

/-- A write that is carried out or ignored is carried by the store from then on. -/
theorem Wrote.carries {outcome : WriteOutcome}
    (hw : Wrote h key (recordOf body marker provenance) before (.ok outcome) after told) :
    after.Carries key (contentOf body marker provenance) := by
  cases hw with
  | @ignored old hold holder => exact ⟨old.content, by rw [Store.contents, hold]; rfl, .inl holder⟩
  | created hnew htold =>
    exact ⟨_, by rw [Store.contents, SortedMap.get?_insert, if_pos rfl]; rfl, .inr rfl⟩
  | updated hold hnotOlder htold =>
    exact ⟨_, by rw [Store.contents, SortedMap.get?_insert, if_pos rfl]; rfl, .inr rfl⟩

/-- A write that the store carries changes no content. -/
theorem Wrote.contents_eq {r : Except Rejection WriteOutcome}
    (hcarries : before.Carries key (contentOf body marker provenance))
    (hw : Wrote h key (recordOf body marker provenance) before r after told) :
    after.contents = before.contents := by
  obtain ⟨held, hheld, hcontent⟩ := hcarries
  cases hw with
  | refused hfail => rfl
  | ignored hold holder => rfl
  | created hnew htold =>
    rw [Store.contents, hnew] at hheld
    cases hheld
  | @updated old imported _ hold hnotOlder htold =>
    -- The record is not newer than the write, so it has the same content.
    have hsame : old.content = contentOf body marker provenance := by
      rw [Store.contents, hold] at hheld
      cases hheld
      exact hcontent.resolve_left (Nat.not_lt.mpr hnotOlder)
    funext k
    unfold Store.contents
    rw [SortedMap.get?_insert]
    split
    next heq =>
      subst heq
      rw [hold, Option.map_some, Option.map_some, hsame]
      rfl
    next => rfl

end Service

/-! ## §2 Deliveries -/

namespace Router

variable {σ : Type} {h : Handler Service.interface σ} {store : σ → Store} {s s' : σ} {r : Incoming}
  {parameter type : Option String} {body : PostBody}

/-- A store carries what a request writes. -/
def Delivered (r : Incoming) (m : Store) : Prop :=
  ∃ parameter type body key marker, asked? r = some (.upsert parameter type body) ∧
    targetOf parameter body = .ok (key, marker) ∧
    m.Carries key (Service.contentOf body marker (.ofParameter type))

/-- Whether a store carries a write depends on the contents alone. -/
theorem Delivered.of_contents {m m' : Store} (hcontents : m'.contents = m.contents)
    (hm : Delivered r m) : Delivered r m' := by
  obtain ⟨parameter, type, body, key, marker, hq, htarget, hcarries⟩ := hm
  refine ⟨parameter, type, body, key, marker, hq, htarget, ?_⟩
  unfold Store.Carries
  rwa [hcontents]

/-- A write is delivered, or else it fails and changes nothing. Where the backend does not fail, it
is then refused for its parameters, and never changes anything. -/
theorem delivery_cases (backed : Backed h store)
    (hq : asked? r = some (.upsert parameter type body)) (s : σ) :
    Delivered r (store (next h r s)) ∨
      Http.Status.isSuccess (reply h r s).status = false ∧ store (next h r s) = store s ∧
        (Reliable h → ∀ s', store (next h r s') = store s') := by
  cases htarget : targetOf parameter body with
  | error e =>
    have hrefused := refused_of_asked backed hq htarget
    refine .inr ⟨?_, (hrefused s).2.1, fun _ s' => (hrefused s').2.1⟩
    rw [(hrefused s).1]
    exact Service.fails_of_targetOf htarget
  | ok target =>
    obtain ⟨w, hreply, hw⟩ := wrote_of_asked backed hq htarget s
    cases w with
    | ok outcome => exact .inl ⟨_, _, _, _, _, hq, htarget, hw.carries⟩
    | error e =>
      rw [hreply]
      generalize store (next h r s) = after at hw ⊢
      generalize told h r s = told at hw
      cases hw with
      | refused hfail =>
        exact .inr ⟨Rejection.fails_ofFault _, rfl, fun reliable => absurd reliable hfail⟩

/-- What has been delivered is delivered again without effect. -/
theorem contents_next_of_delivered (backed : Backed h store) (hdelivered : Delivered r (store s)) :
    (store (next h r s)).contents = (store s).contents := by
  obtain ⟨parameter, type, body, key, marker, hq, htarget, hcarries⟩ := hdelivered
  obtain ⟨w, -, hw⟩ := wrote_of_asked backed hq htarget s
  exact hw.contents_eq hcarries

/-- A request that is no change leaves the store as it is. -/
theorem store_next_of_not_change (backed : Backed h store)
    (hread : ∀ q, asked? r = some q → ¬ IsChange q) : store (next h r s) = store s := by
  cases hq : asked? r with
  | none => exact congrArg store (next_of_not_asked hq).1
  | some q =>
    obtain ⟨answer, -, hp⟩ := performed_of_asked (s := s) backed hq
    generalize store (next h r s) = after at hp ⊢
    generalize told h r s = told at hp
    cases hp with
    | upsert | badUpsert | remove | badRemove | keySet | badKeySet =>
      exact absurd trivial (hread _ hq)
    | read => rfl

/-! ## §3 Series of deliveries -/

/-- A series of requests that has one request again and again, and no change beside it. -/
def Repeats (r : Incoming) (requests : List Incoming) : Prop :=
  ∀ r' ∈ requests, r' = r ∨ ∀ q, asked? r' = some q → ¬ IsChange q

/-- What is stored in the second state is what one delivery of a request to the store of the first
leaves. Where the backend may fail, the delivery is one in some state with that store; where it does
not fail, it is the one in the first state. -/
structure LeftBy (h : Handler Service.interface σ) (store : σ → Store) (r : Incoming) (s s' : σ) :
    Prop where
  once : ∃ s₁, store s₁ = store s ∧ (store s').contents = (store (next h r s₁)).contents
  reliable : Reliable h → (store s').contents = (store (next h r s)).contents

/-- Where a request has no effect, a series that repeats it has none. -/
theorem contents_after (backed : Backed h store) {requests : List Incoming}
    (hrepeats : Repeats r requests)
    (hstill : ∀ s', (store s').contents = (store s).contents →
      (store (next h r s')).contents = (store s').contents) :
    (store (after h requests s)).contents = (store s).contents := by
  induction requests generalizing s with
  | nil => rfl
  | cons r' requests ih =>
    have hnext : (store (next h r' s)).contents = (store s).contents := by
      rcases hrepeats r' List.mem_cons_self with rfl | hread
      · exact hstill s rfl
      · rw [store_next_of_not_change backed hread]
    rw [after_cons, ← hnext]
    refine ih (fun r'' hr'' => hrepeats r'' (List.mem_cons_of_mem _ hr'')) fun s' hs' => ?_
    exact hstill s' (hs'.trans hnext)

theorem contents_after_of_delivered (backed : Backed h store) {requests : List Incoming}
    (hrepeats : Repeats r requests) (hdelivered : Delivered r (store s)) :
    (store (after h requests s)).contents = (store s).contents :=
  contents_after backed hrepeats fun _ hs' =>
    contents_next_of_delivered backed (hdelivered.of_contents hs')

/-- As long as a write is not delivered nothing changes, and what its delivery leaves stays. -/
theorem contents_after_cases (backed : Backed h store)
    (hq : asked? r = some (.upsert parameter type body)) {requests : List Incoming}
    (hrepeats : Repeats r requests) (s : σ) :
    (store (after h requests s)).contents = (store s).contents ∨
      ∃ s₁, store s₁ = store s ∧
        (store (after h requests s)).contents = (store (next h r s₁)).contents := by
  induction requests generalizing s with
  | nil => exact .inl rfl
  | cons r' requests ih =>
    have hrest : Repeats r requests := fun r'' hr'' => hrepeats r'' (List.mem_cons_of_mem _ hr'')
    rw [after_cons]
    -- Unless the first request is delivered, the store is as before.
    have hsame : store (next h r' s) = store s ∨ (r' = r ∧ Delivered r (store (next h r' s))) := by
      rcases hrepeats r' List.mem_cons_self with rfl | hread
      · rcases delivery_cases backed hq s with hdelivered | ⟨-, hsame, -⟩
        · exact .inr ⟨rfl, hdelivered⟩
        · exact .inl hsame
      · exact .inl (store_next_of_not_change backed hread)
    rcases hsame with hsame | ⟨rfl, hdelivered⟩
    · rw [← hsame]
      exact ih hrest _
    · exact .inr ⟨s, rfl, contents_after_of_delivered backed hrest hdelivered⟩

/-- However often a write arrives, what is stored is what one delivery leaves: the first one, when
it succeeds. The write is then carried. -/
theorem leftBy_after (backed : Backed h store)
    (hq : asked? r = some (.upsert parameter type body)) {requests : List Incoming}
    (hrepeats : Repeats r requests) (s : σ) :
    LeftBy h store r s (after h (r :: requests) s) ∧
      (Http.Status.isSuccess (reply h r s).status = true →
        (store (after h (r :: requests) s)).contents = (store (next h r s)).contents ∧
          Delivered r (store (after h (r :: requests) s))) := by
  rw [after_cons]
  rcases delivery_cases backed hq s with hdelivered | ⟨hfails, hsame, hnever⟩
  · have hleft := contents_after_of_delivered backed hrepeats hdelivered
    exact ⟨⟨⟨s, rfl, hleft⟩, fun _ => hleft⟩, fun _ => ⟨hleft, hdelivered.of_contents hleft⟩⟩
  · refine ⟨⟨?_, fun reliable => ?_⟩, fun hsuccess => ?_⟩
    · rcases contents_after_cases backed hq hrepeats (next h r s) with hleft | ⟨s₁, hs₁, hleft⟩
      · exact ⟨s, rfl, hleft⟩
      · exact ⟨s₁, hs₁.trans hsame, hleft⟩
    · refine contents_after backed hrepeats fun s' _ => ?_
      rw [hnever reliable s']
    · exact absurd hsuccess (by rw [hfails]; exact Bool.false_ne_true)

theorem after_replicate_succ (n : Nat) (s : σ) :
    after h (List.replicate (n + 1) r) s = next h r (after h (List.replicate n r) s) := by
  unfold after
  rw [List.replicate_succ', List.foldl_append]
  rfl

end Router

/-! ## §4 Exchanges that fail on the way -/

namespace Exchange

/-- What becomes of an exchange. -/
inductive Fate where
  | answered
  -- The request arrives, and the response is lost.
  | unanswered
  -- The request is lost.
  | lost
  deriving DecidableEq

/-- How many of the first requests arrive. -/
def arrived (fates : Nat → Fate) : Nat → Nat
  | 0 => 0
  | n + 1 => if fates (n + 1) = .lost then arrived fates n else arrived fates n + 1

variable {σ : Type} {h : Handler Service.interface σ}

/-- The service as a publisher reaches it when the fates of the exchanges are laid down; the
exchanges are counted. -/
def lossy (h : Handler Service.interface σ) (base : String) (fates : Nat → Fate) :
    Handler Http.interface (σ × Nat) :=
  fun r (s, n) =>
    match fates (n + 1) with
    | .answered =>
      (some (Router.reply h (incoming base r) s), Router.next h (incoming base r) s, n + 1)
    | .unanswered => (none, Router.next h (incoming base r) s, n + 1)
    | .lost => (none, s, n + 1)

/-- The service handles the requests that arrive, and all exchanges are counted. -/
theorem attempt_lossy {α : Type} (base : String) (fates : Nat → Fate) (r : Http.Request)
    (judge : Option Http.Response → Except Fault α) (s : σ) (n : Nat) :
    (attempt (lossy h base fates) (.call r fun answer => .done (judge answer)) (s, 0) n).2 =
      (Router.after h (List.replicate (arrived fates (n + 1)) (incoming base r)) s, n + 1) := by
  have hstep : ∀ n, (lossy h base fates r
      (Router.after h (List.replicate (arrived fates n) (incoming base r)) s, n)).2 =
        (Router.after h (List.replicate (arrived fates (n + 1)) (incoming base r)) s, n + 1) := by
    intro n
    rw [lossy, arrived]
    cases fates (n + 1) with
    | lost => rfl
    | answered | unanswered =>
      rw [if_neg (by decide), Router.after_replicate_succ]
  induction n with
  | zero => exact hstep 0
  | succ n ih =>
    rw [attempt, ih]
    exact hstep (n + 1)

end Exchange

namespace Client

open Exchange (Fate arrived lossy)
open Router (evenWrite reportKey stocked)

variable {σ : Type} {h : Handler Service.interface σ} {store : σ → Store}

/-- A call over exchanges that may fail has the service handle its request as often as it arrives.
-/
theorem run_reply_lossy (c : Client) (call : Publishing.Call) (h : Handler Service.interface σ)
    (fates : Nat → Fate) (s : σ) :
    ∃ k, 1 ≤ k ∧ k ≤ max 1 c.retry.maxAttempts ∧
      ((c.reply call).proc.run (lossy h c.base fates) (s, 0)).2 =
        (Router.after h
          (List.replicate (arrived fates k) (Exchange.incoming c.base (c.request call))) s, k) := by
  obtain ⟨n, hn, hrun⟩ := Proc.run_retry (lossy h c.base fates) c.retry Fault.retryable
    (.call (c.request call) fun answer => .done (call.concluded answer)) (s, 0)
  have hle : n ≤ max 1 c.retry.maxAttempts - 1 := hn.2 (.inr (by omega))
  refine ⟨n + 1, Nat.succ_pos n, by omega, ?_⟩
  rw [proc_reply, hrun, Exchange.attempt_lossy]

/-- A write over exchanges that may fail leaves what one delivery leaves, unless no request arrives;
then it leaves everything as it is. -/
theorem run_upsert_lossy (backed : Backed h store) (c : Client) (key : ImportKey)
    (provenance : Provenance) (body : PostBody) (fates : Nat → Fate) (s : σ) :
    ∃ k s', 1 ≤ k ∧ k ≤ max 1 c.retry.maxAttempts ∧
      ((c.reply (.upsert key provenance body)).proc.run (lossy h c.base fates) (s, 0)).2 = (s', k) ∧
        (arrived fates k = 0 → s' = s) ∧
        (0 < arrived fates k →
          Router.LeftBy h store (c.upsertIncoming key provenance body) s s') := by
  obtain ⟨k, hpos, hk, hrun⟩ := run_reply_lossy c (.upsert key provenance body) h fates s
  refine ⟨k, _, hpos, hk, hrun, fun hnone => by rw [hnone]; rfl, fun hsome => ?_⟩
  obtain ⟨n, hn⟩ := Nat.exists_eq_add_of_lt hsome
  rw [Nat.zero_add] at hn
  rw [hn, List.replicate_succ]
  have hrepeats : Router.Repeats (c.upsertIncoming key provenance body)
      (List.replicate n (c.upsertIncoming key provenance body)) :=
    fun r hr => .inl (List.eq_of_mem_replicate hr)
  by_cases hfits : body.Fits
  · exact (Router.leftBy_after backed (c.asked?_upsertIncoming key provenance hfits) hrepeats s).1
  · -- The service refuses a document of this size each time.
    obtain ⟨text, hhandle⟩ := c.handle_upsertIncoming key provenance hfits
    have hsame : ∀ s, Router.next h (c.upsertIncoming key provenance body) s = s := fun s => by
      rw [Router.next, hhandle, Proc.run_done]
    have hleft := Router.contents_after (s := s) backed
      (List.forall_mem_cons.mpr ⟨.inl rfl, hrepeats⟩) fun s' _ => by rw [hsame]
    exact ⟨⟨s, rfl, by rw [hsame]; exact hleft⟩, fun _ => by rw [hsame]; exact hleft⟩

/-- Whatever comes of them, attempts end with the first that is final or with the limit, and the
last one decides. So a call of the publisher sends its request until a success or a status that
blames the publisher answers it, or the limit is reached; and however often a write arrives, also
over exchanges that fail on the way, what is stored is what one delivery leaves. -/
theorem retries_bounded_and_harmless (ε α : Type) :
    -- Any operation, by its outcomes.
    (∀ (policy : RetryPolicy) (mendable : ε → Bool) (outcomes : Nat → Except ε α),
      ∃ k, Proc.IsLast policy.maxAttempts (fun k => Proc.Final mendable (outcomes k)) k ∧
        (Proc.retry policy mendable (.ask (I := Proc.trial ε α) ())).run
          (Proc.laidDown outcomes) 0 = (outcomes k, k)) ∧
    -- The calls of the publisher, by the answers to its requests.
    (∀ (c : Client) (call : Publishing.Call) (answers : Nat → Option Http.Response),
      ∃ k ≤ max 1 c.retry.maxAttempts,
        Proc.IsLast c.retry.maxAttempts
          (fun k => ∃ answer, answers k = some answer ∧ Settles answer) k ∧
        (c.reply call).proc.run (answering answers) [] =
          (call.concluded (answers k), List.replicate k (c.request call))) ∧
    ∀ {σ : Type} (h : Handler Service.interface σ) (store : σ → Store), Backed h store →
      -- A write that arrives again and again, with reads in between.
      (∀ (r : Router.Incoming) (parameter type : Option String) (body : PostBody)
          (requests : List Router.Incoming) (s : σ),
        Router.asked? r = some (.upsert parameter type body) → Router.Repeats r requests →
          Router.LeftBy h store r s (Router.after h (r :: requests) s) ∧
            (Http.Status.isSuccess (Router.reply h r s).status = true →
              (store (Router.after h (r :: requests) s)).contents =
                  (store (Router.next h r s)).contents ∧
                Router.Delivered r (store (Router.after h (r :: requests) s)))) ∧
      -- A write of which requests and responses are lost.
      ∀ (c : Client) (key : ImportKey) (provenance : Provenance) (body : PostBody)
          (fates : Nat → Fate) (s : σ),
        ∃ k s', 1 ≤ k ∧ k ≤ max 1 c.retry.maxAttempts ∧
          ((c.reply (.upsert key provenance body)).proc.run (lossy h c.base fates) (s, 0)).2 =
              (s', k) ∧
            (arrived fates k = 0 → s' = s) ∧
            (0 < arrived fates k →
              Router.LeftBy h store (c.upsertIncoming key provenance body) s s') := by
  refine ⟨Proc.retry_laidDown, fun c call answers => ?_, fun h store backed => ⟨?_, ?_⟩⟩
  · obtain ⟨k, hk, hrun⟩ := run_reply_answering c call answers
    exact ⟨k, hk.le, hk, hrun⟩
  · intro r parameter type body requests s hq hrepeats
    exact Router.leftBy_after backed hq hrepeats s
  · exact run_upsert_lossy backed

/-- The response to the first request for a write is lost. -/
def firstUnanswered : Nat → Fate := fun k => if k = 1 then .unanswered else .answered

/-- A write that arrives three times, and one that is made again because its first response is lost.
-/
theorem retries_bounded_and_harmless_evenWrite :
    (Router.after Depot.handler [evenWrite, evenWrite, evenWrite] stocked).store.contents reportKey =
        some ⟨[0x7a], 7, .unknown, none⟩ ∧
      Router.Delivered evenWrite
        (Router.after Depot.handler [evenWrite, evenWrite, evenWrite] stocked).store ∧
      ∃ k s', k ≤ 3 ∧
        ((reply ⟨"http://storage", .standard⟩ (.upsert reportKey .clusterOnly
            { body := [0x7a], lastUpdate := "7" })).proc.run
          (lossy Depot.handler "http://storage" firstUnanswered) (stocked, 0)).2 = (s', k) ∧
        s'.store.contents reportKey = some ⟨[0x7a], 7, .clusterOnly, none⟩ := by
  obtain ⟨-, -, hdelivered⟩ := retries_bounded_and_harmless Unit Unit
  obtain ⟨hagain, hlossy⟩ := hdelivered Depot.handler Depot.store Depot.backed_handler
  have hasked : Router.asked? evenWrite =
      some (.upsert (some "team_report") none { body := [0x7a], lastUpdate := "7" }) := by
    decide +kernel
  have hrepeats : Router.Repeats evenWrite [evenWrite, evenWrite] :=
    fun r hr => .inl (by simpa using hr)
  have hsuccess : Http.Status.isSuccess (Router.reply Depot.handler evenWrite stocked).status =
      true := by
    decide +kernel
  obtain ⟨hleft, hcarried⟩ := (hagain _ _ _ _ _ stocked hasked hrepeats).2 hsuccess
  refine ⟨?_, hcarried, ?_⟩
  · rw [hleft]
    decide +kernel
  · obtain ⟨k, s', hpos, hk, hrun, -, hleft⟩ := hlossy ⟨"http://storage", .standard⟩ reportKey
      .clusterOnly { body := [0x7a], lastUpdate := "7" } firstUnanswered stocked
    have harrived : 0 < arrived firstUnanswered k := by
      obtain rfl | rfl | rfl : k = 1 ∨ k = 2 ∨ k = 3 := by
        change k ≤ 3 at hk
        omega
      all_goals decide
    refine ⟨k, s', hk, hrun, ?_⟩
    rw [(hleft harrived).reliable Depot.reliable_handler]
    decide +kernel

end Client

end CatalogSync.Storage
