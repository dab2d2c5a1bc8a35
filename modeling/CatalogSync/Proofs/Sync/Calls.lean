import CatalogSync.Proofs.Registry.Listing
import CatalogSync.Sync.Bridge
/-!
# What the bridge calls

What is read off the trace of a cycle or a pass: whether a listing has failed (`listingFailed`),
which routes were looked up and with what answer (`lookups`), which key sets were submitted
(`submittedKeys`) and which records were sent (`upserts`). The inquiries at one registry see the
surroundings as that registry (`registryAt`).

Publishing makes *quiet* calls only: it lists nothing, looks up no route and submits no keys, so
whether it succeeds has no influence on what a pass submits. It sends a record exactly when its
sources make an entry (`upserts_publish`).
-/

namespace CatalogSync

open Proc (Handler)

/-- A procedure that is abandoned has made the calls up to that point. -/
theorem Proc.trace_abandon {I : Interface} {α σ : Type} (h : Handler I σ) (instead : α) (n : Nat)
    (p : Proc I α) (s : σ) : (p.abandon instead n).trace h s = (p.trace h s).take n := by
  induction p generalizing n s with
  | done a => cases n <;> rfl
  | call c resume ih =>
    -- After the last call that is made, nothing is left to be listed.
    cases n with
    | zero => rfl
    | succ n =>
      rw [Proc.abandon, trace_call, trace_call, List.take_succ_cons, ih]

namespace Sync

open Registry (Query)

variable {σ : Type} {α : Type}

/-- A procedure that may be cancelled makes the first of its calls. -/
theorem trace_cancellable_front (h : Handler interface σ) (cancel : Cancellation) (instead : α)
    (p : Proc interface α) (s : σ) :
    (cancellable cancel instead p).trace h s <+: p.trace h s := by
  cases cancel with
  | none => exact List.prefix_refl _
  | some n =>
    show (p.abandon instead n).trace h s <+: _
    rw [Proc.trace_abandon]
    exact List.take_prefix n _

/-! ## §1 One registry -/

/-- The surroundings as the registry at an endpoint. -/
def registryAt (h : Handler interface σ) (endpoint : String) : Handler Registry.interface σ :=
  fun q s => h (.registry ⟨endpoint, q⟩) s

/-- A question as the call that puts it to the registry at an endpoint. -/
def addressed (endpoint : String) (e : Event Registry.interface) : Event interface :=
  ⟨.registry ⟨endpoint, e.call⟩, e.answer⟩

theorem run_inquire (h : Handler interface σ) (endpoint : String) (i : Registry.Inquiry α)
    (s : σ) : (inquire endpoint i).proc.run h s = i.proc.run (registryAt h endpoint) s :=
  Proc.run_through _ h i.proc s

theorem trace_inquire (h : Handler interface σ) (endpoint : String) (i : Registry.Inquiry α)
    (s : σ) : (inquire endpoint i).proc.trace h s =
      (i.proc.trace (registryAt h endpoint) s).map (addressed endpoint) := by
  show (i.proc.through _).trace h s = _
  induction i.proc generalizing s with
  | done a => rfl
  | call q resume ih => exact congrArg (_ :: ·) (ih _ _)

/-! ## §2 What is read off a trace -/

/-- Whether a listing that a pass relies on has failed. -/
def listingFailed : Event interface → Bool
  | ⟨.deployments, .error _⟩ => true
  | ⟨.registry a, answer⟩ => a.query.isListing && a.query.fails answer
  | _ => false

def lookups (t : List (Event interface)) : List (RouteHint × Registry.RouteAnswer) :=
  t.filterMap fun
    | ⟨.route hint, answer⟩ => some (hint, answer)
    | _ => none

def submittedKeys (t : List (Event interface)) : List (List ImportKey) :=
  t.filterMap fun
    | ⟨.storage (.keySet keys), _⟩ => some keys
    | _ => none

/-- A record as it is sent to the storage service. -/
structure Upsert where
  key : ImportKey
  provenance : Provenance
  -- The document, its time and the model card.
  body : Storage.PostBody

def upserts (t : List (Event interface)) : List Upsert :=
  t.filterMap fun
    | ⟨.storage (.upsert key provenance body), _⟩ => some ⟨key, provenance, body⟩
    | _ => none

theorem submittedKeys_append (t t' : List (Event interface)) :
    submittedKeys (t ++ t') = submittedKeys t ++ submittedKeys t' := List.filterMap_append

theorem lookups_append (t t' : List (Event interface)) :
    lookups (t ++ t') = lookups t ++ lookups t' := List.filterMap_append

theorem upserts_append (t t' : List (Event interface)) :
    upserts (t ++ t') = upserts t ++ upserts t' := List.filterMap_append

theorem any_listingFailed_addressed (endpoint : String) (t : List (Event Registry.interface)) :
    (t.map (addressed endpoint)).any listingFailed = t.any Registry.listingFailed := by
  rw [List.any_map]
  rfl

theorem submittedKeys_addressed (endpoint : String) (t : List (Event Registry.interface)) :
    submittedKeys (t.map (addressed endpoint)) = [] := by
  rw [submittedKeys, List.filterMap_eq_nil_iff]
  intro e he
  obtain ⟨_, -, rfl⟩ := List.mem_map.mp he
  rfl

/-! ## §3 Quiet calls -/

/-- Whether a call neither lists anything that a pass relies on, nor looks up a route, nor submits
keys. -/
def Call.isQuiet : Call → Bool
  | .deployments => false
  | .route _ => false
  | .registry a => !a.query.isListing
  | .storage (.keySet _) => false
  | _ => true

/-- A procedure that makes quiet calls only. -/
abbrev Quiet (p : Proc interface α) : Prop := p.Calls fun c : Call => c.isQuiet = true

def Call.sendsNothing : Call → Bool
  | .storage (.upsert _ _ _) => false
  | _ => true

abbrev SendsNothing (p : Proc interface α) : Prop :=
  p.Calls fun c : Call => c.sendsNothing = true

def Call.looksUpNothing : Call → Bool
  | .route _ => false
  | _ => true

abbrev LooksUpNothing (p : Proc interface α) : Prop :=
  p.Calls fun c : Call => c.looksUpNothing = true

theorem looksUpNothing_of_quiet {p : Proc interface α} (hp : Quiet p) : LooksUpNothing p := by
  refine hp.imp fun c hquiet => ?_
  cases c with
  | route hint => cases hquiet
  | _ => rfl

theorem listingFailed_of_isQuiet {e : Event interface} (hquiet : e.call.isQuiet = true) :
    listingFailed e = false := by
  obtain ⟨c, answer⟩ := e
  cases c with
  | deployments => cases hquiet
  | registry a =>
    have hlisting : a.query.isListing = false := by simpa [Call.isQuiet] using hquiet
    simp [listingFailed, hlisting]
  | _ => simp [listingFailed]

/-- No listing fails in a run that makes quiet calls only. -/
theorem any_listingFailed_of_quiet {h : Handler interface σ} {p : Proc interface α}
    (hp : Quiet p) (s : σ) : (p.trace h s).any listingFailed = false :=
  hp.any_trace (fun _ hquiet => listingFailed_of_isQuiet hquiet) h s

/-- No keys are submitted in a run that makes quiet calls only. -/
theorem submittedKeys_of_quiet {h : Handler interface σ} {p : Proc interface α}
    (hp : Quiet p) (s : σ) : submittedKeys (p.trace h s) = [] := by
  refine hp.filterMap_trace (fun e hquiet => ?_) h s
  obtain ⟨c, answer⟩ := e
  cases c with
  | storage c =>
    cases c with
    | keySet keys => cases hquiet
    | _ => rfl
  | _ => rfl

/-- What looks up no route has no look-ups in its trace. -/
theorem lookups_of_looksUpNothing {h : Handler interface σ} {p : Proc interface α}
    (hp : LooksUpNothing p) (s : σ) : lookups (p.trace h s) = [] := by
  refine hp.filterMap_trace (fun e hnothing => ?_) h s
  obtain ⟨c, answer⟩ := e
  cases c with
  | route hint => cases hnothing
  | _ => rfl

theorem upserts_eq_nil {t : List (Event interface)}
    (hnothing : ∀ e ∈ t, e.call.sendsNothing = true) : upserts t = [] := by
  refine List.filterMap_eq_nil_iff.mpr fun e he => ?_
  have hcall := hnothing e he
  obtain ⟨c, answer⟩ := e
  cases c with
  | storage c =>
    cases c with
    | upsert key provenance body => cases hcall
    | _ => rfl
  | _ => rfl

theorem upserts_of_sendsNothing {h : Handler interface σ} {p : Proc interface α}
    (hp : SendsNothing p) (s : σ) : upserts (p.trace h s) = [] :=
  upserts_eq_nil fun _ he => hp.of_mem_trace he

/-! ## §4 Publishing -/

/-- Reading how a deployment is reached makes one call at most. -/
theorem calls_details? {P : Call → Prop} (hP : ∀ d, P (.details d)) (d : Deployment) :
    (details? d).Calls P := by
  rw [details?]
  split
  · trivial
  · exact ⟨hP d, fun _ => trivial⟩

theorem quiet_details? (d : Deployment) : Quiet (details? d) := calls_details? (fun _ => rfl) d

theorem sendsNothing_details? (d : Deployment) : SendsNothing (details? d) :=
  calls_details? (fun _ => rfl) d

theorem sendsNothing_inquire (endpoint : String) (i : Registry.Inquiry α) :
    SendsNothing (inquire endpoint i).proc := by
  refine Proc.Calls.through (fun q => ?_) i.proc
  exact ⟨rfl, fun _ => trivial⟩

theorem looksUpNothing_inquire (endpoint : String) (i : Registry.Inquiry α) :
    LooksUpNothing (inquire endpoint i).proc := by
  refine Proc.Calls.through (fun q => ?_) i.proc
  exact ⟨rfl, fun _ => trivial⟩

theorem sendsNothing_correlate (directory : Registry.Directory) (d : Deployment) :
    SendsNothing (correlate directory d) := by
  refine Proc.Calls.through (fun question => ?_) _
  exact ⟨rfl, fun _ => trivial⟩

/-- Asking one question that is no listing, whatever becomes of the answer, is quiet. -/
theorem quiet_inquire_orElse (endpoint : String) {q : Query} (hq : q.isListing = false)
    (fallback : q.Reply) :
    Quiet (inquire endpoint ((Registry.question q).orElse fallback)).proc :=
  ⟨by simp [Call.isQuiet, hq], fun _ => trivial⟩

/-- Reading a model card asks one question at most. -/
theorem calls_cardOf {P : Call → Prop}
    (hP : ∀ endpoint origin, P (.registry ⟨endpoint, .card origin⟩)) (entry : Catalog.Entry)
    (endpoint : Option String) : (cardOf entry endpoint).proc.Calls P := by
  unfold cardOf
  split
  · exact ⟨hP _ _, fun _ => trivial⟩
  · trivial

theorem quiet_publish (style : Style) (sources : Catalog.Sources) (endpoint : Option String) :
    Quiet (publish style sources endpoint).proc := by
  refine Task.calls_bind trivial fun entry => ?_
  refine Task.calls_bind (calls_cardOf (fun _ _ => rfl) entry endpoint) fun card => ?_
  exact Task.calls_bind ⟨rfl, fun _ => trivial⟩ fun _ => trivial

/-- What a registry answers about the model card of an entry: there is none when it fails, when no
registry is asked, and when the entry does not say where its card is. -/
def cardFrom (h : Handler interface σ) (s : σ) (endpoint : Option String) (entry : Catalog.Entry) :
    Option String :=
  entry.cardOrigin.bind fun origin => endpoint.bind fun endpoint =>
    (h (.registry ⟨endpoint, .card origin⟩) s).1.toOption.getD none

/-- The search for a model card brings what the registry answers, and does not fail. -/
theorem run_cardOf (h : Handler interface σ) (entry : Catalog.Entry) (endpoint : Option String)
    (s : σ) : ((cardOf entry endpoint).proc.run h s).1 = .ok (cardFrom h s endpoint entry) := by
  unfold cardOf cardFrom
  cases entry.cardOrigin with
  | none => rfl
  | some origin => cases endpoint <;> rfl

/-- Without a registry there is no model card. -/
theorem cardFrom_none (h : Handler interface σ) (s : σ) (entry : Catalog.Entry) :
    cardFrom h s none entry = none := by
  unfold cardFrom
  cases entry.cardOrigin <;> rfl

/-- What is sent for an entry. -/
def Upsert.ofEntry (style : Style) (entry : Catalog.Entry) (card : Option String) : Upsert :=
  ⟨entry.key, entry.provenance, bodyOf style entry card⟩

/-- Publishing sends one record, with the model card that the registry answers, when the sources make
an entry, and none otherwise. -/
theorem upserts_publish (h : Handler interface σ) (style : Style) (sources : Catalog.Sources)
    (endpoint : Option String) (s : σ) :
    upserts ((publish style sources endpoint).proc.trace h s) =
      match sources.entry with
      | .ok entry => [.ofEntry style entry (cardFrom h s endpoint entry)]
      | .error _ => [] := by
  rw [publish, Task.trace_bind]
  -- Without an entry the task ends before it calls anything.
  cases hentry : sources.entry with
  | error f => rfl
  | ok entry =>
    show upserts ((cardOf entry endpoint >>= _).proc.trace h s) =
      [.ofEntry style entry (cardFrom h s endpoint entry)]
    rw [Task.trace_bind, upserts_append, run_cardOf,
      upserts_of_sendsNothing (calls_cardOf (fun _ _ => rfl) entry endpoint) s, List.nil_append]
    -- What is left is the call that sends the record, and the end of the task.
    show upserts ((storage _ >>= _).proc.trace h _) = _
    rw [Task.trace_bind, upserts_append]
    cases ((storage (.upsert entry.key entry.provenance (bodyOf style entry
      (cardFrom h s endpoint entry)))).proc.run h
      ((cardOf entry endpoint).proc.run h s).2).1 <;> rfl

end Sync

end CatalogSync
