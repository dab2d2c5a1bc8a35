import CatalogSync.Correlation.Search
import CatalogSync.Proofs.Effect.Trace
import CatalogSync.Proofs.Order.Membership
/-!
# Listings that may fail

The content of a registry is what it answers, as a function of the question (`Replies`). A registry
that is asked may fail at any question; an answer that is no failure shows the content
(`Replies.ShownBy`). Full passes read a registry by its listings: the models, the versions of a
model, the serving records, and the environments that records name. That an environment is unknown
(status 404) is an answer and no failure.

`Reads` states the law of an inquiry that is made of listings: it fails exactly when one of them
does, and otherwise its result is the one that the content gives. `reads_readRecords` is that law
for the serving records with the names of their environments.
-/

namespace CatalogSync.Registry

open Proc (Handler)
open Correlation (Records nameEnvironments environmentNames readRecords)

/-! ## §1 The content of a registry -/

/-- What a registry answers to each question. -/
abbrev Replies := (q : Query) → Except Fault q.Reply

namespace Replies

def models (r : Replies) : List RegisteredModel := (r .models).toOption.getD []

def versions (r : Replies) (modelId : String) : List ModelVersion :=
  (r (.versions modelId)).toOption.getD []

def records (r : Replies) : List ServingRecord := (r .records).toOption.getD []

def environment? (r : Replies) (id : String) : Option Environment :=
  (r (.environment id)).toOption

def environmentName? (r : Replies) (id : String) : Option String :=
  (r.environment? id).map (·.name)

/-- The names of the environments of the serving records. -/
def environments (r : Replies) : SortedMap String String :=
  .ofList (r.records.filterMap fun record =>
    (r.environmentName? record.environmentId).map fun name => (record.environmentId, name))

/-- What is known of the serving records. -/
def evidence (r : Replies) : Records := ⟨r.records, r.environments⟩

/-- A model in use with one of its versions in use. -/
structure Live (r : Replies) (model : RegisteredModel) (version : ModelVersion) : Prop where
  model_mem : model ∈ r.models
  model_live : model.isArchived = false
  version_mem : version ∈ r.versions model.id
  version_live : version.isArchived = false

theorem get?_environments (r : Replies) (id : String) :
    r.environments.get? id =
      if id ∈ r.records.map (·.environmentId) then r.environmentName? id else none :=
  SortedMap.get?_ofList_filterMap ServingRecord.environmentId r.environmentName? r.records id

end Replies

/-! ## §2 Listings -/

/-- Whether a question is one of those by which a full pass reads a registry. -/
def Query.isListing : Query → Bool
  | .models | .versions _ | .records | .environment _ => true
  | _ => false

/-- Whether an answer is a failure. That an environment is unknown is none. -/
def Query.fails (q : Query) (answer : Except Fault q.Reply) : Bool :=
  match q, answer with
  | _, .ok _ => false
  | .environment _, .error f => f.status != some 404
  | _, .error _ => true

/-- Whether a listing has failed. -/
def listingFailed (e : Event interface) : Bool := e.call.isListing && e.call.fails e.answer

variable {σ : Type}

/-- Listings that do not fail show the content. -/
def Replies.ShownBy (r : Replies) (k : Handler interface σ) : Prop :=
  ∀ q s, q.isListing = true → q.fails (k q s).1 = false →
    (k q s).1.toOption = (r q).toOption

/-- An inquiry fails exactly when one of its listings does; otherwise its result has a property. -/
structure Reads {α : Type} (k : Handler interface σ) (i : Inquiry α) (s : σ) (P : α → Prop) :
    Prop where
  -- No listing has failed.
  ok : (i.proc.trace k s).any listingFailed = false → ∃ a, (i.proc.run k s).1 = .ok a ∧ P a
  -- A listing has failed.
  error : (i.proc.trace k s).any listingFailed = true → ∃ f, (i.proc.run k s).1 = .error f

namespace Reads

variable {α β : Type} {k : Handler interface σ}

theorem pure {s : σ} {a : α} {P : α → Prop} (ha : P a) : Reads k (pure a : Inquiry α) s P where
  ok _ := ⟨a, rfl, ha⟩
  error h := by simp at h

theorem of_imp {i : Inquiry α} {s : σ} {P Q : α → Prop} (hi : Reads k i s P)
    (hPQ : ∀ a, P a → Q a) : Reads k i s Q where
  ok h := by
    obtain ⟨a, hrun, ha⟩ := hi.ok h
    exact ⟨a, hrun, hPQ a ha⟩
  error := hi.error

theorem bind {i : Inquiry α} {f : α → Inquiry β} {s : σ} {P : α → Prop} {Q : β → Prop}
    (hi : Reads k i s P) (hf : ∀ a s', P a → Reads k (f a) s' Q) : Reads k (i >>= f) s Q where
  ok h := by
    rw [Task.trace_bind, List.any_append, Bool.or_eq_false_iff] at h
    obtain ⟨a, hrun, ha⟩ := hi.ok h.1
    rw [Task.run_bind, hrun]
    rw [hrun] at h
    exact (hf a _ ha).ok h.2
  error h := by
    rw [Task.trace_bind, List.any_append, Bool.or_eq_true] at h
    rw [Task.run_bind]
    -- The fault of the first part is that of the whole, and then the second part is left out.
    cases hfirst : (i.proc.trace k s).any listingFailed with
    | true =>
      obtain ⟨f, hrun⟩ := hi.error hfirst
      exact ⟨f, by rw [hrun]; rfl⟩
    | false =>
      obtain ⟨a, hrun, ha⟩ := hi.ok hfirst
      rw [hrun] at h ⊢
      exact (hf a _ ha).error (h.resolve_left (by simp [hfirst]))

/-- The law of a single question whose failures are its faults. -/
theorem question {r : Replies} (shown : r.ShownBy k) {q : Query} (hq : q.isListing = true)
    (hfails : ∀ f, q.fails (.error f) = true) (s : σ) :
    Reads k (question q) s fun a => (r q).toOption = some a where
  ok h := by
    have hfalse : q.fails (k q s).1 = false := by
      simpa [Registry.question, listingFailed, hq] using h
    cases hans : (k q s).1 with
    | ok a =>
      refine ⟨a, hans, ?_⟩
      rw [← shown q s hq hfalse, hans]
      rfl
    | error f =>
      rw [hans, hfails] at hfalse
      cases hfalse
  error h := by
    have htrue : q.fails (k q s).1 = true := by
      simpa [Registry.question, listingFailed, hq] using h
    cases hans : (k q s).1 with
    | ok a =>
      rw [hans] at htrue
      cases q <;> cases htrue
    | error f => exact ⟨f, hans⟩

end Reads

/-! ## §3 Look-ups -/

/-- The outcome of a look-up: what the registry does not know is no fault. -/
def sought {α : Type} : Except Fault α → Except Fault (Option α)
  | .ok a => .ok (some a)
  | .error f => if f.status = some 404 then .ok none else .error f

theorem proc_known? {α : Type} (i : Inquiry α) :
    (known? i).proc = i.proc >>= fun answer => .done (sought answer) := by
  rw [known?, Task.proc_bind, Task.proc_outcome, Proc.bind_assoc]
  congr 1
  funext answer
  cases answer with
  | ok a => rfl
  | error f =>
    show (if f.status = some 404 then (pure none : Inquiry (Option α)) else throw f).proc = _
    by_cases h : f.status = some 404 <;> simp [h, sought]

/-! ## §4 Serving records and their environments -/

section

variable {r : Replies} {k : Handler interface σ} (shown : r.ShownBy k)
include shown

/-- A look-up of an environment finds what the content has, unless it fails. -/
theorem reads_environment (id : String) (s : σ) :
    Reads k (known? (question (.environment id))) s fun found => found = r.environment? id := by
  have htrace : (known? (question (.environment id))).proc.trace k s =
      [⟨.environment id, (k (.environment id) s).1⟩] := by
    rw [proc_known?, Proc.trace_bind]
    rfl
  have hrun : ((known? (question (.environment id))).proc.run k s).1 =
      sought (k (.environment id) s).1 := by
    rw [proc_known?, Proc.run_bind]
    rfl
  have hshown := shown (.environment id) s rfl
  constructor
  · intro h
    rw [htrace, List.any_cons, List.any_nil, Bool.or_false] at h
    have hfalse : (Query.environment id).fails (k (.environment id) s).1 = false := h
    have hcontent : (k (.environment id) s).1.toOption = r.environment? id := hshown hfalse
    rw [hrun, ← hcontent]
    cases hans : (k (.environment id) s).1 with
    | ok e => exact ⟨some e, rfl, rfl⟩
    | error f =>
      rw [hans] at hfalse
      have hunknown : f.status = some 404 := by simpa [Query.fails] using hfalse
      exact ⟨none, by simp [sought, hunknown], rfl⟩
  · intro h
    rw [htrace, List.any_cons, List.any_nil, Bool.or_false] at h
    have htrue : (Query.environment id).fails (k (.environment id) s).1 = true := h
    rw [hrun]
    cases hans : (k (.environment id) s).1 with
    | ok e => rw [hans] at htrue; cases htrue
    | error f =>
      rw [hans] at htrue
      have hother : f.status ≠ some 404 := by simpa [Query.fails] using htrue
      exact ⟨f, by simp [sought, hother]⟩

/-- Naming the environments of records adds the names that the content has for them. -/
theorem reads_nameEnvironments (records : List ServingRecord) (names : SortedMap String String)
    (s : σ) : Reads k (nameEnvironments records names) s fun named => ∀ id, named.get? id =
      (names.get? id).or (if id ∈ records.map (·.environmentId) then r.environmentName? id
        else none) := by
  induction records generalizing names s with
  | nil =>
    apply Reads.pure
    intro id
    simp
  | cons record rest ih =>
    rw [nameEnvironments]
    by_cases hnamed : names.contains record.environmentId = true
    · -- The environment has a name already, which takes precedence on the right as well.
      rw [if_pos hnamed]
      refine (ih names s).of_imp fun named hget id => ?_
      rw [hget id, List.map_cons]
      -- Only the environment of this record needs a look.
      by_cases hid : id = record.environmentId
      · subst hid
        obtain ⟨name, hname⟩ := Option.isSome_iff_exists.mp hnamed
        rw [hname, Option.some_or, Option.some_or]
      · simp [hid]
    · rw [if_neg hnamed]
      have hnone : names.get? record.environmentId = none := by
        simpa [SortedMap.contains] using hnamed
      refine (reads_environment shown record.environmentId s).bind fun found s' hfound => ?_
      subst hfound
      cases henv : r.environment? record.environmentId with
      -- The environment is unknown, and remains without a name on both sides.
      | none =>
        refine (ih names s').of_imp fun named hget id => ?_
        rw [hget id, List.map_cons]
        by_cases hid : id = record.environmentId
        · subst hid
          simp [hnone, Replies.environmentName?, henv]
        · simp [hid]
      -- The name is added, and is the one that the content has.
      | some e =>
        refine (ih (names.insert record.environmentId e.name) s').of_imp fun named hget id => ?_
        rw [hget id, List.map_cons, SortedMap.get?_insert]
        by_cases hid : id = record.environmentId
        · subst hid
          simp [hnone, Replies.environmentName?, henv]
        · simp [hid]

/-- Reading the serving records fails exactly when one of its listings does, and otherwise brings
what is known of them. -/
theorem reads_readRecords (s : σ) : Reads k readRecords s fun records => records = r.evidence := by
  refine (Reads.question shown (q := .records) rfl (fun _ => rfl) s).bind fun records s' hr => ?_
  have hrecords : records = r.records := by
    show records = ((r .records).toOption).getD []
    rw [hr]
    rfl
  refine (reads_nameEnvironments shown records .empty s').bind fun names s'' hnames => ?_
  apply Reads.pure
  -- Maps with the same look-ups are the same map.
  have henvironments : names = r.environments := by
    apply SortedMap.ext_get?
    intro id
    rw [hnames id, Replies.get?_environments, hrecords]
    rfl
  rw [hrecords, henvironments]
  rfl

end

end CatalogSync.Registry
