import CatalogSync.Proofs.Registry.Listing
import CatalogSync.Registry.Snapshot
/-!
# Registries that answer consistently

A registry is consistent when its listings succeed, a look-up by id brings the listed entity with
that id or says that there is none, ids are not empty, and every version names the model under which
it is listed (`Replies.Consistent`). Nothing is asked of the serving records: they may name
anything.

`Yields` states that an inquiry at such a registry succeeds with a result that has a property; it is
closed under sequencing, and look-ups are specified by what they find. Snapshots are consistent when
their ids are in order (`Snapshot.consistent`).
-/

namespace CatalogSync.Registry

/-! ## §1 Consistent content -/

namespace Replies

/-- A version is listed under a model that is listed. -/
def Lists (r : Replies) (version : ModelVersion) : Prop :=
  ∃ model ∈ r.models, version ∈ r.versions model.id

/-- Listings succeed, look-ups agree with them, and versions name their models. -/
structure Consistent (r : Replies) : Prop where
  models_ok : ∃ models, r .models = .ok models
  versions_ok : ∀ model ∈ r.models, ∃ versions, r (.versions model.id) = .ok versions
  records_ok : ∃ records, r .records = .ok records
  -- A look-up of a model brings the listed model with the id, so ids are not repeated.
  model_iff : ∀ id model, r (.model id) = .ok model ↔ model ∈ r.models ∧ model.id = id
  model_unknown : ∀ id f, r (.model id) = .error f → f.status = some 404
  version_iff : ∀ id version, r (.version id) = .ok version ↔ r.Lists version ∧ version.id = id
  version_unknown : ∀ id f, r (.version id) = .error f → f.status = some 404
  -- An environment that is not found is unknown.
  environment_unknown : ∀ id f, r (.environment id) = .error f → f.status = some 404
  model_id : ∀ model ∈ r.models, model.id ≠ ""
  -- A version names the model under which it is listed.
  parent : ∀ model ∈ r.models, ∀ version ∈ r.versions model.id, version.modelId = model.id

namespace Consistent

variable {r : Replies} (hr : r.Consistent)
include hr

theorem models_eq : r .models = .ok r.models := by
  obtain ⟨models, hmodels⟩ := hr.models_ok
  rw [Replies.models, hmodels]
  rfl

theorem records_eq : r .records = .ok r.records := by
  obtain ⟨records, hrecords⟩ := hr.records_ok
  rw [Replies.records, hrecords]
  rfl

theorem versions_eq {model : RegisteredModel} (hmodel : model ∈ r.models) :
    r (.versions model.id) = .ok (r.versions model.id) := by
  obtain ⟨versions, hversions⟩ := hr.versions_ok model hmodel
  rw [Replies.versions, hversions]
  rfl

/-- Listed models with one id are one model. -/
theorem model_eq_of_id {a b : RegisteredModel} (ha : a ∈ r.models) (hb : b ∈ r.models)
    (hid : a.id = b.id) : a = b := by
  have hfirst := (hr.model_iff b.id a).mpr ⟨ha, hid⟩
  -- The look-up of their id brings both of them.
  rw [(hr.model_iff b.id b).mpr ⟨hb, rfl⟩] at hfirst
  exact (Except.ok.inj hfirst).symm

/-- Listed versions with one id are one version. -/
theorem version_eq_of_id {a b : ModelVersion} (ha : r.Lists a) (hb : r.Lists b)
    (hid : a.id = b.id) : a = b := by
  have hfirst := (hr.version_iff b.id a).mpr ⟨ha, hid⟩
  rw [(hr.version_iff b.id b).mpr ⟨hb, rfl⟩] at hfirst
  exact (Except.ok.inj hfirst).symm

end Consistent

theorem Live.lists {r : Replies} {model : RegisteredModel} {version : ModelVersion}
    (h : r.Live model version) : r.Lists version := ⟨model, h.model_mem, h.version_mem⟩

end Replies

/-! ## §2 Inquiries that succeed -/

/-- An inquiry succeeds, and its result has a property. -/
def Yields {α : Type} (r : Replies) (i : Inquiry α) (P : α → Prop) : Prop :=
  ∃ a, i.proc.eval r = .ok a ∧ P a

namespace Yields

variable {α β : Type} {r : Replies}

theorem pure {a : α} {P : α → Prop} (ha : P a) : Yields r (pure a : Inquiry α) P := ⟨a, rfl, ha⟩

theorem of_imp {i : Inquiry α} {P Q : α → Prop} (hi : Yields r i P) (hPQ : ∀ a, P a → Q a) :
    Yields r i Q := by
  obtain ⟨a, heval, ha⟩ := hi
  exact ⟨a, heval, hPQ a ha⟩

theorem bind {i : Inquiry α} {f : α → Inquiry β} {P : α → Prop} {Q : β → Prop}
    (hi : Yields r i P) (hf : ∀ a, P a → Yields r (f a) Q) : Yields r (i >>= f) Q := by
  obtain ⟨a, heval, ha⟩ := hi
  obtain ⟨b, heval', hb⟩ := hf a ha
  refine ⟨b, ?_, hb⟩
  rw [Task.proc_bind, Proc.eval_bind, heval]
  exact heval'

theorem ofQuestion {q : Query} {a : q.Reply} (hq : r q = .ok a) {P : q.Reply → Prop} (ha : P a) :
    Yields r (question q) P := ⟨a, hq, ha⟩

/-- A look-up whose failures all say that there is nothing finds what the content has. -/
theorem ofKnown {q : Query} (hq : ∀ f, r q = .error f → f.status = some 404) :
    Yields r (known? (question q)) fun found => found = (r q).toOption := by
  refine ⟨(r q).toOption, ?_, rfl⟩
  -- The outcome of the question is what the content has for it.
  rw [proc_known?, Proc.eval_bind]
  show sought (r q) = .ok (r q).toOption
  cases hans : r q with
  | ok a => rfl
  | error f => simp [sought, hq f hans, Except.toOption]

end Yields

/-- An inquiry that succeeds does so wherever its questions get the same answers. -/
theorem Yields.run {α σ : Type} {r : Replies} {i : Inquiry α} {P : α → Prop} (hi : Yields r i P)
    {k : Proc.Handler interface σ} (steady : ∀ q s, (k q s).1 = r q) (s : σ) :
    ∃ a, (i.proc.run k s).1 = .ok a ∧ P a := by
  rw [Proc.run_eq_eval steady]
  exact hi

/-! ## §3 Listings that do not fail -/

/-- Steady answers show the content. -/
theorem Replies.shownBy_of_steady {σ : Type} {r : Replies} {k : Proc.Handler interface σ}
    (steady : ∀ q s, (k q s).1 = r q) : r.ShownBy k := fun q s _ _ => by rw [steady]

/-- No listing fails in a run whose questions are answered without failure. -/
theorem any_listingFailed_of_calls {α σ : Type} {r : Replies} {k : Proc.Handler interface σ}
    (steady : ∀ q s, (k q s).1 = r q) {i : Inquiry α}
    (hcalls : i.proc.Calls fun q : Query => q.fails (r q) = false) (s : σ) :
    (i.proc.trace k s).any listingFailed = false := by
  rw [List.any_eq_false]
  intro e he
  obtain ⟨s', hanswer⟩ := Proc.exists_answer_of_mem_trace he
  have hfails : Query.fails e.call (r e.call) = false := hcalls.of_mem_trace he
  -- The answer is that of the content, which is no failure.
  rw [listingFailed, hanswer, steady, hfails, Bool.and_false]
  exact Bool.false_ne_true

namespace Replies.Consistent

variable {r : Replies} (hr : r.Consistent)
include hr

theorem fails_environment (id : String) : (Query.environment id).fails (r (.environment id)) =
    false := by
  cases hans : r (.environment id) with
  | ok a => rfl
  | error f => simp [Query.fails, hr.environment_unknown id f hans]

theorem calls_nameEnvironments (records : List ServingRecord) (names : SortedMap String String) :
    (Correlation.nameEnvironments records names).proc.Calls fun q : Query =>
      q.fails (r q) = false := by
  induction records generalizing names with
  | nil => trivial
  | cons record rest ih =>
    unfold Correlation.nameEnvironments
    split
    -- The name is known already, and nothing is asked.
    · exact ih names
    · apply Task.calls_bind
      · rw [proc_known?]
        exact ⟨hr.fails_environment record.environmentId, fun _ => trivial⟩
      · intro found
        cases found with
        | some e => exact ih _
        | none => exact ih names

/-- The questions about the serving records are answered without failure. -/
theorem calls_readRecords : Correlation.readRecords.proc.Calls fun q : Query =>
    q.fails (r q) = false := by
  refine Task.calls_bind ⟨?_, fun _ => trivial⟩ fun records => ?_
  · show Query.records.fails (r .records) = false
    rw [hr.records_eq]
    rfl
  · exact Task.calls_bind (hr.calls_nameEnvironments records .empty) fun _ => trivial

end Replies.Consistent

/-! ## §4 Snapshots -/

namespace Snapshot

/-- Ids are not empty and not repeated, and every version belongs to a model. -/
structure WellFormed (s : Snapshot) : Prop where
  model_id : ∀ model ∈ s.models, model.id ≠ ""
  models_distinct : s.models.Pairwise fun a b => a.id ≠ b.id
  versions_distinct : s.versions.Pairwise fun a b => a.id ≠ b.id
  -- Every version names a model of the snapshot.
  parent : ∀ version ∈ s.versions, ∃ model ∈ s.models, model.id = version.modelId

/-- A look-up by distinct ids finds the entity with the id. -/
theorem find?_eq_some_iff {α : Type} {id : α → String} {l : List α}
    (hl : l.Pairwise fun a b => id a ≠ id b) {key : String} {a : α} :
    l.find? (fun x => id x == key) = some a ↔ a ∈ l ∧ id a = key := by
  induction l with
  | nil => simp
  | cons b l ih =>
    obtain ⟨hb, hl⟩ := List.pairwise_cons.mp hl
    rw [List.find?_cons]
    by_cases hkey : id b = key
    · -- No later entity has the id of the first.
      have htrue : (id b == key) = true := beq_iff_eq.mpr hkey
      rw [htrue, Option.some.injEq]
      constructor
      · rintro rfl
        exact ⟨List.mem_cons_self, hkey⟩
      · rintro ⟨ha, hida⟩
        rcases List.mem_cons.mp ha with rfl | ha
        · rfl
        · exact absurd (hkey.trans hida.symm) (hb a ha)
    · have hfalse : (id b == key) = false := beq_eq_false_iff_ne.mpr hkey
      rw [hfalse, ih hl]
      constructor
      · rintro ⟨ha, hida⟩
        exact ⟨List.mem_cons_of_mem _ ha, hida⟩
      · rintro ⟨ha, hida⟩
        rcases List.mem_cons.mp ha with rfl | ha
        · exact absurd hida hkey
        · exact ⟨ha, hida⟩

theorem require_eq_ok_iff {α : Type} (endpoint : String) (found : Option α) (a : α) :
    require endpoint found = .ok a ↔ found = some a := by
  cases found <;> simp [require]

theorem require_unknown {α : Type} (endpoint : String) (found : Option α) (f : Fault)
    (h : require endpoint found = .error f) : f.status = some 404 := by
  cases found with
  | some a => cases h
  | none =>
    obtain rfl : unknown endpoint = f := Except.error.inj h
    rfl

/-- What a snapshot lists under its models are its versions. -/
theorem lists_reply_iff {s : Snapshot} (hs : s.WellFormed) (endpoint : String)
    (version : ModelVersion) :
    Replies.Lists (s.reply endpoint) version ↔ version ∈ s.versions := by
  constructor
  · rintro ⟨model, -, hversion⟩
    exact (List.mem_filter.mp hversion).1
  · intro hversion
    obtain ⟨model, hmodel, hid⟩ := hs.parent version hversion
    exact ⟨model, hmodel, List.mem_filter.mpr ⟨hversion, beq_iff_eq.mpr hid.symm⟩⟩

/-- A well-formed snapshot answers consistently. -/
theorem consistent {s : Snapshot} (hs : s.WellFormed) (endpoint : String) :
    Replies.Consistent (s.reply endpoint) where
  models_ok := ⟨_, rfl⟩
  versions_ok _ _ := ⟨_, rfl⟩
  records_ok := ⟨_, rfl⟩
  model_iff id model := by
    show require endpoint _ = _ ↔ _
    rw [require_eq_ok_iff, find?_eq_some_iff hs.models_distinct]
    rfl
  model_unknown id f hf := require_unknown endpoint _ f hf
  version_iff id version := by
    show require endpoint _ = _ ↔ _
    rw [require_eq_ok_iff, find?_eq_some_iff hs.versions_distinct, lists_reply_iff hs]
  version_unknown id f hf := require_unknown endpoint _ f hf
  environment_unknown id f hf := require_unknown endpoint _ f hf
  model_id := hs.model_id
  parent model _ version hversion := beq_iff_eq.mp (List.mem_filter.mp hversion).2

end Snapshot

end CatalogSync.Registry
