import CatalogSync.Proofs.Registry.Listing
/-!
# Inquiries that rest on what a registry says

A search for a version relies on the answers to most of its questions. Such an answer either shows
what the registry has (`Replies.Shown`), or it breaks the search off (`Breaks`). That a model, a
version or an environment is unknown (status 404) breaks nothing off: it shows that there is none.
Nothing relies on the artifacts of a version, or on a model card.

`Consults` is the law of an inquiry that relies on its answers: it fails exactly when one of them
breaks it off, and otherwise its result has a property of what the registry has. Only the answers of
the run itself count: a registry may fail at any of them, and answer the same question later.
-/

namespace CatalogSync.Registry

open Proc (Handler)

/-! ## §1 Answers that a search relies on -/

/-- Whether a question looks one entity up, which may be unknown. -/
def Query.isLookUp : Query → Bool
  | .model _ | .version _ | .environment _ => true
  | _ => false

/-- Whether a search for a version relies on the answer. -/
def Query.isReliedOn : Query → Bool
  | .artifacts _ | .card _ => false
  | _ => true

/-- An answer that a search relies on is a failure, and more than that an entity is unknown. -/
def Breaks (e : Event interface) : Prop :=
  e.call.isReliedOn = true ∧
    ∃ f, e.answer = .error f ∧ ¬ (e.call.isLookUp = true ∧ f.status = some 404)

theorem not_breaks_ok {q : Query} (a : q.Reply) : ¬ Breaks ⟨q, .ok a⟩ := by
  rintro ⟨-, f, hf, -⟩
  cases hf

namespace Replies

def model? (r : Replies) (id : String) : Option RegisteredModel := (r (.model id)).toOption

def version? (r : Replies) (id : String) : Option ModelVersion := (r (.version id)).toOption

/-- Unless it breaks a search off, the answer shows what the registry has. -/
def Shown (r : Replies) (e : Event interface) : Prop :=
  e.call.isReliedOn = true → ¬ Breaks e → e.answer.toOption = (r e.call).toOption

/-- A registry that gives one answer to a question whenever it does not fail shows what it has. -/
theorem shown_of_answer {r : Replies} {e : Event interface}
    (h : Breaks e ∨ e.answer = r e.call) : r.Shown e :=
  fun _ hwhole => congrArg Except.toOption (h.resolve_left hwhole)

end Replies

theorem isReliedOn_of_isLookUp {q : Query} (hq : q.isLookUp = true) : q.isReliedOn = true := by
  cases q <;> first | rfl | cases hq

/-! ## §2 Inquiries that rely on their answers -/

variable {α β σ : Type}

/-- A result together with the answers that led to it: a fault goes back to an answer that breaks
off; otherwise no answer does, and the result has a property. -/
def Concluded (t : List (Event interface)) (P : α → Prop) : Except Fault α → Prop
  | .ok a => (∀ e ∈ t, ¬ Breaks e) ∧ P a
  | .error _ => ∃ e ∈ t, Breaks e

theorem Concluded.of_imp {t : List (Event interface)} {P Q : α → Prop} {result : Except Fault α}
    (h : Concluded t P result) (hPQ : ∀ a, P a → Q a) : Concluded t Q result := by
  cases result with
  | ok a => exact ⟨h.1, hPQ a h.2⟩
  | error f => exact h

/-- As far as its answers show what the registry has, an inquiry fails exactly when one of them
breaks it off, and otherwise its result has a property. -/
def Consults (r : Replies) (k : Handler interface σ) (i : Inquiry α) (s : σ) (P : α → Prop) : Prop :=
  (∀ e ∈ i.proc.trace k s, r.Shown e) → Concluded (i.proc.trace k s) P (i.proc.run k s).1

namespace Consults

variable {r : Replies} {k : Handler interface σ} {s : σ}

theorem pure {a : α} {P : α → Prop} (ha : P a) : Consults r k (pure a : Inquiry α) s P :=
  fun _ => ⟨fun _ he => (List.not_mem_nil he).elim, ha⟩

theorem of_imp {i : Inquiry α} {P Q : α → Prop} (hi : Consults r k i s P)
    (hPQ : ∀ a, P a → Q a) : Consults r k i s Q := fun hshown => (hi hshown).of_imp hPQ

theorem bind {i : Inquiry α} {f : α → Inquiry β} {P : α → Prop} {Q : β → Prop}
    (hi : Consults r k i s P) (hf : ∀ a s', P a → Consults r k (f a) s' Q) :
    Consults r k (i >>= f) s Q := by
  intro hshown
  rw [Task.trace_bind] at hshown ⊢
  rw [List.forall_mem_append] at hshown
  have hfirst := hi hshown.1
  rw [Task.run_bind]
  cases hrun : (i.proc.run k s).1 with
  | error f =>
    -- What breaks the first part off breaks off the whole.
    rw [hrun] at hfirst
    obtain ⟨e, he, hbreaks⟩ := hfirst
    exact ⟨e, List.mem_append_left _ he, hbreaks⟩
  | ok a =>
    rw [hrun] at hfirst hshown
    have hrest := hf a (i.proc.run k s).2 hfirst.2 hshown.2
    show Concluded (_ ++ (f a).proc.trace k (i.proc.run k s).2) Q
      ((f a).proc.run k (i.proc.run k s).2).1
    cases hrun' : ((f a).proc.run k (i.proc.run k s).2).1 with
    | error g =>
      rw [hrun'] at hrest
      obtain ⟨e, he, hbreaks⟩ := hrest
      exact ⟨e, List.mem_append_right _ he, hbreaks⟩
    | ok b =>
      rw [hrun'] at hrest
      exact ⟨List.forall_mem_append.mpr ⟨hfirst.1, hrest.1⟩, hrest.2⟩

/-- A listing brings what the registry has. -/
theorem question {q : Query} (hrelied : q.isReliedOn = true) (hlists : q.isLookUp = false) :
    Consults r k (question q) s fun a => (r q).toOption = some a := by
  intro hshown
  have hanswer : r.Shown ⟨q, (k q s).1⟩ := hshown _ List.mem_cons_self
  show Concluded [⟨q, (k q s).1⟩] _ (k q s).1
  cases hans : (k q s).1 with
  | ok a =>
    rw [hans] at hanswer
    exact ⟨List.forall_mem_singleton.mpr (not_breaks_ok a),
      (hanswer hrelied (not_breaks_ok a)).symm⟩
  | error f =>
    refine ⟨_, List.mem_singleton.mpr rfl, hrelied, f, rfl, fun hunknown => ?_⟩
    exact Bool.false_ne_true (hlists.symm.trans hunknown.1)

/-- A look-up finds what the registry has, if there is anything. -/
theorem lookUp {q : Query} (hq : q.isLookUp = true) :
    Consults r k (known? (Registry.question q)) s fun found => found = (r q).toOption := by
  have hrelied := isReliedOn_of_isLookUp hq
  unfold Consults
  rw [proc_known?, Proc.trace_bind, Proc.run_bind]
  intro hshown
  have hanswer : r.Shown ⟨q, (k q s).1⟩ := hshown _ List.mem_cons_self
  show Concluded [⟨q, (k q s).1⟩] _ (sought (k q s).1)
  cases hans : (k q s).1 with
  | ok a =>
    rw [hans] at hanswer
    exact ⟨List.forall_mem_singleton.mpr (not_breaks_ok a), hanswer hrelied (not_breaks_ok a)⟩
  | error f =>
    rw [hans] at hanswer
    by_cases hunknown : f.status = some 404
    · have hwhole : ¬ Breaks ⟨q, .error f⟩ := by
        rintro ⟨-, g, hg, hother⟩
        obtain rfl : f = g := Except.error.inj hg
        exact hother ⟨hq, hunknown⟩
      rw [sought, if_pos hunknown]
      exact ⟨List.forall_mem_singleton.mpr hwhole, hanswer hrelied hwhole⟩
    · rw [sought, if_neg hunknown]
      exact ⟨_, List.mem_singleton.mpr rfl, hrelied, f, rfl, fun h => hunknown h.2⟩

/-- Nothing relies on the artifacts of a version. -/
theorem artifactsOf (version : ModelVersion) :
    Consults r k (artifactsOf version) s fun _ => True := by
  intro _
  have hwhole : ¬ Breaks ⟨.artifacts version.id, (k (.artifacts version.id) s).1⟩ :=
    fun h => nomatch h.1
  exact ⟨List.forall_mem_singleton.mpr hwhole, trivial⟩

end Consults

end CatalogSync.Registry
