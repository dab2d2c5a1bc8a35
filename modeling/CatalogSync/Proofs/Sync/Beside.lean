import CatalogSync.Proofs.Sync.KeySet
/-!
# A pass beside the storage service

The cluster and the registries on one side and the storage service on the other have nothing to do
with each other (`beside`). What a pass asks of the one and sends to the other does not depend on
how the service answers: two runs that find the same outside ask the same and send the same, even if
the service was left differently before each of them (`Alike`).
-/

namespace CatalogSync.Sync

open Proc (Handler)
open Registry (RegisteredModel ModelVersion Directory)

variable {τ ρ α β : Type}

/-! ## §1 Two sides -/

def Call.isStorage : Call → Bool
  | .storage _ => true
  | _ => false

/-- Surroundings of two sides, of which one answers the calls to the storage service. -/
def beside (outside : Handler interface τ) (service : Handler Storage.Publishing.interface ρ) :
    Handler interface (τ × ρ)
  | .storage c, s => ((service c s.2).1, s.1, (service c s.2).2)
  | c, s => ((outside c s.1).1, (outside c s.1).2, s.2)

theorem beside_of_not_storage (outside : Handler interface τ)
    (service : Handler Storage.Publishing.interface ρ) {c : Call} (hc : c.isStorage = false)
    (s : τ × ρ) :
    beside outside service c s = ((outside c s.1).1, (outside c s.1).2, s.2) := by
  cases c with
  | storage c => cases hc
  | _ => rfl

/-- The service after a record was sent. -/
def delivered (service : Handler Storage.Publishing.interface ρ) (r : ρ) (u : Upsert) : ρ :=
  (service (.upsert u.key u.provenance u.body) r).2

/-! ## §2 Runs that differ in the answers of the service only -/

/-- Two procedures that ask the same of the outside and send the same, whatever the service answers
to either of them. -/
inductive Alike (R : α → α → Prop) : Proc interface α → Proc interface α → Prop where
  | done {a b : α} (hab : R a b) : Alike R (.done a) (.done b)
  | ask {c : Call} {f g : c.Answer → Proc interface α} (hc : c.isStorage = false)
      (hrest : ∀ answer, Alike R (f answer) (g answer)) : Alike R (.call c f) (.call c g)
  | send {key : ImportKey} {provenance : Provenance} {body : Storage.PostBody}
      {f g : (Call.storage (.upsert key provenance body)).Answer → Proc interface α}
      (hrest : ∀ x y, Alike R (f x) (g y)) :
      Alike R (.call (.storage (.upsert key provenance body)) f)
        (.call (.storage (.upsert key provenance body)) g)

namespace Alike

variable {R : α → α → Prop} {S : β → β → Prop}

theorem bind {p q : Proc interface α} {f g : α → Proc interface β} (hpq : Alike R p q)
    (hfg : ∀ a b, R a b → Alike S (f a) (g b)) : Alike S (p >>= f) (q >>= g) := by
  induction hpq with
  | done hab => exact hfg _ _ hab
  | ask hc _ ih => exact .ask hc ih
  | send _ ih => exact .send ih

/-- A procedure that leaves the service alone is alike itself. -/
theorem of_calls {p : Proc interface α} (hp : p.Calls fun c : Call => c.isStorage = false) :
    Alike (· = ·) p p := by
  induction p with
  | done a => exact .done rfl
  | call c resume ih => exact .ask hp.1 fun answer => ih answer (hp.2 answer)

theorem foldlM {f : β → α → Proc interface β} {l : List α}
    (hf : ∀ a ∈ l, ∀ b b', S b b' → Alike S (f b a) (f b' a)) {b b' : β} (hb : S b b') :
    Alike S (l.foldlM f b) (l.foldlM f b') := by
  induction l generalizing b b' with
  | nil => exact .done hb
  | cons a l ih =>
    rw [Proc.foldlM_cons, Proc.foldlM_cons]
    exact (hf a List.mem_cons_self b b' hb).bind fun _ _ hnext =>
      ih (fun x hx => hf x (List.mem_cons_of_mem _ hx)) hnext

/-- Runs beside a service in two states agree on everything but the service, and to the service both
send the same records. -/
theorem run {p q : Proc interface α} (hpq : Alike R p q) (outside : Handler interface τ)
    (service : Handler Storage.Publishing.interface ρ) (t : τ) (r r' : ρ) :
    let h := beside outside service
    let sent := upserts (p.trace h (t, r))
    R (p.run h (t, r)).1 (q.run h (t, r')).1 ∧
      ∃ t', (p.run h (t, r)).2 = (t', sent.foldl (delivered service) r) ∧
        (q.run h (t, r')).2 = (t', sent.foldl (delivered service) r') := by
  intro h
  induction hpq generalizing t r r' with
  | done hab => exact ⟨hab, t, rfl, rfl⟩
  | @ask c f g hc _ ih =>
    have hleft : h c (t, r) = ((outside c t).1, (outside c t).2, r) :=
      beside_of_not_storage outside service hc _
    have hright : h c (t, r') = ((outside c t).1, (outside c t).2, r') :=
      beside_of_not_storage outside service hc _
    have hsends : ∀ answer, upserts [(⟨c, answer⟩ : Event interface)] = [] := by
      intro answer
      cases c with
      | storage c => cases hc
      | _ => rfl
    have hsplit : ∀ answer l, upserts ((⟨c, answer⟩ : Event interface) :: l) = upserts l := by
      intro answer l
      rw [← List.singleton_append, upserts_append, hsends, List.nil_append]
    simp only [Proc.run_call, Proc.trace_call, hleft, hright, hsplit]
    exact ih _ _ _ _
  | @send key provenance body f g _ ih =>
    exact ih _ _ _ _ _

/-- A task that is followed by the rest unless it fails. -/
theorem task_bind {R : Except Fault β → Except Fault β → Prop} {t : Action α} {f : α → Action β}
    (ht : t.proc.Calls fun c : Call => c.isStorage = false)
    (hf : ∀ a, Alike R (f a).proc (f a).proc) (hR : ∀ e, R (.error e) (.error e)) :
    Alike R (t >>= f).proc (t >>= f).proc := by
  rw [Task.proc_bind]
  refine (of_calls ht).bind ?_
  rintro x _ rfl
  cases x with
  | ok a => exact hf a
  | error e => exact .done (hR e)

end Alike

/-! ## §3 A pass -/

/-- What a pass has done so far, but for how many records could be sent. -/
structure Progress.Alike (p q : Progress) : Prop where
  keys : p.keys = q.keys
  served : p.served = q.served
  complete : p.complete = q.complete

namespace Progress.Alike

variable {p q : Progress}

theorem refl (p : Progress) : p.Alike p := ⟨rfl, rfl, rfl⟩

theorem count (h : p.Alike q) (r r' : Except Fault ImportKey) : (p.count r).Alike (q.count r') where
  keys := by rw [keys_count, keys_count, h.keys]
  served := by rw [served_count, served_count, h.served]
  complete := by rw [complete_count, complete_count, h.complete]

theorem fail (h : p.Alike q) : p.fail.Alike q.fail := ⟨h.keys, h.served, h.complete⟩

theorem incomplete (h : p.Alike q) : p.incomplete.Alike q.incomplete := ⟨h.keys, h.served, rfl⟩

theorem add (h : p.Alike q) (key : ImportKey) : (p.add key).Alike (q.add key) where
  keys := congrArg (SortedSet.add · key) h.keys
  served := h.served
  complete := h.complete

theorem serve (h : p.Alike q) (deployments : List Deployment) :
    (p.serve deployments).Alike (q.serve deployments) where
  keys := h.keys
  served := congrArg (· ++ _) h.served
  complete := h.complete

end Progress.Alike

/-- A call that leaves the service alone. -/
theorem not_isStorage_details? (d : Deployment) :
    (details? d).Calls fun c : Call => c.isStorage = false := calls_details? (fun _ => rfl) d

theorem not_isStorage_inquire (endpoint : String) (i : Registry.Inquiry α) :
    (inquire endpoint i).proc.Calls fun c : Call => c.isStorage = false := by
  refine Proc.Calls.through (fun q => ?_) i.proc
  exact ⟨rfl, fun _ => trivial⟩

theorem alike_publish (style : Style) (sources : Catalog.Sources) (endpoint : Option String) :
    Alike (fun _ _ => True) (publish style sources endpoint).proc
      (publish style sources endpoint).proc := by
  unfold publish
  refine Alike.task_bind trivial (fun entry => ?_) fun _ => trivial
  refine Alike.task_bind (calls_cardOf (fun _ _ => rfl) entry endpoint) (fun card => ?_)
    fun _ => trivial
  refine .send fun x y => ?_
  cases x <;> cases y <;> exact .done trivial

theorem alike_publishVersion (scope : Scope) (model : RegisteredModel) (version : ModelVersion) :
    Alike (fun _ _ => True) (publishVersion scope model version).proc
      (publishVersion scope model version).proc := by
  unfold publishVersion
  refine Alike.task_bind ?_ (fun sources => alike_publish _ _ _) fun _ => trivial
  unfold versionSources
  refine Task.calls_bind (not_isStorage_inquire _ _) fun artifacts => ?_
  split
  · trivial
  · exact Task.calls_bind ((not_isStorage_details? _).bind fun _ => trivial) fun _ => trivial

theorem alike_publishDeployment (style : Style) (d : Deployment) :
    Alike (fun _ _ => True) (publishDeployment style d).proc (publishDeployment style d).proc := by
  unfold publishDeployment
  exact Alike.task_bind ((not_isStorage_details? d).bind fun _ => trivial)
    (fun details => alike_publish _ _ _) fun _ => trivial

variable {p q : Progress}

theorem alike_visitVersion (scope : Scope) (model : RegisteredModel) (version : ModelVersion)
    (hpq : p.Alike q) : Alike Progress.Alike (visitVersion scope model p version)
      (visitVersion scope model q version) := by
  unfold visitVersion
  split
  · exact .done hpq.fail
  next key _ =>
    exact (alike_publishVersion scope model version).bind fun r r' _ =>
      .done (((hpq.add key).serve _).count r r')

theorem alike_visitModel (scope : Scope) (model : RegisteredModel) (hpq : p.Alike q) :
    Alike Progress.Alike (visitModel scope p model) (visitModel scope q model) := by
  unfold visitModel
  refine (Alike.of_calls (not_isStorage_inquire _ _)).bind ?_
  rintro x _ rfl
  cases x with
  | error e => exact .done hpq.incomplete
  | ok versions =>
    exact .foldlM (fun version _ p q hpq => alike_visitVersion scope model version hpq) hpq

theorem alike_visitRegistry (style : Style) (deployments : List Deployment) (endpoint : String)
    (hpq : p.Alike q) : Alike Progress.Alike (visitRegistry style deployments p endpoint)
      (visitRegistry style deployments q endpoint) := by
  unfold visitRegistry
  refine (Alike.of_calls (not_isStorage_inquire _ _)).bind ?_
  rintro x _ rfl
  cases x with
  | error e => exact .done hpq.incomplete
  | ok listed =>
    exact .foldlM (fun model _ p q hpq => alike_visitModel _ model hpq) hpq

theorem alike_visitDeployment (style : Style) (d : Deployment) (hpq : p.Alike q) :
    Alike Progress.Alike (visitDeployment style p d) (visitDeployment style q d) := by
  have hskip : (d.isRegistryManaged || p.serves d) = (d.isRegistryManaged || q.serves d) := by
    rw [Progress.serves, Progress.serves, hpq.served]
  unfold visitDeployment
  rw [hskip]
  split
  · exact .done hpq
  · split
    · exact .done hpq.fail
    next key _ =>
      dsimp only
      split
      · exact (alike_publishDeployment style d).bind fun r r' _ => .done ((hpq.add key).count r r')
      · exact .done (hpq.add key)

/-- A pass that treats everything asks the same and sends the same, whatever the service answers. -/
theorem alike_visitAll (style : Style) (directory : Directory) :
    Alike Progress.Alike (visitAll style directory) (visitAll style directory) := by
  have hall : visitAll style directory = deployments.proc >>= halves style directory := rfl
  rw [hall]
  have hlist : deployments.proc.Calls fun c : Call => c.isStorage = false := ⟨rfl, fun _ => trivial⟩
  refine (Alike.of_calls hlist).bind ?_
  rintro listed _ rfl
  unfold halves
  refine (Alike.foldlM (fun endpoint _ p q hpq => alike_visitRegistry style _ endpoint hpq)
    (.refl _)).bind fun p q hpq => ?_
  exact .foldlM (fun d _ p q hpq => alike_visitDeployment style d hpq) hpq

end CatalogSync.Sync
