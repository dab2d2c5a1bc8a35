import CatalogSync.Proofs.Correlation.Evidence
import CatalogSync.Proofs.Correlation.Sightings
/-!
# Which version a deployment is found to serve

Registries are asked in order, and one that fails is passed over like one that offers nothing. So the
version that is found stands at the first registry that is not passed over, whatever the registries
have and whichever of their answers fail, and it is what the strongest kind of evidence leads to
first there (`correlate_first`). Nothing is found only if every registry is passed over.
-/

namespace CatalogSync.Correlation

open Proc (Handler)
open Registry (RegisteredModel ModelVersion Inquiry Replies Breaks)

variable {σ : Type} {d : Deployment}

/-! ## §1 Registries that are passed over -/

/-- An answer of the registry at an endpoint has broken the search there off. -/
def FailsAt (t : List (Event Registry.addressed)) (endpoint : String) : Prop :=
  ∃ e, askedAt endpoint e ∈ t ∧ Breaks e

/-- The registry at an endpoint has failed, or offers nothing. -/
def PassedOver (r : String → Replies) (d : Deployment) (t : List (Event Registry.addressed))
    (endpoint : String) : Prop :=
  FailsAt t endpoint ∨ ∀ strategy x, ¬ Leads (r endpoint) d strategy x

/-- A match stands at the first registry that is not passed over, and is what the strongest kind of
evidence leads to first there. -/
structure Preferred (r : String → Replies) (d : Deployment) (endpoints : List String)
    (t : List (Event Registry.addressed)) (m : Match) : Prop where
  first : ∃ before after, endpoints = before ++ m.endpoint :: after ∧
    ∀ endpoint ∈ before, PassedOver r d t endpoint
  unbroken : ¬ FailsAt t m.endpoint
  model_inUse : m.model.isArchived = false
  version_inUse : m.version.isArchived = false
  leads : LeadsFirst (r m.endpoint) d m.strategy ⟨m.model, m.version⟩
  strongest : ∀ strategy : Strategy, strategy.rank < m.strategy.rank →
    ∀ x, ¬ Leads (r m.endpoint) d strategy x

section

variable {r : String → Replies} {endpoint other : String} {k : Handler Registry.addressed σ}
  {t t' : List (Event Registry.addressed)} {own : List (Event Registry.interface)}

theorem askedAt_mem_iff {e : Event Registry.interface} :
    askedAt endpoint e ∈ own.map (askedAt other) ↔ endpoint = other ∧ e ∈ own := by
  rw [List.mem_map]
  constructor
  · rintro ⟨⟨q, answer⟩, he, heq⟩
    cases e
    cases heq
    exact ⟨rfl, he⟩
  · rintro ⟨rfl, he⟩
    exact ⟨e, he, rfl⟩

theorem trace_inquire {α : Type} (i : Inquiry α) (s : σ) :
    (Registry.inquire endpoint i).trace k s =
      (i.proc.trace (registryOf k endpoint) s).map (askedAt endpoint) := by
  show (i.proc.through _).trace k s = _
  induction i.proc generalizing s with
  | done a => rfl
  | call q resume ih => exact congrArg (_ :: ·) (ih _ _)

theorem PassedOver.mono (h : PassedOver r d t endpoint) (ht : t ⊆ t') :
    PassedOver r d t' endpoint :=
  h.imp_left fun ⟨e, he, hbreaks⟩ => ⟨e, ht he, hbreaks⟩

/-! ## §2 Searches of several registries -/

/-- What a search of several registries brings. -/
def Outcome (r : String → Replies) (d : Deployment) (endpoints : List String)
    (t : List (Event Registry.addressed)) : Option Match → Prop
  | some m => Preferred r d endpoints t m
  | none => ∀ endpoint ∈ endpoints, PassedOver r d t endpoint

/-- Where the first registry is passed over, the others decide. -/
theorem Outcome.cons {endpoints : List String} {found : Option Match}
    (hfirst : PassedOver r d (own.map (askedAt endpoint)) endpoint) (hnew : endpoint ∉ endpoints)
    (hrest : Outcome r d endpoints t found) :
    Outcome r d (endpoint :: endpoints) (own.map (askedAt endpoint) ++ t) found := by
  have hskipped := hfirst.mono (List.subset_append_left _ t)
  have hlater {other : String} (hother : PassedOver r d t other) :
      PassedOver r d (own.map (askedAt endpoint) ++ t) other :=
    hother.mono (List.subset_append_right _ _)
  cases found with
  | none => exact List.forall_mem_cons.mpr ⟨hskipped, fun other hother => hlater (hrest other hother)⟩
  | some m =>
    obtain ⟨before, after, hsplit, hbefore⟩ := hrest.first
    refine { hrest with first := ⟨endpoint :: before, after, ?_, ?_⟩, unbroken := ?_ }
    · rw [hsplit, List.cons_append]
    · exact List.forall_mem_cons.mpr ⟨hskipped, fun other hother => hlater (hbefore other hother)⟩
    · rintro ⟨e, he, hbreaks⟩
      rcases List.mem_append.mp he with hown | hlast
      · -- The endpoint of the match is another one.
        apply hnew
        rw [hsplit, ← (askedAt_mem_iff.mp hown).1]
        exact List.mem_append_right _ List.mem_cons_self
      · exact hrest.unbroken ⟨e, hlast, hbreaks⟩

theorem trace_firstMatch_cons (endpoints : List String) (s : σ) :
    (firstMatch d (endpoint :: endpoints)).trace k s =
      ((matchAt endpoint d).proc.trace (registryOf k endpoint) s).map (askedAt endpoint) ++
        match (matchAt endpoint d).proc.run (registryOf k endpoint) s with
        | (.ok (some _), _) => []
        | (_, s') => (firstMatch d endpoints).trace k s' := by
  have hinquire : (Registry.inquire endpoint (matchAt endpoint d)).run k s =
      (matchAt endpoint d).proc.run (registryOf k endpoint) s :=
    Proc.run_through _ k (matchAt endpoint d).proc s
  rw [firstMatch, Proc.trace_bind, trace_inquire, hinquire]
  rcases (matchAt endpoint d).proc.run (registryOf k endpoint) s with ⟨_ | _ | _, s'⟩ <;> rfl

/-- The induction is on the registries that are still to be asked; the answers of each are told apart
from those of the others by its endpoint. -/
theorem outcome_firstMatch {endpoints : List String} (hdistinct : endpoints.Nodup) (s : σ)
    (hshown : ∀ endpoint e, askedAt endpoint e ∈ (firstMatch d endpoints).trace k s →
      (r endpoint).Shown e) :
    Outcome r d endpoints ((firstMatch d endpoints).trace k s)
      ((firstMatch d endpoints).run k s).1 := by
  induction endpoints generalizing s with
  | nil => exact fun endpoint he => nomatch he
  | cons endpoint endpoints ih =>
    obtain ⟨hnew, hdistinct⟩ := List.nodup_cons.mp hdistinct
    rw [trace_firstMatch_cons] at hshown ⊢
    rw [run_firstMatch_cons]
    have hlaw := consults_matchAt (r := r endpoint) (k := registryOf k endpoint) (d := d) endpoint s
      fun e he => hshown endpoint e
        (List.mem_append_left _ (List.mem_map.mpr ⟨e, he, rfl⟩))
    rcases hat : (matchAt endpoint d).proc.run (registryOf k endpoint) s with ⟨f | found, s'⟩
    · -- The registry has failed.
      rw [hat] at hlaw hshown
      obtain ⟨e, he, hbreaks⟩ := hlaw
      have hfails : FailsAt _ endpoint := ⟨e, askedAt_mem_iff.mpr ⟨rfl, he⟩, hbreaks⟩
      exact .cons (.inl hfails) hnew
        (ih hdistinct s' fun other e he => hshown other e (List.mem_append_right _ he))
    · rw [hat] at hlaw hshown
      obtain ⟨hwhole, hendpoint, hdecides⟩ := hlaw
      cases found with
      | none =>
        exact .cons (.inr (hdecides.complete rfl)) hnew
          (ih hdistinct s' fun other e he => hshown other e (List.mem_append_right _ he))
      | some m =>
        obtain rfl : m.endpoint = endpoint := hendpoint m rfl
        have hleads := hdecides.leads m.found rfl
        exact {
          first := ⟨[], endpoints, rfl, fun _ h => nomatch h⟩
          unbroken := by
            rintro ⟨e, he, hbreaks⟩
            rw [List.append_nil] at he
            exact hwhole e (askedAt_mem_iff.mp he).2 hbreaks
          model_inUse := hleads.inUse.1
          version_inUse := hleads.inUse.2
          leads := hleads
          strongest := hdecides.strongest m.found rfl }

end

/-- Whatever the registries have, and whichever of their answers fail: the version that a deployment
is found to serve stands at the first registry that neither fails nor offers nothing, it is in use
there together with its model, and the strongest kind of evidence that leads to anything leads to it
first. Nothing is found only if every registry fails or offers nothing. -/
theorem correlate_first (directory : Registry.Directory) (d : Deployment) (r : String → Replies)
    (k : Handler Registry.addressed σ) (s : σ)
    (hshown : ∀ endpoint e, askedAt endpoint e ∈ (correlate directory d).trace k s →
      (r endpoint).Shown e) :
    (∀ m, ((correlate directory d).run k s).1 = some m →
      Preferred r d directory.toList ((correlate directory d).trace k s) m) ∧
      (((correlate directory d).run k s).1 = none →
        ∀ endpoint ∈ directory.toList,
          PassedOver r d ((correlate directory d).trace k s) endpoint) := by
  have hdistinct : directory.toList.Nodup := by
    refine directory.pairwise_toList.imp fun {a b} hlt heq => ?_
    rw [heq] at hlt
    exact String.lt_irrefl b hlt
  have houtcome := outcome_firstMatch hdistinct s hshown
  constructor
  · intro m hm
    rw [correlate] at hm ⊢
    rwa [hm] at houtcome
  · intro hnone
    rw [correlate] at hnone ⊢
    rwa [hnone] at houtcome

/-! ### A registry that fails, and one behind it -/

def fraud : RegisteredModel where
  id := "1"
  name := "fraud"

def fraudFirst : ModelVersion where
  id := "2"
  name := "v1"
  modelId := "1"

/-- Two records name the version; the registry does not know the environment of the first. -/
def fraudRegistry : Registry.Snapshot where
  models := [fraud]
  versions := [fraudFirst]
  records := [
    { id := "3", modelId := "1", versionId := some "2", environmentId := "gone",
      runtime := some "fraud" },
    { id := "4", modelId := "1", versionId := some "2", environmentId := "5",
      runtime := some "fraud" }]
  environments := [{ id := "5", name := "prod" }]

/-- The labels name a version that is not there. -/
def fraudServer : Deployment where
  ns := "prod"
  name := "fraud-server"
  labels := .ofList [(Deployment.modelLabel, "1"), (Deployment.versionLabel, "9")]

def failingThenFraud (endpoint : String) : Replies :=
  if endpoint = "http://a" then fun _ => .error (.registry endpoint "down" (some 500))
  else fraudRegistry.reply endpoint

def fraudDirectory : Registry.Directory := .ofList ["http://a", "http://b"]

/-- Registries that always answer the same. -/
def answering (r : String → Replies) : Handler Registry.addressed Unit :=
  fun a s => (r a.endpoint a.query, s)

theorem correlate_first_behindFailure :
    ((correlate fraudDirectory fraudServer).run (answering failingThenFraud) ()).1 =
        some ⟨"http://b", .servingEnvironment, fraud, fraudFirst, []⟩ ∧
      Preferred failingThenFraud fraudServer fraudDirectory.toList
        ((correlate fraudDirectory fraudServer).trace (answering failingThenFraud) ())
        ⟨"http://b", .servingEnvironment, fraud, fraudFirst, []⟩ := by
  have hrun : ((correlate fraudDirectory fraudServer).run (answering failingThenFraud) ()).1 =
      some ⟨"http://b", .servingEnvironment, fraud, fraudFirst, []⟩ := by
    decide +kernel
  have hshown (endpoint : String) (e : Event Registry.interface)
      (he : askedAt endpoint e ∈
        (correlate fraudDirectory fraudServer).trace (answering failingThenFraud) ()) :
      (failingThenFraud endpoint).Shown e := by
    obtain ⟨_, hanswer⟩ := Proc.exists_answer_of_mem_trace he
    exact Replies.shown_of_answer (.inr hanswer)
  exact ⟨hrun, (correlate_first fraudDirectory fraudServer failingThenFraud
    (answering failingThenFraud) () hshown).1 _ hrun⟩

end CatalogSync.Correlation
