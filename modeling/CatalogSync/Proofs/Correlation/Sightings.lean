import CatalogSync.Correlation.Search
import CatalogSync.Proofs.Effect.Ensures
/-!
# What a search has been shown

A search takes a version only after a registry has shown it, together with its model, in reply to a
question of this very search, and neither is archived (`Registry.SeenInUse`). This holds whatever
the registries answer, also when they fail or contradict themselves: each kind of evidence leads to
the version through replies of its own, and each of them looks at both.
-/

namespace CatalogSync

open Registry (RegisteredModel ModelVersion ServingRecord Inquiry question known? artifactsOf)

/-! ## §1 Replies -/

namespace Registry

/-- A reply shows a model. -/
inductive ShowsModel (model : RegisteredModel) : Event interface → Prop where
  | listed {models : List RegisteredModel} (hmodel : model ∈ models) :
      ShowsModel model ⟨.models, .ok models⟩
  | asked (id : String) : ShowsModel model ⟨.model id, .ok model⟩

/-- A reply shows a version. -/
inductive ShowsVersion (version : ModelVersion) : Event interface → Prop where
  | listed {modelId : String} {versions : List ModelVersion} (hversion : version ∈ versions) :
      ShowsVersion version ⟨.versions modelId, .ok versions⟩
  | asked (id : String) : ShowsVersion version ⟨.version id, .ok version⟩

/-- Some replies have shown a model and a version, and neither is archived. -/
structure SeenInUse (replies : Event interface → Prop) (model : RegisteredModel)
    (version : ModelVersion) : Prop where
  model_shown : ∃ e, replies e ∧ ShowsModel model e
  version_shown : ∃ e, replies e ∧ ShowsVersion version e
  model_inUse : model.isArchived = false
  version_inUse : version.isArchived = false

theorem SeenInUse.mono {replies replies' : Event interface → Prop} {model : RegisteredModel}
    {version : ModelVersion} (hseen : SeenInUse replies model version)
    (hreplies : ∀ e, replies e → replies' e) : SeenInUse replies' model version where
  model_shown := hseen.model_shown.imp fun e he => ⟨hreplies e he.1, he.2⟩
  version_shown := hseen.version_shown.imp fun e he => ⟨hreplies e he.1, he.2⟩
  model_inUse := hseen.model_inUse
  version_inUse := hseen.version_inUse

/-- The result of an inquiry has a property of what the registry was asked up to then. -/
abbrev Learns {α : Type} (i : Inquiry α) (past : List (Event interface))
    (Q : List (Event interface) → α → Prop) : Prop := i.Ensures (fun _ _ => True) Q past

variable {α : Type} {past : List (Event interface)} {Q : List (Event interface) → α → Prop}

/-- A reply is the last thing that was learned. -/
theorem learns_question (q : Query) :
    Learns (question q) past fun now reply => ⟨q, .ok reply⟩ ∈ now := by
  refine ⟨trivial, fun answer reply hreply => ?_⟩
  rw [hreply]
  exact List.mem_append_right _ (List.mem_singleton.mpr rfl)

theorem learns_known? {i : Inquiry α} (hi : Learns i past Q) :
    Learns (known? i) past fun now found => ∀ a ∈ found, Q now a := by
  unfold known?
  refine Task.ensures_outcome_bind hi fun now r _ hr => ?_
  cases r with
  | ok a =>
    refine Task.Ensures.pure fun b hb => ?_
    exact Option.some.inj hb ▸ hr a rfl
  | error f =>
    dsimp only
    split
    · exact Task.Ensures.pure fun a ha => nomatch ha
    · exact Task.Ensures.throw f

end Registry

namespace Correlation

open Registry (SeenInUse ShowsModel ShowsVersion Learns learns_question learns_known?)

/-! ## §2 One registry -/

/-- A model and a version that were shown in reply to some questions, and are in use. -/
abbrev SeenIn (past : List (Event Registry.interface)) (x : Registered) : Prop :=
  SeenInUse (· ∈ past) x.model x.version

theorem SeenIn.extend {past now : List (Event Registry.interface)} {x : Registered}
    (hseen : SeenIn past x) (hnow : past <+: now) : SeenIn now x :=
  hseen.mono fun _ he => hnow.subset he

variable {d : Deployment} {past : List (Event Registry.interface)}

theorem learns_live? (modelId versionId : String) :
    Learns (live? modelId versionId) past fun now found => ∀ x ∈ found, SeenIn now x := by
  unfold live?
  refine Task.Ensures.bind (learns_known? (learns_question (.version versionId)))
    fun now version? _ hversion => ?_
  cases version? with
  | none => exact .pure fun x hx => nomatch hx
  | some version =>
    dsimp only
    split
    · exact .pure fun x hx => nomatch hx
    next hfits =>
      have hinUse : version.isArchived = false := by
        rw [Bool.not_eq_true, Bool.or_eq_false_iff] at hfits
        exact hfits.1
      refine Task.Ensures.bind (learns_known? (learns_question (.model modelId)))
        fun later model? hlater hmodel => ?_
      cases model? with
      | none => exact .pure fun x hx => nomatch hx
      | some model =>
        refine .pure fun x hx => ?_
        by_cases harchived : model.isArchived = true
        · rw [if_pos harchived] at hx
          cases hx
        · rw [if_neg harchived] at hx
          obtain rfl := Option.some.inj hx
          exact {
            model_shown := ⟨_, hmodel model rfl, .asked modelId⟩
            version_shown := ⟨_, hlater.subset (hversion version rfl), .asked versionId⟩
            model_inUse := Bool.eq_false_iff.mpr harchived
            version_inUse := hinUse }

theorem learns_byLabels :
    Learns (byLabels d) past fun now found => ∀ x ∈ found, SeenIn now x := by
  unfold byLabels
  split
  · exact .pure fun x hx => nomatch hx
  · exact learns_live? _ _

theorem learns_byRecords (records : List ServingRecord) (known : KnownEnvironments) :
    Learns (byRecords d records known) past fun now found => ∀ x ∈ found, SeenIn now x := by
  induction records generalizing known past with
  | nil => exact .pure fun x hx => nomatch hx
  | cons record rest ih =>
    unfold byRecords
    split
    · exact ih known
    next versionId _ =>
      refine Task.Ensures.bind (.trivial _) fun now named _ _ => ?_
      dsimp only
      split
      · refine Task.Ensures.bind (learns_live? record.modelId versionId)
          fun later found _ hfound => ?_
        cases found with
        | none => exact ih _
        | some x => exact .pure hfound
      · exact ih _

/-- The models were listed before. -/
theorem learns_byName (models : List RegisteredModel)
    (hmodels : ∀ model ∈ models, ∃ e ∈ past, ShowsModel model e) :
    Learns (byName d models) past fun now found => ∀ x ∈ found, SeenIn now x := by
  induction models generalizing past with
  | nil => exact .pure fun x hx => nomatch hx
  | cons model rest ih =>
    rw [List.forall_mem_cons] at hmodels
    unfold byName
    split
    · exact ih hmodels.2
    next hinUse =>
      refine Task.Ensures.bind (learns_question (.versions model.id))
        fun now versions hnow hversions => ?_
      have hshown : ∀ {m : RegisteredModel}, (∃ e ∈ past, ShowsModel m e) →
          ∃ e ∈ now, ShowsModel m e :=
        fun ⟨e, he, hshows⟩ => ⟨e, hnow.subset he, hshows⟩
      dsimp only
      split
      next version hfound =>
        refine .pure fun x hx => ?_
        obtain rfl := Option.some.inj hx
        have htest := List.find?_some hfound
        rw [Bool.and_eq_true, Bool.not_eq_true'] at htest
        exact {
          model_shown := hshown hmodels.1
          version_shown := ⟨_, hversions, .listed (List.mem_of_find?_eq_some hfound)⟩
          model_inUse := Bool.eq_false_iff.mpr hinUse
          version_inUse := htest.1 }
      · exact ih fun m hm => hshown (hmodels.2 m hm)

theorem learns_byListing :
    Learns (byListing d) past fun now found => ∀ f ∈ found, SeenIn now f.registered := by
  unfold byListing
  refine Task.Ensures.bind (.trivial _) fun now records _ _ => ?_
  refine Task.Ensures.bind (learns_byRecords records .empty) fun later found _ hfound => ?_
  cases found with
  | some x =>
    refine .pure fun f hf => ?_
    obtain rfl := Option.some.inj hf
    exact hfound x rfl
  | none =>
    dsimp only
    split
    · refine Task.Ensures.bind (learns_question .models) fun listed models _ hmodels => ?_
      refine Task.Ensures.bind (learns_byName models fun m hm => ⟨_, hmodels, .listed hm⟩)
        fun last named _ hnamed => ?_
      refine .pure fun f hf => ?_
      obtain ⟨x, rfl, rfl⟩ := Option.map_eq_some_iff.mp hf
      exact hnamed x rfl
    · exact .pure fun f hf => nomatch hf

theorem learns_search :
    Learns (search d) past fun now found => ∀ f ∈ found, SeenIn now f.registered := by
  unfold search
  refine Task.Ensures.bind learns_byLabels fun now found _ hfound => ?_
  cases found with
  | none => exact learns_byListing
  | some x =>
    refine .pure fun f hf => ?_
    obtain rfl := Option.some.inj hf
    exact hfound x rfl

theorem learns_matchAt (endpoint : String) :
    Learns (matchAt endpoint d) past fun now found =>
      ∀ m ∈ found, m.endpoint = endpoint ∧ SeenIn now ⟨m.model, m.version⟩ := by
  unfold matchAt
  refine Task.Ensures.bind learns_search fun now found _ hfound => ?_
  cases found with
  | none => exact .pure fun m hm => nomatch hm
  | some f =>
    refine Task.Ensures.bind (.trivial _) fun later artifacts hlater _ => ?_
    refine .pure fun m hm => ?_
    obtain rfl := Option.some.inj hm
    exact ⟨rfl, (hfound f rfl).extend hlater⟩

/-! ## §3 All registries -/

/-- A question as one to the registry at an endpoint. -/
def askedAt (endpoint : String) (e : Event Registry.interface) : Event Registry.addressed :=
  ⟨⟨endpoint, e.call⟩, e.answer⟩

/-- The match was seen in use at its own registry. -/
def Match.Seen (past : List (Event Registry.addressed)) (m : Match) : Prop :=
  SeenInUse (fun e => askedAt m.endpoint e ∈ past) m.model m.version

/-- The procedure calls whatever it likes, and the result is as described. -/
theorem ensures_inquire_matchAt (endpoint : String) (past : List (Event Registry.addressed)) :
    (Registry.inquire endpoint (matchAt endpoint d)).Ensures (fun _ _ => True)
      (fun now r => ∀ m, r = .ok (some m) → m.Seen now) past := by
  unfold Registry.inquire
  refine Proc.Ensures.imp (P := fun _ _ => True) (Proc.Ensures.through_shown (askedAt endpoint)
    (learns_matchAt endpoint) fun q now => ⟨trivial, fun answer => ?_⟩) (fun _ _ h => h) ?_
  · -- Each question is put to the registry at the endpoint.
    exact List.mem_append_right _ (List.mem_singleton.mpr rfl)
  · intro now r ⟨own, hown, hr⟩ m hm
    obtain ⟨hendpoint, hseen⟩ := hr (some m) hm m rfl
    subst hendpoint
    exact hseen.mono hown

theorem ensures_firstMatch (endpoints : List String) (past : List (Event Registry.addressed)) :
    (firstMatch d endpoints).Ensures (fun _ _ => True)
      (fun now found => ∀ m ∈ found, m.Seen now) past := by
  induction endpoints generalizing past with
  | nil => exact fun m hm => nomatch hm
  | cons endpoint rest ih =>
    unfold firstMatch
    refine (ensures_inquire_matchAt endpoint past).bind fun now r _ hr => ?_
    rcases r with f | _ | found
    · exact ih now
    · exact ih now
    · exact fun m hm => hr m (congrArg Except.ok hm)

/-- Whatever the registries answer, the version that a deployment is found to serve was shown in
use. -/
theorem ensures_correlate (directory : Registry.Directory)
    (past : List (Event Registry.addressed)) :
    (correlate directory d).Ensures (fun _ _ => True)
      (fun now found => ∀ m ∈ found, m.Seen now) past :=
  ensures_firstMatch directory.toList past

end Correlation

end CatalogSync
