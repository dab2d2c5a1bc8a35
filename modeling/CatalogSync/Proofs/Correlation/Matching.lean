import CatalogSync.Proofs.Registry.Consistency
/-!
# Searching and matching

A version is tied to a deployment in two ways. A search (`search`) starts from the deployment and
asks the registry for the version; a match (`Records.strategy?`) compares a version with the
deployment over what is already known. At a consistent registry, what a search finds is in use and
matches with the same kind of evidence.

The converse fails for one kind of records only. A match by a record looks at the version that the
record names, a search also at the model: a record is *stray* when it names a version in use
together with a model that is not the version's. When a search finds nothing and a version in use
matches nonetheless, a stray record is the reason. Both halves are `yields_search`.

Of the deployments that match a version one is published, if there are any (`server?_isSome_iff`).
-/

namespace CatalogSync.Correlation

open Registry (RegisteredModel ModelVersion ServingRecord Inquiry Replies Yields question known?)

variable {r : Replies} {d : Deployment}

/-! ## §1 Results of searches -/

/-- A search brings something with a property, if there is anything. -/
structure Finds {α : Type} (P : α → Prop) (found : Option α) : Prop where
  sound : ∀ x, found = some x → P x
  complete : found = none → ∀ x, ¬ P x

namespace Finds

variable {α : Type} {P Q : α → Prop}

theorem of_some {x : α} (hx : P x) : Finds P (some x) where
  sound y hy := by
    cases hy
    exact hx
  complete h := by cases h

theorem of_none (h : ∀ x, ¬ P x) : Finds P none where
  sound y hy := by cases hy
  complete _ := h

theorem of_iff {found : Option α} (hfound : Finds P found) (hPQ : ∀ x, P x ↔ Q x) :
    Finds Q found where
  sound x hx := (hPQ x).mp (hfound.sound x hx)
  complete h x hx := hfound.complete h x ((hPQ x).mpr hx)

end Finds

/-- A pair of a model and a version in use. -/
abbrev InUse (r : Replies) (x : Registered) : Prop := r.Live x.model x.version

/-! ## §2 Versions in use -/

/-- A listed version belongs to one model, so a pair in use is known by the id of its version. -/
theorem eq_of_version_id (hr : r.Consistent) {x : Registered} (hx : InUse r x)
    {model : RegisteredModel} (hmodel : model ∈ r.models) {version : ModelVersion}
    (hversion : version ∈ r.versions model.id) (hid : x.version.id = version.id) :
    x = ⟨model, version⟩ := by
  have hsame : x.version = version :=
    hr.version_eq_of_id hx.lists ⟨model, hmodel, hversion⟩ hid
  have hparent : x.version.modelId = x.model.id :=
    hr.parent x.model hx.model_mem x.version hx.version_mem
  rw [hsame, hr.parent model hmodel version hversion] at hparent
  have hown : x.model = model := hr.model_eq_of_id hx.model_mem hmodel hparent.symm
  rw [← hsame, ← hown]

/-- Only the pair with the given ids is found, and only if it is in use. -/
theorem yields_live? (hr : r.Consistent) (modelId versionId : String) :
    Yields r (live? modelId versionId) (Finds fun x =>
      InUse r x ∧ x.model.id = modelId ∧ x.version.id = versionId) := by
  unfold live?
  refine (Yields.ofKnown (hr.version_unknown versionId)).bind fun found hfound => ?_
  subst hfound
  cases hversion : r (.version versionId) with
  | error f =>
    apply Yields.pure
    apply Finds.of_none
    intro x hx
    -- A version in use would have been found.
    have hok := (hr.version_iff versionId x.version).mpr ⟨hx.1.lists, hx.2.2⟩
    rw [hversion] at hok
    cases hok
  | ok version =>
    obtain ⟨⟨parent, hparent, hmem⟩, hid⟩ := (hr.version_iff versionId version).mp hversion
    have hmodelId : version.modelId = parent.id := hr.parent parent hparent version hmem
    have hunique (x : Registered) (hx : InUse r x) (hxid : x.version.id = versionId) :
        x = ⟨parent, version⟩ :=
      eq_of_version_id hr hx hparent hmem (hxid.trans hid.symm)
    -- No other version has the id; whether this one counts depends on its state and model.
    show Yields r (ite _ _ _) _
    by_cases hrefused : (version.isArchived ||
        version.modelId != "" && version.modelId != modelId) = true
    · rw [if_pos hrefused]
      apply Yields.pure
      apply Finds.of_none
      intro x hx
      obtain ⟨hlive, hmodel, hxid⟩ := hx
      obtain rfl := hunique x hlive hxid
      have hown : parent.id = modelId := hmodel
      simp [hlive.version_live, hmodelId, hown] at hrefused
    · rw [if_neg hrefused]
      simp only [Bool.or_eq_true, Bool.and_eq_true, bne_iff_ne, ne_eq, not_or, not_and,
        Decidable.not_not, Bool.not_eq_true] at hrefused
      -- A listed version always names its model, so it names the one that is asked for.
      have hown : parent.id = modelId := by
        rw [← hmodelId]
        apply hrefused.2
        rw [hmodelId]
        exact hr.model_id parent hparent
      refine (Yields.ofKnown (hr.model_unknown modelId)).bind fun found hfound => ?_
      subst hfound
      rw [(hr.model_iff modelId parent).mpr ⟨hparent, hown⟩]
      apply Yields.pure
      cases harchived : parent.isArchived with
      | true =>
        apply Finds.of_none
        intro x hx
        obtain rfl := hunique x hx.1 hx.2.2
        have hlive := hx.1.model_live
        rw [harchived] at hlive
        cases hlive
      | false => exact .of_some ⟨⟨hparent, harchived, hmem, hrefused.1⟩, hown, hid⟩

/-! ## §3 The three kinds of evidence -/

/-- The labels of the deployment name the pair. -/
abbrev Labelled (r : Replies) (d : Deployment) (x : Registered) : Prop :=
  InUse r x ∧ d.registryHints? = some ⟨x.model.id, x.version.id⟩

theorem yields_byLabels (hr : r.Consistent) (d : Deployment) :
    Yields r (byLabels d) (Finds (Labelled r d)) := by
  unfold byLabels
  cases hhints : d.registryHints? with
  | none =>
    apply Yields.pure
    apply Finds.of_none
    intro x hx
    obtain ⟨-, hlabels⟩ := hx
    rw [hhints] at hlabels
    cases hlabels
  | some hints =>
    refine (yields_live? hr hints.modelId hints.versionId).of_imp fun found hfound => ?_
    refine hfound.of_iff fun x => and_congr_right fun _ => ?_
    rw [hhints, Option.some.injEq]
    constructor
    · rintro ⟨hmodel, hversion⟩
      rw [hmodel, hversion]
    · intro h
      rw [h]
      exact ⟨rfl, rfl⟩

/-- A record leads to the deployment, in the environment that the registry has for it. -/
abbrev LeadsTo (r : Replies) (d : Deployment) (record : ServingRecord) : Prop :=
  (r.environmentName? record.environmentId).any (recordServes record d ·) = true

/-- A record names the pair and leads to the deployment. -/
abbrev Names (r : Replies) (d : Deployment) (record : ServingRecord) (x : Registered) : Prop :=
  record.versionId = some x.version.id ∧ record.modelId = x.model.id ∧ LeadsTo r d record

/-- One of the records names the pair and leads to the deployment. -/
abbrev Recorded (r : Replies) (d : Deployment) (records : List ServingRecord) (x : Registered) :
    Prop :=
  InUse r x ∧ ∃ record ∈ records, Names r d record x

/-- Where the first record does not count, the rest decides. -/
theorem recorded_cons_iff {record : ServingRecord} {rest : List ServingRecord} {x : Registered}
    (hrecord : InUse r x → ¬ Names r d record x) :
    Recorded r d rest x ↔ Recorded r d (record :: rest) x := by
  refine and_congr_right fun hlive => ?_
  simp only [List.mem_cons, exists_eq_or_imp]
  exact (or_iff_right (hrecord hlive)).symm

/-- The names that are remembered are those that the registry has. -/
abbrev Remembers (r : Replies) (known : KnownEnvironments) : Prop :=
  ∀ id name, known.get? id = some name → name = r.environmentName? id

theorem remembers_insert {known : KnownEnvironments} (hknown : Remembers r known) (id : String) :
    Remembers r (known.insert id (r.environmentName? id)) := by
  intro other name hother
  rw [SortedMap.get?_insert] at hother
  -- What is new is the name of this environment.
  by_cases hid : other = id
  · subst hid
    rw [if_pos rfl] at hother
    exact (Option.some.inj hother).symm
  · rw [if_neg hid] at hother
    exact hknown other name hother

theorem yields_environmentName (hr : r.Consistent) (id : String) {known : KnownEnvironments}
    (hknown : Remembers r known) : Yields r (environmentName id known) fun named =>
      named.1 = r.environmentName? id ∧ Remembers r named.2 := by
  unfold environmentName
  cases hget : known.get? id with
  -- The name is remembered from an earlier record.
  | some name => exact .pure ⟨hknown id name hget, hknown⟩
  | none =>
    refine (Yields.ofKnown (hr.environment_unknown id)).bind fun found hfound => ?_
    subst hfound
    exact .pure ⟨rfl, remembers_insert hknown id⟩

theorem yields_byRecords (hr : r.Consistent) (d : Deployment) (records : List ServingRecord)
    {known : KnownEnvironments} (hknown : Remembers r known) :
    Yields r (byRecords d records known) (Finds (Recorded r d records)) := by
  induction records generalizing known with
  | nil =>
    apply Yields.pure
    apply Finds.of_none
    intro x hx
    obtain ⟨-, record, hrecord, -⟩ := hx
    cases hrecord
  | cons record rest ih =>
    have hskip (hrecord : ∀ x, InUse r x → ¬ Names r d record x) (known : KnownEnvironments)
        (hknown : Remembers r known) :
        Yields r (byRecords d rest known) (Finds (Recorded r d (record :: rest))) :=
      (ih hknown).of_imp fun found hfound => hfound.of_iff fun x => recorded_cons_iff (hrecord x)
    unfold byRecords
    cases hversion : record.versionId with
    | none => exact hskip (fun x _ hx => by cases hversion ▸ hx.1) known hknown
    | some versionId =>
      refine (yields_environmentName hr record.environmentId hknown).bind fun named hnamed => ?_
      obtain ⟨name, known'⟩ := named
      obtain ⟨hname, hknown'⟩ := hnamed
      dsimp only at hname hknown' ⊢
      subst hname
      -- The record counts when it leads to the deployment and names a pair in use.
      by_cases hleads : LeadsTo r d record
      · rw [if_pos hleads]
        refine (yields_live? hr record.modelId versionId).bind fun found hfound => ?_
        cases found with
        | some x =>
          obtain ⟨hlive, hmodel, hid⟩ := hfound.sound x rfl
          exact .pure (.of_some ⟨hlive, record, List.mem_cons_self, by rw [hversion, hid],
            hmodel.symm, hleads⟩)
        | none =>
          refine hskip (fun x hlive hx => ?_) known' hknown'
          obtain ⟨hid, hmodel, -⟩ := hx
          rw [hversion, Option.some.injEq] at hid
          exact hfound.complete rfl x ⟨hlive, hmodel.symm, hid.symm⟩
      · rw [if_neg hleads]
        exact hskip (fun x _ hx => hleads hx.2.2) known' hknown'

/-- The deployment is named after the pair. -/
abbrev NamedAfter (r : Replies) (d : Deployment) (models : List RegisteredModel) (x : Registered) :
    Prop :=
  InUse r x ∧ x.model ∈ models ∧ heuristicName x.model x.version = d.name

/-- Where the deployment is not named after a version of the first model, the rest decides. -/
theorem namedAfter_cons_iff {model : RegisteredModel} {rest : List RegisteredModel} {x : Registered}
    (hmodel : InUse r x → x.model = model → heuristicName x.model x.version ≠ d.name) :
    NamedAfter r d rest x ↔ NamedAfter r d (model :: rest) x := by
  refine and_congr_right fun hlive => ?_
  rw [List.mem_cons]
  constructor
  · rintro ⟨hmem, hname⟩
    exact ⟨.inr hmem, hname⟩
  · rintro ⟨hx | hmem, hname⟩
    · exact absurd hname (hmodel hlive hx)
    · exact ⟨hmem, hname⟩

theorem yields_byName (hr : r.Consistent) (d : Deployment) {models : List RegisteredModel}
    (hmodels : models ⊆ r.models) :
    Yields r (byName d models) (Finds (NamedAfter r d models)) := by
  induction models with
  | nil =>
    apply Yields.pure
    apply Finds.of_none
    intro x hx
    cases hx.2.1
  | cons model rest ih =>
    have hrest : rest ⊆ r.models := fun m hm => hmodels (List.mem_cons_of_mem _ hm)
    have hskip (hmodel : ∀ x, InUse r x → x.model = model →
        heuristicName x.model x.version ≠ d.name) :
        Yields r (byName d rest) (Finds (NamedAfter r d (model :: rest))) :=
      (ih hrest).of_imp fun found hfound => hfound.of_iff fun x => namedAfter_cons_iff (hmodel x)
    unfold byName
    by_cases harchived : model.isArchived = true
    · rw [if_pos harchived]
      -- An archived model has no version in use.
      apply hskip
      intro x hlive hx
      have hfalse := hlive.model_live
      rw [hx, harchived] at hfalse
      cases hfalse
    · rw [if_neg harchived]
      have hmodel : model ∈ r.models := hmodels List.mem_cons_self
      refine (Yields.ofQuestion (P := fun versions => versions = r.versions model.id)
        (hr.versions_eq hmodel) rfl).bind fun versions hversions => ?_
      subst hversions
      cases hfind : (r.versions model.id).find? fun v =>
          !v.isArchived && heuristicName model v == d.name with
      | some version =>
        have hmem := List.mem_of_find?_eq_some hfind
        have hfits := List.find?_some hfind
        simp only [Bool.and_eq_true, Bool.not_eq_true', beq_iff_eq] at hfits
        refine .pure (.of_some ⟨⟨hmodel, Bool.eq_false_iff.mpr harchived, hmem, hfits.1⟩,
          List.mem_cons_self, hfits.2⟩)
      | none =>
        -- A version in use with the name would have been found among the versions of the model.
        apply hskip
        intro x hlive hx hname
        have hmem := hlive.version_mem
        rw [hx] at hmem hname
        have hunfit := List.find?_eq_none.mp hfind x.version hmem
        simp [hlive.version_live, hname] at hunfit

/-! ## §4 Searches and matches -/

/-- The records match a version when one of them names it and leads to the deployment, whatever
model it names. -/
theorem serves_evidence_iff (version : ModelVersion) (d : Deployment) :
    r.evidence.serves version d = true ↔
      ∃ record ∈ r.records, record.versionId = some version.id ∧ LeadsTo r d record := by
  show (r.records.any fun record => record.versionId == some version.id &&
    (r.environments.get? record.environmentId).any (recordServes record d ·)) = true ↔ _
  rw [List.any_eq_true]
  refine exists_congr fun record => and_congr_right fun hrecord => ?_
  have henvironment : r.environments.get? record.environmentId =
      r.environmentName? record.environmentId := by
    rw [r.get?_environments, if_pos (List.mem_map.mpr ⟨record, hrecord, rfl⟩)]
  rw [henvironment, Bool.and_eq_true, beq_iff_eq]

/-- A record names a version in use together with a model that is not the version's, and leads to
the deployment. -/
abbrev Stray (r : Replies) (d : Deployment) (model : RegisteredModel) (version : ModelVersion) :
    Prop :=
  ∃ record ∈ r.records, record.versionId = some version.id ∧ record.modelId ≠ model.id ∧
    LeadsTo r d record

/-- A stray record makes a version match all the same. -/
theorem strategy?_isSome_of_stray {model : RegisteredModel} {version : ModelVersion}
    (h : Stray r d model version) : (r.evidence.strategy? model version d).isSome = true := by
  obtain ⟨record, hrecord, hversion, -, hleads⟩ := h
  have hserves := (serves_evidence_iff version d).mpr ⟨record, hrecord, hversion, hleads⟩
  unfold Records.strategy?
  by_cases hlabels : d.registryHints? = some ⟨model.id, version.id⟩
  · rw [if_pos hlabels]
    rfl
  · rw [if_neg hlabels, if_pos hserves]
    rfl

/-- Beside labels, a match rests on a record or, where there are no records, on the name. -/
theorem strategy?_of_unlabelled {model : RegisteredModel} {version : ModelVersion}
    (h : d.registryHints? ≠ some ⟨model.id, version.id⟩) :
    r.evidence.strategy? model version d =
      if r.evidence.serves version d then some .servingEnvironment
      else if r.records.isEmpty && d.name == heuristicName model version then some .nameHeuristic
      else none := by
  unfold Records.strategy?
  rw [if_neg h]
  rfl

/-- What a search brings: a version in use that matches in the same way, or nothing, and then a
version in use matches only because of a stray record. -/
structure Agrees (r : Replies) (d : Deployment) (found : Option Found) : Prop where
  live : ∀ f, found = some f → InUse r f.registered
  strategy : ∀ f, found = some f →
    r.evidence.strategy? f.registered.model f.registered.version d = some f.strategy
  -- Nothing was found, although a version in use matches.
  stray : found = none → ∀ x, InUse r x →
    (r.evidence.strategy? x.model x.version d).isSome = true → Stray r d x.model x.version

namespace Agrees

theorem of_some {strategy : Strategy} {x : Registered} (hlive : InUse r x)
    (hmatch : r.evidence.strategy? x.model x.version d = some strategy) :
    Agrees r d (some ⟨strategy, x⟩) where
  live f hf := by
    cases hf
    exact hlive
  strategy f hf := by
    cases hf
    exact hmatch
  stray h := by cases h

theorem of_none (h : ∀ x, InUse r x → (r.evidence.strategy? x.model x.version d).isSome = true →
    Stray r d x.model x.version) : Agrees r d none where
  live f hf := by cases hf
  strategy f hf := by cases hf
  stray _ := h

end Agrees

section

variable (hlabels : ∀ x, ¬ Labelled r d x)
include hlabels

/-- A record that a search follows matches the version that it names. -/
theorem strategy?_of_recorded {x : Registered} (hx : Recorded r d r.records x) :
    r.evidence.strategy? x.model x.version d = some .servingEnvironment := by
  obtain ⟨hlive, record, hrecord, hversion, -, hleads⟩ := hx
  rw [strategy?_of_unlabelled fun h => hlabels x ⟨hlive, h⟩,
    if_pos ((serves_evidence_iff x.version d).mpr ⟨record, hrecord, hversion, hleads⟩)]

/-- Without records, a match rests on the name. -/
theorem strategy?_of_no_records (hempty : r.records.isEmpty = true) {x : Registered}
    (hlive : InUse r x) : r.evidence.strategy? x.model x.version d =
      if d.name == heuristicName x.model x.version then some .nameHeuristic else none := by
  have hserves : r.evidence.serves x.version d = false := by
    rw [Bool.eq_false_iff]
    intro hserves
    obtain ⟨record, hrecord, -⟩ := (serves_evidence_iff x.version d).mp hserves
    rw [List.isEmpty_iff.mp hempty] at hrecord
    cases hrecord
  rw [strategy?_of_unlabelled fun h => hlabels x ⟨hlive, h⟩, hserves, hempty, Bool.true_and,
    if_neg Bool.false_ne_true]

/-- With records of which a search follows none, a match rests on a stray one. -/
theorem stray_of_unrecorded (hnone : ∀ x, ¬ Recorded r d r.records x)
    (hrecords : ¬ r.records.isEmpty = true) {x : Registered} (hlive : InUse r x)
    (hmatch : (r.evidence.strategy? x.model x.version d).isSome = true) :
    Stray r d x.model x.version := by
  rw [strategy?_of_unlabelled fun h => hlabels x ⟨hlive, h⟩] at hmatch
  cases hserves : r.evidence.serves x.version d with
  | true =>
    obtain ⟨record, hrecord, hversion, hleads⟩ := (serves_evidence_iff x.version d).mp hserves
    refine ⟨record, hrecord, hversion, ?_, hleads⟩
    -- With the model of the version, the record would have been followed.
    intro hmodel
    exact hnone x ⟨hlive, record, hrecord, hversion, hmodel, hleads⟩
  | false =>
    rw [hserves, Bool.eq_false_iff.mpr hrecords] at hmatch
    cases hmatch

end

theorem yields_byListing (hr : r.Consistent) (d : Deployment)
    (hlabels : ∀ x, ¬ Labelled r d x) : Yields r (byListing d) (Agrees r d) := by
  unfold byListing
  refine (Yields.ofQuestion (P := fun records => records = r.records) hr.records_eq rfl).bind
    fun records hrecords => ?_
  subst hrecords
  have hnothing : Remembers r .empty := fun id name h => by cases h
  refine (yields_byRecords hr d r.records hnothing).bind fun found hfound => ?_
  cases found with
  | some x =>
    have hx := hfound.sound x rfl
    exact .pure (.of_some hx.1 (strategy?_of_recorded hlabels hx))
  | none =>
    dsimp only
    by_cases hempty : r.records.isEmpty = true
    · -- There are no records, so the names decide.
      rw [if_pos hempty]
      refine (Yields.ofQuestion (P := fun models => models = r.models) hr.models_eq rfl).bind
        fun models hmodels => ?_
      subst hmodels
      refine (yields_byName hr d (List.Subset.refl r.models)).bind fun named hnamed => .pure ?_
      cases named with
      | some x =>
        obtain ⟨hlive, -, hname⟩ := hnamed.sound x rfl
        apply Agrees.of_some hlive
        rw [strategy?_of_no_records hlabels hempty hlive, hname, if_pos (beq_self_eq_true d.name)]
      | none =>
        apply Agrees.of_none
        intro x hlive hmatch
        rw [strategy?_of_no_records hlabels hempty hlive] at hmatch
        by_cases hname : (d.name == heuristicName x.model x.version) = true
        · exact absurd ⟨hlive, hlive.model_mem, (beq_iff_eq.mp hname).symm⟩
            (hnamed.complete rfl x)
        · rw [if_neg hname] at hmatch
          cases hmatch
    · -- There are records, so the names do not count.
      rw [if_neg hempty]
      apply Yields.pure
      apply Agrees.of_none
      intro x hlive hmatch
      exact stray_of_unrecorded hlabels (hfound.complete rfl) hempty hlive hmatch

/-- Searches and matches agree, but for stray records. -/
theorem yields_search (hr : r.Consistent) (d : Deployment) :
    Yields r (search d) (Agrees r d) := by
  unfold search
  refine (yields_byLabels hr d).bind fun found hfound => ?_
  cases found with
  | none => exact yields_byListing hr d (hfound.complete rfl)
  | some x =>
    obtain ⟨hlive, hlabels⟩ := hfound.sound x rfl
    apply Yields.pure
    apply Agrees.of_some hlive
    unfold Records.strategy?
    rw [if_pos hlabels]

/-! ## §5 The deployment that is published -/

theorem better_isSome (best : Option Candidate) (c : Candidate) :
    (Candidate.better best c).isSome = true := by
  unfold Candidate.better
  cases best with
  | none => rfl
  | some b =>
    dsimp only
    split <;> rfl

theorem better_eq (best : Option Candidate) (c : Candidate) :
    Candidate.better best c = some c ∨ Candidate.better best c = best := by
  unfold Candidate.better
  cases best with
  | none => exact .inl rfl
  | some b =>
    dsimp only
    split
    · exact .inl rfl
    · exact .inr rfl

/-- Where there is a candidate, there is a best one. -/
theorem isSome_foldl_better (candidates : List Candidate) (best : Option Candidate) :
    (candidates.foldl Candidate.better best).isSome = (best.isSome || !candidates.isEmpty) := by
  induction candidates generalizing best with
  | nil => simp
  | cons c rest ih => rw [List.foldl_cons, ih, better_isSome]; simp

/-- The best candidate is one of the candidates. -/
theorem mem_of_foldl_better {candidates : List Candidate} {best : Option Candidate} {c : Candidate}
    (h : candidates.foldl Candidate.better best = some c) : best = some c ∨ c ∈ candidates := by
  induction candidates generalizing best with
  | nil => exact .inl h
  | cons first rest ih =>
    -- Either the rest keeps the best of the first and the start, or it brings its own.
    rcases ih h with hbest | hmem
    · rcases better_eq best first with hfirst | hsame
      · obtain rfl : first = c := Option.some.inj (hfirst.symm.trans hbest)
        exact .inr List.mem_cons_self
      · exact .inl (hsame.symm.trans hbest)
    · exact .inr (List.mem_cons_of_mem _ hmem)

theorem server?_isSome_iff (records : Records) (model : RegisteredModel) (version : ModelVersion)
    (deployments : List Deployment) : (records.server? model version deployments).isSome = true ↔
      ∃ d ∈ deployments, (records.strategy? model version d).isSome = true := by
  unfold Records.server? Candidate.best?
  rw [Option.isSome_map, isSome_foldl_better]
  show (!(records.candidates model version deployments).isEmpty) = true ↔ _
  rw [Bool.not_eq_true', List.isEmpty_eq_false_iff_exists_mem]
  constructor
  · rintro ⟨c, hc⟩
    obtain ⟨d, hd, hcandidate⟩ := List.mem_filterMap.mp hc
    obtain ⟨strategy, hstrategy, -⟩ := Option.map_eq_some_iff.mp hcandidate
    exact ⟨d, hd, by rw [hstrategy]; rfl⟩
  · rintro ⟨d, hd, hmatch⟩
    obtain ⟨strategy, hstrategy⟩ := Option.isSome_iff_exists.mp hmatch
    exact ⟨⟨strategy, d⟩, List.mem_filterMap.mpr ⟨d, hd, by rw [hstrategy]; rfl⟩⟩

/-- The deployment that is published is one of those that were given. -/
theorem server?_mem {records : Records} {model : RegisteredModel} {version : ModelVersion}
    {deployments : List Deployment} {d : Deployment}
    (h : records.server? model version deployments = some d) : d ∈ deployments := by
  obtain ⟨c, hc, rfl⟩ := Option.map_eq_some_iff.mp h
  rcases mem_of_foldl_better hc with hbest | hmem
  · cases hbest
  · obtain ⟨other, hother, hcandidate⟩ := List.mem_filterMap.mp hmem
    obtain ⟨strategy, -, rfl⟩ := Option.map_eq_some_iff.mp hcandidate
    exact hother

/-! ## §6 Several registries -/

section

variable {σ : Type}

/-- The match at one registry is what the search there finds, with the artifacts of the version. -/
theorem run_matchAt (k : Proc.Handler Registry.interface σ) (endpoint : String) (d : Deployment)
    (s : σ) : ((matchAt endpoint d).proc.run k s).1 =
      ((search d).proc.run k s).1.map (Option.map fun f => {
        endpoint
        strategy := f.strategy
        model := f.registered.model
        version := f.registered.version
        artifacts := (k (.artifacts f.registered.version.id)
          ((search d).proc.run k s).2).1.toOption.getD [] }) := by
  unfold matchAt
  rw [Task.run_bind]
  cases hfound : ((search d).proc.run k s).1 with
  | error f => rfl
  | ok found =>
    cases found with
    | none => rfl
    | some f => rfl

abbrev registryOf (k : Proc.Handler Registry.addressed σ) (endpoint : String) :
    Proc.Handler Registry.interface σ := fun q => k ⟨endpoint, q⟩

theorem run_firstMatch_cons (k : Proc.Handler Registry.addressed σ) (d : Deployment)
    (endpoint : String) (rest : List String) (s : σ) :
    (firstMatch d (endpoint :: rest)).run k s =
      match (matchAt endpoint d).proc.run (registryOf k endpoint) s with
      | (.ok (some found), s') => (some found, s')
      | (_, s') => (firstMatch d rest).run k s' := by
  have hinquire : (Registry.inquire endpoint (matchAt endpoint d)).run k s =
      (matchAt endpoint d).proc.run (registryOf k endpoint) s :=
    Proc.run_through _ k (matchAt endpoint d).proc s
  rw [firstMatch, Proc.run_bind, hinquire]
  rcases (matchAt endpoint d).proc.run (registryOf k endpoint) s with ⟨_ | _ | _, s'⟩ <;> rfl

/-- The first match is the match at one of the registries. -/
theorem exists_of_firstMatch {k : Proc.Handler Registry.addressed σ} {d : Deployment}
    {endpoints : List String} {s : σ} {found : Match}
    (h : ((firstMatch d endpoints).run k s).1 = some found) :
    ∃ endpoint ∈ endpoints, ∃ s', ((matchAt endpoint d).proc.run (registryOf k endpoint) s').1 =
      .ok (some found) := by
  induction endpoints generalizing s with
  | nil => cases h
  | cons endpoint rest ih =>
    rw [run_firstMatch_cons] at h
    rcases hat : (matchAt endpoint d).proc.run (registryOf k endpoint) s with ⟨_ | _ | other, s'⟩
    · rw [hat] at h
      obtain ⟨e, he, hmatch⟩ := ih h
      exact ⟨e, List.mem_cons_of_mem _ he, hmatch⟩
    · rw [hat] at h
      obtain ⟨e, he, hmatch⟩ := ih h
      exact ⟨e, List.mem_cons_of_mem _ he, hmatch⟩
    · rw [hat] at h
      obtain rfl : other = found := Option.some.inj h
      exact ⟨endpoint, List.mem_cons_self, s, by rw [hat]⟩

/-- Without a first match, none of the registries has one. -/
theorem forall_of_firstMatch_none {k : Proc.Handler Registry.addressed σ} {d : Deployment}
    {endpoints : List String} {s : σ} (h : ((firstMatch d endpoints).run k s).1 = none) :
    ∀ endpoint ∈ endpoints, ∃ s', ∀ found,
      ((matchAt endpoint d).proc.run (registryOf k endpoint) s').1 ≠ .ok (some found) := by
  induction endpoints generalizing s with
  | nil => exact fun e he => by cases he
  | cons endpoint rest ih =>
    intro e he
    rw [run_firstMatch_cons] at h
    rcases hat : (matchAt endpoint d).proc.run (registryOf k endpoint) s with ⟨_ | _ | other, s'⟩
    · rw [hat] at h
      rcases List.mem_cons.mp he with rfl | he
      · exact ⟨s, fun found hfound => by rw [hat] at hfound; cases hfound⟩
      · exact ih h e he
    · rw [hat] at h
      rcases List.mem_cons.mp he with rfl | he
      · exact ⟨s, fun found hfound => by rw [hat] at hfound; cases hfound⟩
      · exact ih h e he
    · rw [hat] at h
      cases h

end

end CatalogSync.Correlation
