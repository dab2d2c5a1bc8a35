import CatalogSync.Proofs.Correlation.Matching
import CatalogSync.Proofs.Registry.Consultation
/-!
# What the evidence leads to at one registry

A kind of evidence leads to a pair of a model and a version, both in use (`Leads`). The labels of a
deployment lead to at most one pair, the serving records and the listed versions to any number of
them; a search takes the one that comes first (`LeadsFirst`), of the strongest kind of evidence that
leads to any.

This is the law of a search at one registry (`consults_search`). Nothing is asked of the registry:
its records may name anything, and its look-ups need not agree with its listings. An environment
that it does not know, or a version that is gone, does not end the search.
-/

namespace CatalogSync.Correlation

open Proc (Handler)
open Registry (RegisteredModel ModelVersion ServingRecord Replies Consults)

/-! ## §1 First elements -/

/-- The first element of a list that leads to something leads to this. -/
inductive First {α β : Type} (P : α → β → Prop) : List α → β → Prop where
  | here {a : α} {l : List α} {b : β} (ha : P a b) : First P (a :: l) b
  | later {a : α} {l : List α} {b : β} (ha : ∀ b, ¬ P a b) (hl : First P l b) : First P (a :: l) b

namespace First

variable {α β : Type} {P : α → β → Prop} {a : α} {l : List α} {b : β}

theorem exists_mem (h : First P l b) : ∃ a ∈ l, P a b := by
  induction h with
  | here ha => exact ⟨_, List.mem_cons_self, ha⟩
  | later _ _ ih =>
    obtain ⟨a, ha, hb⟩ := ih
    exact ⟨a, List.mem_cons_of_mem _ ha, hb⟩

/-- If something is led to, something is led to first. -/
theorem exists_of_mem (ha : a ∈ l) (hb : P a b) : ∃ b, First P l b := by
  induction l with
  | nil => cases ha
  | cons x l ih =>
    by_cases hx : ∃ b, P x b
    · obtain ⟨b, hb⟩ := hx
      exact ⟨b, .here hb⟩
    · rw [not_exists] at hx
      rcases List.mem_cons.mp ha with rfl | ha
      · exact absurd hb (hx b)
      · obtain ⟨b, hl⟩ := ih ha
        exact ⟨b, .later hx hl⟩

theorem cons_iff (ha : ∀ b, ¬ P a b) : First P (a :: l) b ↔ First P l b := by
  constructor
  · intro h
    cases h with
    | here hb => exact absurd hb (ha b)
    | later _ hl => exact hl
  · exact .later ha

theorem of_iff {Q : α → β → Prop} (h : First P l b) (hPQ : ∀ a b, P a b ↔ Q a b) :
    First Q l b := by
  induction h with
  | here ha => exact .here ((hPQ _ _).mp ha)
  | later ha _ ih => exact .later (fun b hb => ha b ((hPQ _ b).mpr hb)) ih

end First

/-- The first element that passes a test. -/
theorem finds_find? {α : Type} (test : α → Bool) (l : List α) :
    Finds (First (fun a b => a = b ∧ test b = true) l) (l.find? test) := by
  induction l with
  | nil => exact .of_none fun b hb => nomatch hb
  | cons a l ih =>
    rw [List.find?_cons]
    cases ha : test a with
    | true => exact .of_some (.here ⟨rfl, ha⟩)
    | false =>
      have hskip : ∀ b, ¬ (a = b ∧ test b = true) := by
        rintro b ⟨rfl, hb⟩
        exact Bool.false_ne_true (ha.symm.trans hb)
      exact ih.of_iff fun b => (First.cons_iff hskip).symm

/-! ## §2 Evidence -/

variable {σ : Type} {r : Replies} {d : Deployment}

/-- The registry has a version and a model with these ids, both are in use, and the version does not
belong to another model. -/
structure LivePair (r : Replies) (modelId versionId : String) (x : Registered) : Prop where
  model_told : r.model? modelId = some x.model
  version_told : r.version? versionId = some x.version
  model_inUse : x.model.isArchived = false
  version_inUse : x.version.isArchived = false
  -- A version that names no model may belong to any.
  parent : x.version.modelId = "" ∨ x.version.modelId = modelId

/-- The labels of the deployment give these ids. -/
structure LabelledWith (d : Deployment) (modelId versionId : String) : Prop where
  model : d.labels.get? Deployment.modelLabel = some modelId
  version : d.labels.get? Deployment.versionLabel = some versionId
  model_nonempty : modelId ≠ ""
  version_nonempty : versionId ≠ ""

theorem registryHints?_eq_some_iff {modelId versionId : String} :
    d.registryHints? = some ⟨modelId, versionId⟩ ↔ LabelledWith d modelId versionId := by
  simp only [Deployment.registryHints?, Option.bind_eq_bind, Option.bind_eq_some_iff,
    Text.nonEmpty?_eq_some_iff]
  constructor
  · rintro ⟨_, ⟨_, hmodel, rfl, hmodel'⟩, _, ⟨_, hversion, rfl, hversion'⟩, heq⟩
    cases heq
    exact ⟨hmodel, hversion, hmodel', hversion'⟩
  · intro h
    exact ⟨modelId, ⟨modelId, h.model, rfl, h.model_nonempty⟩, versionId,
      ⟨versionId, h.version, rfl, h.version_nonempty⟩, rfl⟩

/-- The labels lead to a pair in use. -/
def LabelPair (r : Replies) (d : Deployment) (x : Registered) : Prop :=
  ∃ modelId versionId, LabelledWith d modelId versionId ∧ LivePair r modelId versionId x

/-- A serving record is about the deployment: it is deployed, its environment is named like the
namespace, and its runtime begins the name. -/
structure Serves (r : Replies) (d : Deployment) (record : ServingRecord) : Prop where
  deployed : record.isDeployed = true
  environment : r.environmentName? record.environmentId = some d.ns
  runtime : ∃ runtime, record.runtime = some runtime ∧ runtime ≠ "" ∧
    runtime.toList <+: d.name.toList

theorem recordServes_iff {record : ServingRecord} {environment : String} :
    recordServes record d environment = true ↔ record.isDeployed = true ∧ environment = d.ns ∧
      ∃ runtime, record.runtime = some runtime ∧ runtime ≠ "" ∧
        runtime.toList <+: d.name.toList := by
  have hruntime (runtime : String) : record.runtime.bind Text.nonEmpty? = some runtime ↔
      record.runtime = some runtime ∧ runtime ≠ "" := by
    rw [Option.bind_eq_some_iff]
    constructor
    · rintro ⟨_, hrecord, hgiven⟩
      obtain ⟨rfl, hne⟩ := Text.nonEmpty?_eq_some_iff.mp hgiven
      exact ⟨hrecord, hne⟩
    · rintro ⟨hrecord, hne⟩
      exact ⟨runtime, hrecord, Text.nonEmpty?_eq_some_iff.mpr ⟨rfl, hne⟩⟩
  unfold recordServes
  cases hgiven : record.runtime.bind Text.nonEmpty? with
  | none =>
    dsimp only
    constructor
    · intro h
      cases h
    · rintro ⟨-, -, runtime, hrecord, hne, -⟩
      rw [(hruntime runtime).mpr ⟨hrecord, hne⟩] at hgiven
      cases hgiven
  | some runtime =>
    obtain ⟨hrecord, hne⟩ := (hruntime runtime).mp hgiven
    simp [hrecord, hne, Text.startsWith, and_assoc]

theorem leadsTo_iff {record : ServingRecord} : LeadsTo r d record ↔ Serves r d record := by
  unfold LeadsTo
  rw [Option.any_eq_true]
  constructor
  · rintro ⟨environment, henvironment, hserves⟩
    obtain ⟨hdeployed, rfl, hruntime⟩ := recordServes_iff.mp hserves
    exact ⟨hdeployed, henvironment, hruntime⟩
  · intro h
    exact ⟨d.ns, h.environment, recordServes_iff.mpr ⟨h.deployed, rfl, h.runtime⟩⟩

/-- A serving record is about the deployment and leads to a pair in use. -/
structure RecordPair (r : Replies) (d : Deployment) (record : ServingRecord) (x : Registered) :
    Prop where
  serves : Serves r d record
  live : ∃ versionId, record.versionId = some versionId ∧ LivePair r record.modelId versionId x

/-- The models with the versions that the registry lists under them. -/
def listedPairs (r : Replies) (models : List RegisteredModel) : List Registered :=
  models.flatMap fun model => (r.versions model.id).map fun version => ⟨model, version⟩

/-- The deployment is named after a pair in use. -/
structure NamePair (d : Deployment) (x : Registered) : Prop where
  model_inUse : x.model.isArchived = false
  version_inUse : x.version.isArchived = false
  name : heuristicName x.model x.version = d.name

/-- A kind of evidence leads to a pair in use. -/
def Leads (r : Replies) (d : Deployment) : Strategy → Registered → Prop
  | .labels, x => LabelPair r d x
  | .servingEnvironment, x => ∃ record ∈ r.records, RecordPair r d record x
  | .nameHeuristic, x => r.records = [] ∧ x ∈ listedPairs r r.models ∧ NamePair d x

/-- A kind of evidence leads to a pair in use, and to no other one before. -/
def LeadsFirst (r : Replies) (d : Deployment) : Strategy → Registered → Prop
  | .labels, x => LabelPair r d x
  | .servingEnvironment, x => First (RecordPair r d) r.records x
  | .nameHeuristic, x => r.records = [] ∧
      First (fun pair x => pair = x ∧ NamePair d x) (listedPairs r r.models) x

theorem LeadsFirst.inUse {strategy : Strategy} {x : Registered} (h : LeadsFirst r d strategy x) :
    x.model.isArchived = false ∧ x.version.isArchived = false := by
  cases strategy with
  | labels =>
    obtain ⟨_, _, -, hlive⟩ := h
    exact ⟨hlive.model_inUse, hlive.version_inUse⟩
  | servingEnvironment =>
    obtain ⟨_, -, -, _, -, hlive⟩ := First.exists_mem h
    exact ⟨hlive.model_inUse, hlive.version_inUse⟩
  | nameHeuristic =>
    obtain ⟨_, -, -, hname⟩ := First.exists_mem h.2
    exact ⟨hname.model_inUse, hname.version_inUse⟩

/-! ## §3 One registry -/

variable {k : Handler Registry.interface σ}

theorem consults_live? (modelId versionId : String) (s : σ) :
    Consults r k (live? modelId versionId) s (Finds (LivePair r modelId versionId)) := by
  unfold live?
  refine (Consults.lookUp rfl).bind fun found s' hfound => ?_
  replace hfound : found = r.version? versionId := hfound
  cases found with
  | none =>
    refine .pure (.of_none fun x hx => ?_)
    rw [hx.version_told] at hfound
    cases hfound
  | some version =>
    -- Only this version may be part of the pair.
    have hversion {x : Registered} (hx : LivePair r modelId versionId x) : x.version = version :=
      Option.some.inj (hx.version_told.symm.trans hfound.symm)
    dsimp only
    by_cases hrefused : (version.isArchived ||
        version.modelId != "" && version.modelId != modelId) = true
    · rw [if_pos hrefused]
      refine .pure (.of_none fun x hx => ?_)
      have hinUse := hx.version_inUse
      have hparent := hx.parent
      rw [hversion hx] at hinUse hparent
      rcases hparent with hnone | hown
      · simp [hinUse, hnone] at hrefused
      · simp [hinUse, hown] at hrefused
    · rw [if_neg hrefused]
      simp only [Bool.or_eq_true, Bool.and_eq_true, bne_iff_ne, ne_eq, not_or, not_and,
        Decidable.not_not, Bool.not_eq_true] at hrefused
      refine (Consults.lookUp rfl).bind fun found' s'' hfound' => ?_
      replace hfound' : found' = r.model? modelId := hfound'
      cases found' with
      | none =>
        refine .pure (.of_none fun x hx => ?_)
        rw [hx.model_told] at hfound'
        cases hfound'
      | some model =>
        apply Consults.pure
        cases harchived : model.isArchived with
        | true =>
          refine .of_none fun x hx => ?_
          have hinUse := hx.model_inUse
          rw [Option.some.inj (hx.model_told.symm.trans hfound'.symm), harchived] at hinUse
          cases hinUse
        | false =>
          exact .of_some ⟨hfound'.symm, hfound.symm, harchived, hrefused.1,
            Decidable.or_iff_not_imp_left.mpr hrefused.2⟩

theorem consults_byLabels (s : σ) : Consults r k (byLabels d) s (Finds (LabelPair r d)) := by
  unfold byLabels
  cases hhints : d.registryHints? with
  | none =>
    refine .pure (.of_none fun x hx => ?_)
    obtain ⟨modelId, versionId, hlabelled, -⟩ := hx
    rw [registryHints?_eq_some_iff.mpr hlabelled] at hhints
    cases hhints
  | some hints =>
    have hlabelled := registryHints?_eq_some_iff.mp hhints
    refine (consults_live? hints.modelId hints.versionId s).of_imp fun found hfound => ?_
    refine hfound.of_iff fun x => ⟨fun hlive => ⟨_, _, hlabelled, hlive⟩, ?_⟩
    rintro ⟨modelId, versionId, hother, hlive⟩
    rw [registryHints?_eq_some_iff.mpr hother] at hhints
    cases hhints
    exact hlive

theorem consults_environmentName (id : String) {known : KnownEnvironments}
    (hknown : Remembers r known) (s : σ) : Consults r k (environmentName id known) s fun named =>
      named.1 = r.environmentName? id ∧ Remembers r named.2 := by
  unfold environmentName
  cases hget : known.get? id with
  -- The name is remembered from an earlier record.
  | some name => exact .pure ⟨hknown id name hget, hknown⟩
  | none =>
    refine (Consults.lookUp rfl).bind fun found s' hfound => ?_
    subst hfound
    exact .pure ⟨rfl, remembers_insert hknown id⟩

theorem consults_byRecords (records : List ServingRecord) {known : KnownEnvironments}
    (hknown : Remembers r known) (s : σ) :
    Consults r k (byRecords d records known) s (Finds (First (RecordPair r d) records)) := by
  induction records generalizing known s with
  | nil => exact .pure (.of_none fun x hx => nomatch hx)
  | cons record rest ih =>
    have hskip (hrecord : ∀ x, ¬ RecordPair r d record x) {known : KnownEnvironments}
        (hknown : Remembers r known) (s : σ) : Consults r k (byRecords d rest known) s
          (Finds (First (RecordPair r d) (record :: rest))) :=
      (ih hknown s).of_imp fun found hfound => hfound.of_iff fun x => (First.cons_iff hrecord).symm
    unfold byRecords
    cases hversion : record.versionId with
    | none =>
      refine hskip (fun x hx => ?_) hknown s
      obtain ⟨versionId, hnamed, -⟩ := hx.live
      rw [hversion] at hnamed
      cases hnamed
    | some versionId =>
      refine (consults_environmentName record.environmentId hknown s).bind fun named s' hnamed => ?_
      obtain ⟨name, known'⟩ := named
      obtain ⟨rfl, hknown'⟩ := hnamed
      dsimp only
      by_cases hleads : LeadsTo r d record
      · rw [if_pos hleads]
        refine (consults_live? record.modelId versionId s').bind fun found s'' hfound => ?_
        cases found with
        | some x =>
          exact .pure (.of_some (.here ⟨leadsTo_iff.mp hleads, versionId, hversion,
            hfound.sound x rfl⟩))
        | none =>
          refine hskip (fun x hx => ?_) hknown' s''
          obtain ⟨other, hnamed, hlive⟩ := hx.live
          obtain rfl : versionId = other := Option.some.inj (hversion.symm.trans hnamed)
          exact hfound.complete rfl x hlive
      · rw [if_neg hleads]
        exact hskip (fun x hx => hleads (leadsTo_iff.mpr hx.serves)) hknown' s'

/-- The test by which a listed pair is chosen. -/
def isNamed (d : Deployment) (x : Registered) : Bool :=
  !x.model.isArchived && (!x.version.isArchived && heuristicName x.model x.version == d.name)

theorem isNamed_iff {x : Registered} : isNamed d x = true ↔ NamePair d x := by
  simp only [isNamed, Bool.and_eq_true, Bool.not_eq_true', beq_iff_eq]
  exact ⟨fun ⟨hmodel, hversion, hname⟩ => ⟨hmodel, hversion, hname⟩,
    fun h => ⟨h.model_inUse, h.version_inUse, h.name⟩⟩

theorem consults_byName (models : List RegisteredModel) (s : σ) :
    Consults r k (byName d models) s (· = (listedPairs r models).find? (isNamed d)) := by
  induction models generalizing s with
  | nil => exact .pure rfl
  | cons model rest ih =>
    have hpairs : (listedPairs r (model :: rest)).find? (isNamed d) =
        (((r.versions model.id).find? fun v => isNamed d ⟨model, v⟩).map (⟨model, ·⟩)).or
          ((listedPairs r rest).find? (isNamed d)) := by
      rw [listedPairs, List.flatMap_cons, List.find?_append, List.find?_map]
      rfl
    rw [hpairs]
    unfold byName
    by_cases harchived : model.isArchived = true
    · -- No version of an archived model is chosen.
      have hnone : (r.versions model.id).find? (fun v => isNamed d ⟨model, v⟩) = none := by
        simp [isNamed, harchived]
      rw [if_pos harchived, hnone]
      exact ih s
    · rw [if_neg harchived]
      refine (Consults.question rfl rfl).bind fun versions s' hversions => ?_
      have hlisted : r.versions model.id = versions := by
        rw [Replies.versions, hversions]
        rfl
      have htest : (fun v => isNamed d ⟨model, v⟩) =
          fun v : ModelVersion => !v.isArchived && heuristicName model v == d.name := by
        funext v
        rw [isNamed, Bool.eq_false_iff.mpr harchived]
        rfl
      rw [hlisted, htest]
      cases versions.find? fun v => !v.isArchived && heuristicName model v == d.name with
      | none => exact ih s'
      | some version => exact .pure rfl

/-- What a search of one registry brings: a pair that the strongest kind of evidence leads to first,
or nothing, and then no kind of evidence leads to any. -/
structure Decides (r : Replies) (d : Deployment) (found : Option Found) : Prop where
  leads : ∀ f ∈ found, LeadsFirst r d f.strategy f.registered
  strongest : ∀ f ∈ found, ∀ strategy : Strategy, strategy.rank < f.strategy.rank →
    ∀ x, ¬ Leads r d strategy x
  complete : found = none → ∀ strategy x, ¬ Leads r d strategy x

namespace Decides

theorem of_some {strategy : Strategy} {x : Registered} (hleads : LeadsFirst r d strategy x)
    (hstrongest : ∀ stronger : Strategy, stronger.rank < strategy.rank →
      ∀ y, ¬ Leads r d stronger y) : Decides r d (some ⟨strategy, x⟩) where
  leads f hf := by
    cases hf
    exact hleads
  strongest f hf := by
    cases hf
    exact hstrongest
  complete h := by cases h

theorem of_none (h : ∀ strategy x, ¬ Leads r d strategy x) : Decides r d none where
  leads f hf := by cases hf
  strongest f hf := by cases hf
  complete _ := h

end Decides

/-- Where there are no records, listed pairs are chosen by name. -/
theorem decides_of_no_records (hlabels : ∀ x, ¬ LabelPair r d x) (hempty : r.records = []) :
    Decides r d (((listedPairs r r.models).find? (isNamed d)).map (⟨.nameHeuristic, ·⟩)) := by
  have hrecords (x : Registered) : ¬ Leads r d .servingEnvironment x := by
    rintro ⟨record, hrecord, -⟩
    rw [hempty] at hrecord
    cases hrecord
  have hfinds := finds_find? (isNamed d) (listedPairs r r.models)
  cases hfind : (listedPairs r r.models).find? (isNamed d) with
  | some x =>
    refine .of_some ⟨hempty, ?_⟩ fun stronger hstronger y => ?_
    · exact (hfinds.sound x hfind).of_iff fun pair y => and_congr_right fun _ => isNamed_iff
    · cases stronger with
      | labels => exact hlabels y
      | servingEnvironment => exact hrecords y
      | nameHeuristic => exact absurd hstronger (Nat.lt_irrefl _)
  | none =>
    refine .of_none fun strategy x => ?_
    cases strategy with
    | labels => exact hlabels x
    | servingEnvironment => exact hrecords x
    | nameHeuristic =>
      rintro ⟨-, hx, hname⟩
      exact List.find?_eq_none.mp hfind x hx (isNamed_iff.mpr hname)

theorem consults_byListing (hlabels : ∀ x, ¬ LabelPair r d x) (s : σ) :
    Consults r k (byListing d) s (Decides r d) := by
  unfold byListing
  refine (Consults.question rfl rfl).bind fun records s₁ hrecords => ?_
  have hlisted : r.records = records := by
    rw [Replies.records, hrecords]
    rfl
  subst hlisted
  have hnothing : Remembers r .empty := fun id name h => by cases h
  refine (consults_byRecords r.records hnothing s₁).bind fun found s₂ hfound => ?_
  cases found with
  | some x =>
    refine .pure (.of_some (hfound.sound x rfl) fun stronger hstronger y => ?_)
    cases stronger with
    | labels => exact hlabels y
    | servingEnvironment => exact absurd hstronger (Nat.lt_irrefl _)
    | nameHeuristic => exact absurd hstronger (by decide)
  | none =>
    dsimp only
    by_cases hempty : r.records.isEmpty = true
    · rw [if_pos hempty]
      refine (Consults.question rfl rfl).bind fun models s₃ hmodels => ?_
      have hlisted : r.models = models := by
        rw [Replies.models, hmodels]
        rfl
      subst hlisted
      refine (consults_byName r.models s₃).bind fun named _ hnamed => .pure ?_
      rw [hnamed]
      exact decides_of_no_records hlabels (List.isEmpty_iff.mp hempty)
    · rw [if_neg hempty]
      refine .pure (.of_none fun strategy x => ?_)
      cases strategy with
      | labels => exact hlabels x
      | servingEnvironment =>
        rintro ⟨record, hrecord, hx⟩
        obtain ⟨y, hy⟩ := First.exists_of_mem hrecord hx
        exact hfound.complete rfl y hy
      | nameHeuristic => exact fun hx => hempty (List.isEmpty_iff.mpr hx.1)

theorem consults_search (s : σ) : Consults r k (search d) s (Decides r d) := by
  unfold search
  refine (consults_byLabels s).bind fun found s' hfound => ?_
  cases found with
  | none => exact consults_byListing (hfound.complete rfl) s'
  | some x =>
    refine .pure (.of_some (hfound.sound x rfl) fun stronger hstronger => ?_)
    exact absurd hstronger (Nat.not_lt_zero _)

/-- A match without the endpoint and the artifacts. -/
def Match.found (m : Match) : Found := ⟨m.strategy, ⟨m.model, m.version⟩⟩

theorem consults_matchAt (endpoint : String) (s : σ) :
    Consults r k (matchAt endpoint d) s fun found =>
      (∀ m ∈ found, m.endpoint = endpoint) ∧ Decides r d (found.map Match.found) := by
  unfold matchAt
  refine (consults_search s).bind fun found s' hfound => ?_
  cases found with
  | none => exact .pure ⟨fun m hm => (Option.not_mem_none m hm).elim, hfound⟩
  | some f =>
    refine (Consults.artifactsOf _).bind fun artifacts s'' _ => .pure ⟨fun m hm => ?_, hfound⟩
    cases hm
    rfl

end CatalogSync.Correlation
