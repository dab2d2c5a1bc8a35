import CatalogSync.Proofs.Catalog.Merge
import CatalogSync.Proofs.Naming.KeyGrammar
import CatalogSync.Proofs.Naming.Tag
import CatalogSync.Proofs.Order.Membership
/-!
# Valid entries

Every entry keeps to the rules of the catalog, whatever its sources say: its names, its owner and
its lifecycle are names, and all its tags are tags. The tags of a registered model are exactly the
candidates that are tags once they are trimmed and in lower case (`Sources.entry_valid`).
-/

namespace CatalogSync

open Name (WellFormed)

/-! ## §1 Labels -/

/-- What the properties of an entity offer as a tag: the name of a property without text. -/
def Registry.Properties.Labels (p : Registry.Properties) (name : String) : Prop :=
  p.get? name = some (.text "")

theorem Registry.Properties.mem_labels_iff {p : Registry.Properties} {name : String} :
    name ∈ labels p ↔ Labels p name := by
  have hentry : Labels p name ↔ (name, PropertyValue.text "") ∈ p.entries :=
    SortedMap.findEntry_eq_some_iff_mem p.ascending
  rw [hentry, labels, List.mem_filterMap]
  constructor
  · rintro ⟨⟨name', value⟩, hmem, hlabel⟩
    cases value with
    | text s =>
      by_cases hs : s = ""
      · subst hs
        cases hlabel
        exact hmem
      · simp [PropertyValue.isLabel, hs] at hlabel
    | _ => cases hlabel
  · intro hmem
    exact ⟨_, hmem, rfl⟩

namespace Catalog

open Registry.Properties (Labels mem_labels_iff)

/-! ## §2 Rules -/

/-- The rules for a model. -/
structure Model.Valid (m : Model) : Prop where
  name : WellFormed m.name
  owner : WellFormed m.owner
  lifecycle : WellFormed m.lifecycle
  tags : ∀ tag ∈ m.tags.toList, Tag.isValid tag = true

/-- The rules for a server with its API. A server may go without a name. -/
structure Server.Valid (server : Server) : Prop where
  name : server.name = "" ∨ WellFormed server.name
  owner : WellFormed server.owner
  lifecycle : WellFormed server.lifecycle
  tags : ∀ tag ∈ server.tags.toList, Tag.isValid tag = true
  apiTags : ∀ tag ∈ server.api.tags.toList, Tag.isValid tag = true

/-- The fallbacks are what sanitization leaves of some texts. -/
structure Defaults.Sanitized (d : Defaults) : Prop where
  owner : ∃ text, Name.sanitize? text = some d.owner
  lifecycle : ∃ text, Name.sanitize? text = some d.lifecycle

namespace Sources

/-! ## §3 Names -/

theorem wellFormed_joinNames {a b : String} (h : Name.sanitize a ≠ "" ∨ Name.sanitize b ≠ "") :
    WellFormed (joinNames a b) :=
  Name.wellFormed_sanitize (Name.sanitize_join_ne_empty h)

theorem joinNames_eq_empty_or (a b : String) : joinNames a b = "" ∨ WellFormed (joinNames a b) := by
  by_cases hempty : joinNames a b = ""
  · exact .inl hempty
  · exact .inr (Name.wellFormed_sanitize hempty)

/-- A model with a key has a name: something is left of what both are made from. -/
theorem wellFormed_modelName {s : Sources} {key : ImportKey} (hkey : s.key = .ok key) :
    WellFormed s.modelName := by
  unfold Sources.key at hkey
  unfold modelName
  split at hkey
  · exact wellFormed_joinNames (.inl (ImportKey.join_eq_ok_iff.mp hkey).1)
  · exact wellFormed_joinNames (.inl (ImportKey.join_eq_ok_iff.mp hkey).1)
  · cases hkey

theorem wellFormed_owner {s : Sources} (hdefaults : s.defaults.Sanitized) :
    WellFormed s.owner := by
  unfold owner
  cases hname : (s.property? .owner).bind Name.sanitize? with
  | none => exact Name.wellFormed_getD hdefaults.owner
  | some name =>
    obtain ⟨text, -, htext⟩ := Option.bind_eq_some_iff.mp hname
    exact Name.wellFormed_of_sanitize? htext

theorem wellFormed_lifecycle {s : Sources} (hdefaults : s.defaults.Sanitized) :
    WellFormed s.lifecycle :=
  Name.wellFormed_getD hdefaults.lifecycle

/-! ## §4 Tags -/

/-- A set of what candidates stand for holds tags only, wherever the candidates are from. -/
theorem isValid_of_mem_ofList {α : Type} {tag? : α → Option String} {l : List α}
    (hvalid : ∀ a tag, tag? a = some tag → Tag.isValid tag = true) :
    ∀ tag ∈ (SortedSet.ofList (l.filterMap tag?)).toList, Tag.isValid tag = true := by
  intro tag htag
  rw [SortedSet.mem_toList_ofList] at htag
  obtain ⟨a, -, ha⟩ := List.mem_filterMap.mp htag
  exact hvalid a tag ha

theorem isValid_of_mem_labelTags {d : Deployment} :
    ∀ tag ∈ (labelTags d).toList, Tag.isValid tag = true :=
  isValid_of_mem_ofList fun _ _ => Tag.isValid_of_normalize?

/-- The texts that a registered model offers as tags. -/
inductive Candidate (s : Sources) : String → Prop where
  | ofModel {model : Registry.RegisteredModel} {name : String} (hmodel : s.model = some model)
      (hlabel : Labels model.properties name) : Candidate s name
  | ofVersion {version : Registry.ModelVersion} {name : String}
      (hversion : s.version = some version) (hlabel : Labels version.properties name) :
      Candidate s name
  | ofArtifact {artifact : Registry.Artifact} {name : String} (hartifact : artifact ∈ s.artifacts)
      (hlabel : Labels artifact.properties name) : Candidate s name
  | format {d : Deployment} {format : String} (hdeployment : s.deployment = some d)
      (hformat : d.modelFormat = some format) : Candidate s format

theorem registered?_eq_some_iff {s : Sources} {model : Registry.RegisteredModel}
    {version : Registry.ModelVersion} :
    s.registered? = some (model, version) ↔ s.model = some model ∧ s.version = some version := by
  unfold registered?
  cases s.model <;> cases s.version <;> simp

/-- The candidates are the labels of the registry and the format. -/
theorem candidate_iff {s : Sources} {model : Registry.RegisteredModel}
    {version : Registry.ModelVersion} (hregistered : s.registered? = some (model, version))
    {candidate : String} :
    s.Candidate candidate ↔ candidate ∈ registryLabels model version s.artifacts ∨
      s.deployment.bind (·.modelFormat) = some candidate := by
  obtain ⟨hmodel, hversion⟩ := registered?_eq_some_iff.mp hregistered
  simp only [registryLabels, List.mem_append, List.mem_flatMap, mem_labels_iff,
    Option.bind_eq_some_iff]
  constructor
  · intro hcandidate
    cases hcandidate with
    | ofModel hmodel' hlabel =>
      cases hmodel.symm.trans hmodel'
      exact .inl (.inl (.inl hlabel))
    | ofVersion hversion' hlabel =>
      cases hversion.symm.trans hversion'
      exact .inl (.inl (.inr hlabel))
    | ofArtifact hartifact hlabel => exact .inl (.inr ⟨_, hartifact, hlabel⟩)
    | format hdeployment hformat => exact .inr ⟨_, hdeployment, hformat⟩
  · rintro (((hlabel | hlabel) | ⟨artifact, hartifact, hlabel⟩) | ⟨d, hdeployment, hformat⟩)
    · exact .ofModel hmodel hlabel
    · exact .ofVersion hversion hlabel
    · exact .ofArtifact hartifact hlabel
    · exact .format hdeployment hformat

/-- The tags of a registered model are its candidates, as far as they are tags. -/
theorem mem_modelTags_iff {s : Sources} {model : Registry.RegisteredModel}
    {version : Registry.ModelVersion} (hregistered : s.registered? = some (model, version))
    {tag : String} :
    tag ∈ s.modelTags.toList ↔ ∃ candidate, s.Candidate candidate ∧
      tag = Text.lower (Text.trim candidate) ∧ Tag.isValid tag = true := by
  have hmem : tag ∈ s.modelTags.toList ↔ ∃ candidate,
      (candidate ∈ registryLabels model version s.artifacts ∨
        s.deployment.bind (·.modelFormat) = some candidate) ∧
      Tag.normalize? candidate = some tag := by
    rw [modelTags, hregistered]
    simp only [SortedSet.mem_toList_addAll, SortedSet.mem_toList_ofList, List.mem_filterMap,
      Option.mem_toList, Option.bind_eq_some_iff (f := Tag.normalize?), or_and_right, exists_or]
    exact or_comm
  simp only [hmem, candidate_iff hregistered, Tag.normalize?_eq_some_iff]

theorem isValid_of_mem_modelTags {s : Sources} :
    ∀ tag ∈ s.modelTags.toList, Tag.isValid tag = true := by
  intro tag htag
  rw [modelTags, SortedSet.mem_toList_addAll, Option.mem_toList] at htag
  rcases htag with hformat | htag
  · obtain ⟨format, -, hformat⟩ := Option.bind_eq_some_iff.mp hformat
    exact Tag.isValid_of_normalize? hformat
  · split at htag
    · exact isValid_of_mem_ofList (fun _ _ => Tag.isValid_of_normalize?) tag htag
    · exact isValid_of_mem_labelTags tag htag
    · cases htag

/-! ## §5 Entries -/

theorem valid_modelPart {s : Sources} {key : ImportKey} (hdefaults : s.defaults.Sanitized)
    (hkey : s.key = .ok key) : s.modelPart.Valid where
  name := wellFormed_modelName hkey
  owner := wellFormed_owner hdefaults
  lifecycle := wellFormed_lifecycle hdefaults
  tags := isValid_of_mem_modelTags

theorem valid_serverPart? {s : Sources} (hdefaults : s.defaults.Sanitized) {server : Server}
    (hserver : s.serverPart? = some server) : server.Valid := by
  obtain ⟨⟨d, url⟩, -, rfl⟩ := Option.map_eq_some_iff.mp hserver
  exact {
    name := joinNames_eq_empty_or d.ns d.name
    owner := wellFormed_owner hdefaults
    lifecycle := wellFormed_lifecycle hdefaults
    tags := isValid_of_mem_labelTags
    apiTags := isValid_of_mem_labelTags }

/-- An entry keeps to the rules of the catalog when the fallbacks do, and the tags of a registered
model are those of its candidates that are tags, trimmed and in lower case. -/
theorem entry_valid {s : Sources} {entry : Entry} (hdefaults : s.defaults.Sanitized)
    (hentry : s.entry = .ok entry) :
    entry.model.Valid ∧ (∀ server, entry.server = some server → server.Valid) ∧
      ∀ model version, s.registered? = some (model, version) →
        ∀ tag, tag ∈ entry.model.tags.toList ↔ ∃ candidate, s.Candidate candidate ∧
          tag = Text.lower (Text.trim candidate) ∧ Tag.isValid tag = true := by
  obtain ⟨key, hkey, rfl⟩ := entry_eq_ok_iff.mp hentry
  refine ⟨valid_modelPart hdefaults hkey, fun server hserver => valid_serverPart? hdefaults hserver,
    fun model version hregistered tag => ?_⟩
  exact mem_modelTags_iff hregistered

/-- A served version with three labels, one of which is no tag. -/
def granite : Sources :=
  .ofVersion { owner := "platform", lifecycle := "production" }
    { id := "1", name := "Granite 3", properties := .ofList [(" LLM ", .text "")] }
    { id := "2", name := "v1", properties := .ofList [("fine tuned", .text "")] }
    [{ id := "3", properties := .ofList [("gpu", .text "")] }]
    (some { ns := "models", name := "granite", labels := .ofList [("team", "AI")],
            statusUrl := some "http://granite.models.svc", modelFormat := some "vllm" })
    none

theorem entry_valid_granite : granite.defaults.Sanitized ∧ ∃ entry, granite.entry = .ok entry ∧
    entry.model.Valid ∧ (∃ server, entry.server = some server ∧ server.Valid) ∧
    (∀ tag ∈ ["llm", "gpu", "vllm"], tag ∈ entry.model.tags.toList) ∧
    "fine tuned" ∉ entry.model.tags.toList := by
  have hdefaults : granite.defaults.Sanitized :=
    ⟨⟨"platform", by decide⟩, ⟨"production", by decide⟩⟩
  obtain ⟨key, hkey⟩ : ∃ key, granite.key = .ok key := ⟨_, rfl⟩
  obtain ⟨hmodel, hserver, htags⟩ := entry_valid hdefaults (entry_of_key hkey)
  have htag := htags _ _ rfl
  refine ⟨hdefaults, _, entry_of_key hkey, hmodel, ⟨_, rfl, hserver _ rfl⟩, ?_, fun hmem => ?_⟩
  · intro tag hmem
    rw [htag]
    simp only [List.mem_cons, List.not_mem_nil, or_false] at hmem
    rcases hmem with rfl | rfl | rfl
    · exact ⟨" LLM ", .ofModel rfl rfl, by decide, by decide⟩
    · exact ⟨"gpu", .ofArtifact List.mem_cons_self rfl, by decide, by decide⟩
    · exact ⟨"vllm", .format rfl rfl, by decide, by decide⟩
  · obtain ⟨candidate, -, -, hvalid⟩ := (htag "fine tuned").mp hmem
    exact absurd hvalid (by decide)

end Sources

end Catalog

end CatalogSync
