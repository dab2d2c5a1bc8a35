import CatalogSync.Proofs.Catalog.Presence
import CatalogSync.Proofs.Order.Membership
/-!
# What a document in JSON keeps

A document in JSON keeps everything of an entry's model and server but the links: reading it back,
with nothing or the empty collection for each member that was left out, gives them again
(`ofDocument?_encode`). So two entries have the same document exactly when they agree on all of that
(`encode_jsonArray_recoverable`).
-/

namespace CatalogSync.Catalog

open Json (Decoded Decodable decode)

/-- A model as a document in JSON keeps it. -/
def Model.unlinked (m : Model) : Model := { m with links := [] }

/-- A server as a document in JSON keeps it. -/
def Server.unlinked (s : Server) : Server := { s with links := [] }

instance : Decodable ApiType where
  decode v := do
    let s ← (decode v : Decoded String)
    match [ApiType.openApi, .asyncApi, .graphQl, .grpc].find? fun t => t.name == s with
    | some t => return t
    | none => throw (.refused "unknown variant")

namespace ModelDocument

/-! ## §1 Reading a document -/

/-- The tags among some members; there are none without the member. -/
def tagsOf (r : Json.Record) : Decoded (SortedSet String) :=
  (Json.Record.withDefault r "tags" ([] : List String)).map .ofList

/-- The annotations among some members; there are none without the member. -/
def annotationsOf (r : Json.Record) : Decoded (SortedMap String String) :=
  Json.Record.withDefault r "annotations" .empty

instance : Decodable Model where
  decode v := do
    let r : Json.Record ← Json.members v
    return {
      name := ← Json.Record.required r "name"
      owner := ← Json.Record.required r "owner"
      lifecycle := ← Json.Record.required r "lifecycle"
      description := ← Json.Record.required r "description"
      tags := ← tagsOf r
      artifactLocation := ← Json.Record.optional r "artifactLocationURL"
      ethics := ← Json.Record.optional r "ethics"
      howToUse := ← Json.Record.optional r "howToUseURL"
      license := ← Json.Record.optional r "license"
      support := ← Json.Record.optional r "support"
      training := ← Json.Record.optional r "training"
      usage := ← Json.Record.optional r "usage"
      annotations := ← annotationsOf r }

instance : Decodable Api where
  decode v := do
    let r : Json.Record ← Json.members v
    return {
      url := ← Json.Record.required r "url"
      spec := ← Json.Record.required r "spec"
      type := ← Json.Record.required r "type"
      tags := ← tagsOf r
      annotations := ← annotationsOf r }

instance : Decodable Server where
  decode v := do
    let r : Json.Record ← Json.members v
    return {
      name := ← Json.Record.required r "name"
      owner := ← Json.Record.required r "owner"
      lifecycle := ← Json.Record.required r "lifecycle"
      description := ← Json.Record.required r "description"
      tags := ← tagsOf r
      homepage := ← Json.Record.optional r "homepageURL"
      usage := ← Json.Record.optional r "usage"
      authentication := ← Json.Record.required r "authentication"
      annotations := ← annotationsOf r
      api := ← Json.Record.required r "API" }

/-- The models and the server that a document shows. -/
def partsOf (v : Json) : Decoded (List Model × Option Server) := do
  let r : Json.Record ← Json.members v
  return (← Json.Record.required r "models", ← Json.Record.optional r "modelServer")

/-- The models and the server that a document of bytes shows. -/
def ofDocument? (document : Bytes) : Option (List Model × Option Server) :=
  match Json.ofBytes? Json document with
  | some (.ok v) => (partsOf v).toOption
  | _ => none

/-! ## §2 Members that may be left out -/

/-- The members of an object for which there is a value. -/
def given (fields : List (String × Option Json)) : Json.Record :=
  fields.flatMap fun f => Json.optionalMember f.1 f.2

section

variable {fields : List (String × Option Json)} {name : String}

theorem find?_given_of_notMem (h : name ∉ fields.map (·.1)) :
    Json.Record.find? (given fields) name = none := by
  have hother : ∀ m ∈ given fields, ¬ (m.1 == name) = true := by
    intro m hm hname
    obtain ⟨f, hf, hmf⟩ := List.mem_flatMap.mp hm
    obtain ⟨v, -, rfl⟩ : ∃ v, f.2 = some v ∧ m = (f.1, v) := by
      cases hv : f.2 with
      | none =>
        rw [hv] at hmf
        cases hmf
      | some v =>
        rw [hv] at hmf
        exact ⟨v, rfl, List.mem_singleton.mp hmf⟩
    exact h (List.mem_map.mpr ⟨f, hf, eq_of_beq hname⟩)
  rw [Json.Record.find?, List.find?_eq_none.mpr hother]
  rfl

/-- Each member is found as it was given. -/
theorem find?_given {value : Option Json} (hdistinct : (fields.map (·.1)).Nodup)
    (h : (name, value) ∈ fields) : Json.Record.find? (given fields) name = value := by
  induction fields with
  | nil => cases h
  | cons f fields ih =>
    obtain ⟨hf, hrest⟩ := List.nodup_cons.mp hdistinct
    have hgiven : given (f :: fields) = Json.optionalMember f.1 f.2 ++ given fields := rfl
    have happend : Json.Record.find? (given (f :: fields)) name =
        (Json.Record.find? (Json.optionalMember f.1 f.2) name).or
          (Json.Record.find? (given fields) name) := by
      rw [hgiven, Json.Record.find?, List.find?_append, Option.map_or]
      rfl
    rw [happend]
    rcases List.mem_cons.mp h with rfl | h
    · rw [find?_given_of_notMem hf, Option.or_none]
      cases value with
      | none => rfl
      | some v => simp [Json.optionalMember, Json.Record.find?]
    · have hne : f.1 ≠ name := fun heq =>
        hf (List.mem_map.mpr ⟨(name, value), h, heq.symm⟩)
      have hnone : Json.Record.find? (Json.optionalMember f.1 f.2) name = none := by
        cases f.2 with
        | none => rfl
        | some v => simp [Json.optionalMember, Json.Record.find?, hne]
      rw [hnone, Option.none_or, ih hrest h]

variable (hdistinct : (fields.map (·.1)).Nodup)
include hdistinct

theorem required_given {α : Type} [Decodable α] {v : Json} {a : α}
    (h : (name, some v) ∈ fields) (hv : (decode v : Decoded α) = .ok a) :
    Json.Record.required (given fields) name = .ok a := by
  rw [Json.Record.required, find?_given hdistinct h]
  exact hv

theorem optional_given {value : Option String} (h : (name, value.map .str) ∈ fields) :
    Json.Record.optional (given fields) name = .ok value := by
  rw [Json.Record.optional, find?_given hdistinct h]
  cases value <;> rfl

end

/-! ## §3 Annotations and tags -/

/-- Annotations as a value, unless there are none. -/
def annotationsValue (m : SortedMap String String) : Option Json :=
  if m.isEmpty then none else some (.obj (m.entries.map fun e => (e.1, .str e.2)))

/-- Tags as a value, unless there are none. -/
def tagsValue (s : SortedSet String) : Option Json :=
  if s.isEmpty then none else some (.strs s.toList)

theorem annotations_eq (m : SortedMap String String) :
    annotations m = Json.optionalMember "annotations" (annotationsValue m) := by
  unfold annotations annotationsValue
  split <;> rfl

theorem tags_eq (s : SortedSet String) :
    tags s = Json.optionalMember "tags" (tagsValue s) := by
  unfold tags tagsValue
  split <;> rfl

theorem eq_empty_of_isEmpty {κ ν : Type} [LT κ] [LE κ] [Std.LawfulOrderLT κ]
    [Std.IsLinearOrder κ] {m : SortedMap κ ν} (h : m.isEmpty = true) : m = .empty := by
  obtain ⟨entries, ascending⟩ := m
  cases entries with
  | nil => rfl
  | cons e entries => cases h

theorem mapM_decode_str (l : List String) :
    (l.map Json.str).mapM (decode : Json → Decoded String) = .ok l := by
  induction l with
  | nil => rfl
  | cons s l ih =>
    rw [List.map_cons, List.mapM_cons, ih]
    rfl

theorem decode_strs (l : List String) : (decode (.strs l) : Decoded (List String)) = .ok l :=
  mapM_decode_str l

theorem decode_entries (l : List (String × String)) :
    (decode (.obj (l.map fun e => (e.1, .str e.2))) : Decoded (SortedMap String String)) =
      .ok (.ofList l) := by
  have hentries : (l.map fun e => (e.1, Json.str e.2)).mapM (fun m : String × Json => do
      return (m.1, ← (decode m.2 : Decoded String))) = (.ok l : Decoded _) := by
    induction l with
    | nil => rfl
    | cons e l ih =>
      rw [List.map_cons, List.mapM_cons, ih]
      rfl
  show (Except.bind _ fun entries => Except.ok (SortedMap.ofList entries)) = _
  rw [hentries]
  rfl

section

variable {fields : List (String × Option Json)} (hdistinct : (fields.map (·.1)).Nodup)
include hdistinct

theorem annotationsOf_given {m : SortedMap String String}
    (h : ("annotations", annotationsValue m) ∈ fields) : annotationsOf (given fields) = .ok m := by
  rw [annotationsOf, Json.Record.withDefault, find?_given hdistinct h, annotationsValue]
  cases hempty : m.isEmpty with
  | true => rw [if_pos rfl, eq_empty_of_isEmpty hempty]
  | false =>
    rw [if_neg Bool.false_ne_true]
    exact (decode_entries m.entries).trans (congrArg _ m.ofList_entries)

theorem tagsOf_given {s : SortedSet String} (h : ("tags", tagsValue s) ∈ fields) :
    tagsOf (given fields) = .ok s := by
  rw [tagsOf, Json.Record.withDefault, find?_given hdistinct h, tagsValue]
  cases hempty : SortedMap.isEmpty s with
  | true =>
    rw [if_pos rfl, eq_empty_of_isEmpty hempty]
    rfl
  | false =>
    rw [if_neg Bool.false_ne_true]
    show (decode (Json.strs s.toList) : Decoded (List String)).map SortedSet.ofList = _
    rw [decode_strs, Except.map, SortedSet.ofList_toList]

end

/-! ## §4 The parts of a document -/

def modelFields (m : Model) : List (String × Option Json) :=
  [("annotations", annotationsValue m.annotations),
    ("artifactLocationURL", m.artifactLocation.map .str), ("description", some (.str m.description)),
    ("ethics", m.ethics.map .str), ("howToUseURL", m.howToUse.map .str),
    ("license", m.license.map .str), ("lifecycle", some (.str m.lifecycle)),
    ("name", some (.str m.name)), ("owner", some (.str m.owner)),
    ("support", m.support.map .str), ("tags", tagsValue m.tags),
    ("training", m.training.map .str), ("usage", m.usage.map .str)]

theorem model_eq (m : Model) : model m = .obj (given (modelFields m)) := by
  rw [model, annotations_eq, tags_eq]
  simp only [given, modelFields, List.flatMap_cons, List.flatMap_nil, text, Json.optionalMember,
    List.append_assoc, List.append_nil, List.cons_append, List.nil_append]

theorem nodup_modelFields (m : Model) : ((modelFields m).map (·.1)).Nodup := by
  show ["annotations", "artifactLocationURL", "description", "ethics", "howToUseURL", "license",
    "lifecycle", "name", "owner", "support", "tags", "training", "usage"].Nodup
  decide

/-- A model is read back without its links. -/
theorem decode_model (m : Model) : (decode (model m) : Decoded Model) = .ok m.unlinked := by
  have hdistinct := nodup_modelFields m
  have hrequired : ∀ name s, (name, some (.str s)) ∈ modelFields m →
      Json.Record.required (given (modelFields m)) name = .ok s := fun _ _ h =>
    required_given hdistinct h rfl
  have hoptional : ∀ name value, (name, value.map .str) ∈ modelFields m →
      Json.Record.optional (given (modelFields m)) name = .ok value := fun _ _ h =>
    optional_given hdistinct h
  rw [model_eq]
  simp only [decode, Json.members, bind, Except.bind,
    hrequired "name" m.name (by simp [modelFields]),
    hrequired "owner" m.owner (by simp [modelFields]),
    hrequired "lifecycle" m.lifecycle (by simp [modelFields]),
    hrequired "description" m.description (by simp [modelFields]),
    hoptional "artifactLocationURL" m.artifactLocation (by simp [modelFields]),
    hoptional "ethics" m.ethics (by simp [modelFields]),
    hoptional "howToUseURL" m.howToUse (by simp [modelFields]),
    hoptional "license" m.license (by simp [modelFields]),
    hoptional "support" m.support (by simp [modelFields]),
    hoptional "training" m.training (by simp [modelFields]),
    hoptional "usage" m.usage (by simp [modelFields]),
    annotationsOf_given hdistinct (m := m.annotations) (by simp [modelFields]),
    tagsOf_given hdistinct (s := m.tags) (by simp [modelFields])]
  rfl

def apiFields (a : Api) : List (String × Option Json) :=
  [("annotations", annotationsValue a.annotations), ("spec", some (.str a.spec)),
    ("tags", tagsValue a.tags), ("type", some (.str a.type.name)), ("url", some (.str a.url))]

theorem api_eq (a : Api) : api a = .obj (given (apiFields a)) := by
  rw [api, annotations_eq, tags_eq]
  simp only [given, apiFields, List.flatMap_cons, List.flatMap_nil, Json.optionalMember,
    List.append_assoc, List.append_nil, List.cons_append, List.nil_append]

theorem decode_apiType (t : ApiType) : (decode (.str t.name) : Decoded ApiType) = .ok t := by
  cases t <;> rfl

theorem decode_api (a : Api) : (decode (api a) : Decoded Api) = .ok a := by
  have hdistinct : ((apiFields a).map (·.1)).Nodup := by
    show ["annotations", "spec", "tags", "type", "url"].Nodup
    decide
  have hrequired : ∀ name s, (name, some (.str s)) ∈ apiFields a →
      Json.Record.required (given (apiFields a)) name = .ok s := fun _ _ h =>
    required_given hdistinct h rfl
  have htype : Json.Record.required (given (apiFields a)) "type" = .ok a.type :=
    required_given hdistinct (by simp [apiFields]) (decode_apiType a.type)
  rw [api_eq]
  simp only [decode, Json.members, bind, Except.bind,
    hrequired "url" a.url (by simp [apiFields]),
    hrequired "spec" a.spec (by simp [apiFields]), htype,
    annotationsOf_given hdistinct (m := a.annotations) (by simp [apiFields]),
    tagsOf_given hdistinct (s := a.tags) (by simp [apiFields])]
  rfl

def serverFields (s : Server) : List (String × Option Json) :=
  [("annotations", annotationsValue s.annotations), ("API", some (api s.api)),
    ("authentication", some (.bool s.authentication)), ("description", some (.str s.description)),
    ("homepageURL", s.homepage.map .str), ("lifecycle", some (.str s.lifecycle)),
    ("name", some (.str s.name)), ("owner", some (.str s.owner)), ("tags", tagsValue s.tags),
    ("usage", s.usage.map .str)]

theorem server_eq (s : Server) : server s = .obj (given (serverFields s)) := by
  rw [server, annotations_eq, tags_eq]
  simp only [given, serverFields, List.flatMap_cons, List.flatMap_nil, text, Json.optionalMember,
    List.append_assoc, List.append_nil, List.cons_append, List.nil_append]

/-- A server is read back without its links. -/
theorem decode_server (s : Server) : (decode (server s) : Decoded Server) = .ok s.unlinked := by
  have hdistinct : ((serverFields s).map (·.1)).Nodup := by
    show ["annotations", "API", "authentication", "description", "homepageURL", "lifecycle",
      "name", "owner", "tags", "usage"].Nodup
    decide
  have hrequired : ∀ name t, (name, some (.str t)) ∈ serverFields s →
      Json.Record.required (given (serverFields s)) name = .ok t := fun _ _ h =>
    required_given hdistinct h rfl
  have hoptional : ∀ name value, (name, value.map .str) ∈ serverFields s →
      Json.Record.optional (given (serverFields s)) name = .ok value := fun _ _ h =>
    optional_given hdistinct h
  have hauthentication : Json.Record.required (given (serverFields s)) "authentication" =
      .ok s.authentication :=
    required_given hdistinct (v := .bool s.authentication) (by simp [serverFields]) rfl
  have hapi : Json.Record.required (given (serverFields s)) "API" = .ok s.api :=
    required_given hdistinct (by simp [serverFields]) (decode_api s.api)
  rw [server_eq]
  simp only [decode, Json.members, bind, Except.bind, hauthentication, hapi,
    hrequired "name" s.name (by simp [serverFields]),
    hrequired "owner" s.owner (by simp [serverFields]),
    hrequired "lifecycle" s.lifecycle (by simp [serverFields]),
    hrequired "description" s.description (by simp [serverFields]),
    hoptional "homepageURL" s.homepage (by simp [serverFields]),
    hoptional "usage" s.usage (by simp [serverFields]),
    annotationsOf_given hdistinct (m := s.annotations) (by simp [serverFields]),
    tagsOf_given hdistinct (s := s.tags) (by simp [serverFields])]
  rfl

/-! ## §5 Documents -/

theorem decode_singleton {α : Type} [Decodable α] {v : Json} {a : α}
    (h : (decode v : Decoded α) = .ok a) : (decode (.arr [v]) : Decoded (List α)) = .ok [a] := by
  show List.mapM decode [v] = _
  rw [List.mapM_cons, h]
  rfl

theorem decode_obj_some {α : Type} [Decodable α] {members : List (String × Json)} {a : α}
    (h : (decode (.obj members) : Decoded α) = .ok a) :
    (decode (.obj members) : Decoded (Option α)) = .ok (some a) := by
  show (decode (.obj members) : Decoded α).map some = _
  rw [h]
  rfl

def partsFields (m : Model) (s : Option Server) : List (String × Option Json) :=
  [("models", some (.arr [model m])), ("modelServer", s.map server)]

theorem ofParts_eq (m : Model) (s : Option Server) :
    ofParts m s = .obj (given (partsFields m s)) := by
  cases s <;> rfl

theorem partsOf_ofParts (m : Model) (s : Option Server) :
    partsOf (ofParts m s) = .ok ([m.unlinked], s.map Server.unlinked) := by
  have hdistinct : ((partsFields m s).map (·.1)).Nodup := by
    show ["models", "modelServer"].Nodup
    decide
  have hmodels : Json.Record.required (given (partsFields m s)) "models" = .ok [m.unlinked] :=
    required_given hdistinct (by simp [partsFields]) (decode_singleton (decode_model m))
  have hserver : Json.Record.optional (given (partsFields m s)) "modelServer" =
      .ok (s.map Server.unlinked) := by
    have hmem : ("modelServer", s.map server) ∈ partsFields m s := by simp [partsFields]
    rw [Json.Record.optional, find?_given hdistinct hmem]
    cases s with
    | none => rfl
    | some found => exact decode_obj_some (decode_server found)
  rw [ofParts_eq, partsOf]
  simp only [Json.members, bind, Except.bind, hmodels, hserver]
  rfl

/-- A document is read back as the model and the server of its entry, without the links. -/
theorem ofDocument?_encode (e : Entry) :
    ofDocument? (e.encode .jsonArray) = some ([e.model.unlinked], e.server.map Server.unlinked) := by
  have hreadable : Json.Readable .pretty .whole (123 + 4) (ofParts e.model e.server) :=
    readable_ofParts e.model e.server
  have hread : Json.ofBytes? Json (e.encode .jsonArray) = some (.ok (ofParts e.model e.server)) :=
    Json.ofBytes?_pretty hreadable
  rw [ofDocument?, hread]
  simp only [partsOf_ofParts]
  rfl

/-- The links are not written. -/
theorem encode_jsonArray_unlinked (e : Entry) :
    e.encode .jsonArray = Text.Utf8.encode
      (encodeParts .jsonArray e.model.unlinked (e.server.map Server.unlinked)) := by
  unfold Entry.encode
  cases e.server <;> rfl

/-- A document is read back as its entry, and two entries have the same document exactly when their
models and servers agree in all but the links. -/
theorem encode_jsonArray_recoverable :
    (∀ e : Entry, ofDocument? (e.encode .jsonArray) =
      some ([e.model.unlinked], e.server.map Server.unlinked)) ∧
    (∀ e e' : Entry, e.encode .jsonArray = e'.encode .jsonArray ↔
      e.model.unlinked = e'.model.unlinked ∧
      e.server.map Server.unlinked = e'.server.map Server.unlinked) := by
  refine ⟨ofDocument?_encode, fun e e' => ⟨fun h => ?_, fun h => ?_⟩⟩
  · have hread := ofDocument?_encode e
    rw [h, ofDocument?_encode] at hread
    obtain ⟨hmodels, hserver⟩ := Prod.mk.inj (Option.some.inj hread)
    exact ⟨(List.cons.inj hmodels).1.symm, hserver.symm⟩
  · rw [encode_jsonArray_unlinked, encode_jsonArray_unlinked, h.1, h.2]

end ModelDocument

end CatalogSync.Catalog
