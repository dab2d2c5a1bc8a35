import CatalogSync.Catalog.Encoding
import CatalogSync.Proofs.Catalog.Merge
import CatalogSync.Proofs.Json.RoundTrip
import CatalogSync.Proofs.Naming.ImportKey
import CatalogSync.Proofs.Yaml.Lines
/-!
# Whether a document shows a server

Those who read a published document tell from what is there whether the model is served. A document
in JSON that is read back has the member with the server exactly when the entry has a server
(`shows_jsonArray`). A stream of YAML documents that is taken apart by its lines has the document of
the API, and the component names it in both its lists, exactly then (`shows_catalogInfoYaml`). And
the entry has a server exactly when a deployment with an address serves the model
(`server_iff_served`).
-/

namespace CatalogSync.Catalog

open InfoDocuments

/-! ## §1 Documents in JSON -/

namespace ModelDocument

/-- A document has the member with the server, or not. -/
def Shows (document : Bytes) (served : Bool) : Prop :=
  ∃ v, Json.ofBytes? Json document = some (.ok v) ∧ (v.member? "modelServer").isSome = served

/-- Members whose values are read as they were written. -/
def AllReadable (depth : Nat) (members : List (String × Json)) : Prop :=
  ∀ m ∈ members, Json.Readable .pretty .whole depth m.2

variable {depth : Nat}

theorem AllReadable.append {members members' : List (String × Json)}
    (h : AllReadable depth members) (h' : AllReadable depth members') :
    AllReadable depth (members ++ members') := List.forall_mem_append.mpr ⟨h, h'⟩

theorem AllReadable.cons {name : String} {v : Json} {members : List (String × Json)}
    (hv : Json.Readable .pretty .whole depth v) (h : AllReadable depth members) :
    AllReadable depth ((name, v) :: members) := List.forall_mem_cons.mpr ⟨hv, h⟩

theorem AllReadable.nil : AllReadable depth [] := List.forall_mem_nil _

theorem AllReadable.obj {members : List (String × Json)} (h : AllReadable depth members) :
    Json.Readable .pretty .whole (depth + 1) (.obj members) :=
  .obj .pretty fun m hm => ⟨.whole, rfl, h m hm⟩

theorem readable_str (s : String) : Json.Readable .pretty .whole depth (.str s) :=
  Json.readable_str .pretty .whole depth s

theorem readable_text (name : String) (value : Option String) :
    AllReadable depth (text name value) := by
  cases value with
  | none => exact .nil
  | some s => exact .cons (readable_str s) .nil

theorem readable_annotations (m : SortedMap String String) :
    AllReadable (depth + 1) (annotations m) := by
  unfold annotations
  split
  · exact .nil
  · refine .cons (AllReadable.obj fun member hmember => ?_) .nil
    obtain ⟨e, -, rfl⟩ := List.mem_map.mp hmember
    exact readable_str e.2

theorem readable_tags (s : SortedSet String) : AllReadable (depth + 1) (tags s) := by
  unfold tags
  split
  · exact .nil
  · refine .cons (.arr .pretty rfl fun item hitem => ?_) .nil
    obtain ⟨tag, -, rfl⟩ := List.mem_map.mp hitem
    exact readable_str tag

/-- The members with the names and the owner, which every model and server has. -/
theorem readable_names (name lifecycle owner : String) : AllReadable depth
    [("lifecycle", .str lifecycle), ("name", .str name), ("owner", .str owner)] :=
  .cons (readable_str _) (.cons (readable_str _) (.cons (readable_str _) .nil))

theorem readable_model (m : Model) : Json.Readable .pretty .whole (depth + 2) (model m) := by
  have hdescription : AllReadable (depth + 1) [("description", .str m.description)] :=
    .cons (readable_str _) .nil
  have hfront := (readable_annotations m.annotations).append
    (readable_text "artifactLocationURL" m.artifactLocation) |>.append hdescription
  have htexts := hfront.append (readable_text "ethics" m.ethics) |>.append
    (readable_text "howToUseURL" m.howToUse) |>.append (readable_text "license" m.license)
  have hnames := htexts.append (readable_names m.name m.lifecycle m.owner)
  exact AllReadable.obj (hnames.append (readable_text "support" m.support) |>.append
    (readable_tags m.tags) |>.append (readable_text "training" m.training) |>.append
    (readable_text "usage" m.usage))

theorem readable_api (a : Api) : Json.Readable .pretty .whole (depth + 2) (api a) := by
  have hspec : AllReadable (depth + 1) [("spec", .str a.spec)] := .cons (readable_str _) .nil
  have haddress : AllReadable (depth + 1) [("type", .str a.type.name), ("url", .str a.url)] :=
    .cons (readable_str _) (.cons (readable_str _) .nil)
  exact AllReadable.obj ((readable_annotations a.annotations).append hspec |>.append
    (readable_tags a.tags) |>.append haddress)

theorem readable_server (s : Server) : Json.Readable .pretty .whole (depth + 3) (server s) := by
  have hapi : AllReadable (depth + 2) [("API", api s.api),
      ("authentication", .bool s.authentication), ("description", .str s.description)] :=
    .cons (readable_api s.api) (.cons (Json.readable_bool .pretty .whole _ _)
      (.cons (readable_str _) .nil))
  have hfront := (readable_annotations s.annotations).append hapi |>.append
    (readable_text "homepageURL" s.homepage)
  exact AllReadable.obj (hfront.append (readable_names s.name s.lifecycle s.owner) |>.append
    (readable_tags s.tags) |>.append (readable_text "usage" s.usage))

theorem readable_ofParts (m : Model) (s : Option Server) :
    Json.Readable .pretty .whole (depth + 4) (ofParts m s) := by
  have hmodel : Json.Readable .pretty .whole (depth + 3) (.arr [model m]) :=
    .arr .pretty rfl (List.forall_mem_singleton.mpr (readable_model m))
  refine AllReadable.obj (.append (.cons hmodel .nil) ?_)
  cases s with
  | none => exact .nil
  | some server => exact .cons (readable_server server) .nil

/-- A document in JSON shows the server when there is one. -/
theorem shows_jsonArray (e : Entry) : Shows (e.encode .jsonArray) e.server.isSome := by
  refine ⟨ofParts e.model e.server, ?_, ?_⟩
  · have hreadable : Json.Readable .pretty .whole (123 + 4) (ofParts e.model e.server) :=
      readable_ofParts e.model e.server
    exact Json.ofBytes?_pretty hreadable
  · cases hserver : e.server with
    | none => rfl
    | some server => rfl

end ModelDocument

/-! ## §2 Documents in YAML -/

namespace InfoDocuments

open Yaml (Line IsPlainKey Unbroken linesOf mapLines itemLine under? besideOf? beginsItem)

/-- Documents, each given by its lines, that show a server or not. -/
structure Display (documents : List (List Line)) (served : Bool) : Prop where
  -- Without a server there are two documents.
  kinds : documents.map (besideOf? 0 "kind") =
    [some "Component".toList, some "Resource".toList] ++ if served then [some "API".toList] else []
  -- The component stands first.
  component : ∃ component spec dependencies, documents.head? = some component ∧
    under? 0 "spec" component = some spec ∧ under? 2 "dependsOn" spec = some dependencies ∧
    dependencies.any (beginsItem 2 "api:".toList) = served ∧
    (under? 2 "providesApis" spec).isSome = served

/-- A stream has the document of the API and the component names it, or neither. -/
def Shows (document : Bytes) (served : Bool) : Prop :=
  ∃ text, Text.Utf8.decode? document = some text ∧ Display (Yaml.documentsOf text.toList) served

theorem isPlainKey_root : ∀ key ∈ ["apiVersion", "kind", "metadata", "spec"], IsPlainKey 0 key := by
  decide +kernel

/-- The names of the members that may describe a component. -/
def specNames : List String :=
  ["type", "lifecycle", "owner", "dependsOn", "providesApis", "profile"]

theorem isPlainKey_spec : ∀ key ∈ specNames, IsPlainKey 2 key := by
  decide +kernel

section

variable {kind : String} {metadata : Metadata} {spec : List (String × Yaml)}

/-- No document has a list at its root. -/
theorem root_facts : ∀ m ∈ header kind metadata ++ [("spec", .map spec)],
    IsPlainKey 0 m.1 ∧ m.2.isList = false := by
  intro m hm
  refine ⟨isPlainKey_root m.1 (List.mem_map_of_mem (f := Prod.fst) hm), ?_⟩
  simp only [header, List.mem_append, List.mem_cons, List.not_mem_nil, or_false] at hm
  rcases hm with (rfl | rfl | rfl) | rfl <;> rfl

theorem besideOf?_kind (hkind : kind ∈ ["Component", "Resource", "API"]) : besideOf? 0 "kind"
      (linesOf (mapLines 0 (header kind metadata ++ [("spec", .map spec)]))) =
        some kind.toList := by
  have hwritten : ∀ kind ∈ ["Component", "Resource", "API"],
      Unbroken kind.toList ∧ Yaml.scalar 2 kind = kind.toList := by decide +kernel
  obtain ⟨hunbroken, hscalar⟩ := hwritten kind hkind
  rw [Yaml.besideOf?_mapLines (fun m hm => (root_facts m hm).1) (s := kind) rfl hunbroken,
    hscalar]

theorem under?_spec (m : String × Yaml) :
    under? 0 "spec" (linesOf (mapLines 0 (header kind metadata ++ [("spec", .map (m :: spec))]))) =
      some (linesOf (mapLines 2 (m :: spec))) :=
  Yaml.under?_map (fun m hm => (root_facts m hm).1) rfl

end

section

variable {m : Model} {s : Option Server}

/-- What the component depends on. -/
def dependencies (m : Model) (s : Option Server) : List String :=
  resourceRef m.name :: (s.map fun s => apiRef s.name).toList

theorem unbroken_dependencies (hm : Unbroken m.name.toList)
    (hs : ∀ server ∈ s, Unbroken server.name.toList) :
    ∀ d ∈ dependencies m s, Unbroken d.toList := by
  have hresource : Unbroken "resource:".toList := by decide
  have hapi : Unbroken "api:".toList := by decide
  refine List.forall_mem_cons.mpr ⟨?_, fun d hd => ?_⟩
  · rw [resourceRef, String.toList_append]
    exact Yaml.unbroken_append.mpr ⟨hresource, hm⟩
  · obtain ⟨server, hserver, rfl⟩ := Option.map_eq_some_iff.mp (Option.mem_toList.mp hd)
    rw [apiRef, String.toList_append]
    exact Yaml.unbroken_append.mpr ⟨hapi, hs server hserver⟩

/-- An API is among what the component depends on when there is a server. -/
theorem any_beginsItem_dependencies (hm : Unbroken m.name.toList)
    (hs : ∀ server ∈ s, Unbroken server.name.toList) :
    ((dependencies m s).map (itemLine 2)).any (beginsItem 2 "api:".toList) = s.isSome := by
  have hplain : ∀ c ∈ "api:".toList, Yaml.isPlainChar c = true :=
    List.all_eq_true.mp (by decide)
  obtain ⟨hmodel, hserver⟩ := List.forall_mem_cons.mp (unbroken_dependencies hm hs)
  have hresource : beginsItem 2 "api:".toList (itemLine 2 (resourceRef m.name)) = false := by
    rw [Yaml.beginsItem_itemLine 2 hplain hmodel, resourceRef, String.toList_append]
    rfl
  rw [dependencies, List.map_cons, List.any_cons, hresource, Bool.false_or]
  cases s with
  | none => rfl
  | some server =>
    have hname : Unbroken (apiRef server.name).toList := hserver _ (List.mem_singleton.mpr rfl)
    have hapi : beginsItem 2 "api:".toList (itemLine 2 (apiRef server.name)) = true := by
      rw [Yaml.beginsItem_itemLine 2 hplain hname, apiRef, String.toList_append]
      exact List.isPrefixOf_iff_prefix.mpr (List.prefix_append _ _)
    rw [Option.map_some, Option.toList_some, List.map_cons, List.any_cons, hapi]
    rfl

/-- What describes the component. -/
def componentSpec (lifecycle owner name : String) (m : Model) (s : Option Server) :
    List (String × Yaml) :=
  common "model-server" lifecycle owner ++ listMember "dependsOn" ((dependencies m s).map .text) ++
    listMember "providesApis" ((s.map (·.name)).toList.map .text) ++ profile name

variable {lifecycle owner name : String}

theorem isPlainKey_componentSpec :
    ∀ member ∈ componentSpec lifecycle owner name m s, IsPlainKey 2 member.1 := by
  intro member hmember
  have hname := List.mem_map_of_mem (f := Prod.fst) hmember
  refine isPlainKey_spec member.1 ?_
  cases s with
  | none =>
    have hnames : ∀ key ∈ ["type", "lifecycle", "owner", "dependsOn", "profile"],
        key ∈ specNames := by decide
    exact hnames _ hname
  | some server => exact hname

theorem under?_dependsOn (hm : Unbroken m.name.toList)
    (hs : ∀ server ∈ s, Unbroken server.name.toList) :
    under? 2 "dependsOn" (linesOf (mapLines 2 (componentSpec lifecycle owner name m s))) =
      some ((dependencies m s).map (itemLine 2)) :=
  Yaml.under?_texts isPlainKey_componentSpec rfl (unbroken_dependencies hm hs)

theorem isSome_under?_providesApis (hs : ∀ server ∈ s, Unbroken server.name.toList) :
    (under? 2 "providesApis"
      (linesOf (mapLines 2 (componentSpec lifecycle owner name m s)))).isSome = s.isSome := by
  cases s with
  | none =>
    have hplain : IsPlainKey 2 "providesApis" := isPlainKey_spec _ (by decide)
    have hnot : "providesApis" ∉ (componentSpec lifecycle owner name m none).map (·.1) := by
      show "providesApis" ∉ ["type", "lifecycle", "owner", "dependsOn", "profile"]
      decide
    rw [Yaml.under?_of_notMem isPlainKey_componentSpec hplain hnot]
    rfl
  | some server =>
    have hname : ∀ t ∈ [server.name], Unbroken t.toList :=
      List.forall_mem_singleton.mpr (hs server rfl)
    rw [Yaml.under?_texts isPlainKey_componentSpec rfl hname]
    rfl

/-- The documents display the server when there is one. -/
theorem display_ofParts (hm : Unbroken m.name.toList)
    (hs : ∀ server ∈ s, Unbroken server.name.toList) :
    Display ((ofParts m s).map fun d => linesOf (mapLines 0 d)) s.isSome where
  kinds := by
    have hcomponent : besideOf? 0 "kind" (linesOf (mapLines 0 (component m s))) =
        some "Component".toList := besideOf?_kind (by decide)
    have hresource : besideOf? 0 "kind"
        (linesOf (mapLines 0 (resource m (componentName m s)))) = some "Resource".toList :=
      besideOf?_kind (by decide)
    have hapi : ∀ server, besideOf? 0 "kind"
        (linesOf (mapLines 0 (api server (componentName m s)))) = some "API".toList :=
      fun server => besideOf?_kind (by decide)
    cases s with
    | none => simp [ofParts, hcomponent, hresource]
    | some server => simp [ofParts, hcomponent, hresource, hapi]
  component := ⟨_, _, _, rfl, under?_spec _, under?_dependsOn hm hs,
    any_beginsItem_dependencies hm hs, isSome_under?_providesApis hs⟩

/-- Every document is the header, without lists, and a description. -/
theorem ofParts_facts : ∀ d ∈ ofParts m s, ∀ member ∈ d,
    IsPlainKey 0 member.1 ∧ member.2.isList = false := by
  intro d hd
  rcases List.mem_append.mp hd with hd | hd
  · simp only [List.mem_cons, List.not_mem_nil, or_false] at hd
    rcases hd with rfl | rfl
    · exact root_facts
    · exact root_facts
  · obtain ⟨server, -, rfl⟩ := Option.map_eq_some_iff.mp (Option.mem_toList.mp hd)
    exact root_facts

/-- A stream of YAML documents shows the server when there is one. -/
theorem shows_catalogInfoYaml {e : Entry} (hmodel : Unbroken e.model.name.toList)
    (hserver : ∀ server ∈ e.server, Unbroken server.name.toList) :
    Shows (e.encode .catalogInfoYaml) e.server.isSome := by
  refine ⟨_, Text.Utf8.decode?_encode _, ?_⟩
  have hne : ofParts e.model e.server ≠ [] := List.cons_ne_nil _ _
  show Display (Yaml.documentsOf (render (ofParts e.model e.server)).toList) _
  rw [render, Yaml.documentsOf_join hne ofParts_facts]
  exact display_ofParts hmodel hserver

end

end InfoDocuments

/-! ## §3 Entries -/

theorem unbroken_sanitize (text : String) : Yaml.Unbroken (Name.sanitize text).toList := by
  have hascii : ∀ n < 128, Name.isNameChar (Char.ofNat n) = true →
      Yaml.isBreak (Char.ofNat n) = false := by decide +kernel
  intro c hc
  rw [Name.sanitize, String.toList_ofList] at hc
  have hname := Name.isNameChar_of_mem_sanitizeChars hc
  have hbreak := hascii c.toNat (Name.toNat_lt_of_isNameChar hname)
  rw [Char.ofNat_toNat] at hbreak
  exact hbreak hname

namespace Sources

theorem unbroken_modelName (s : Sources) : Yaml.Unbroken s.modelName.toList := by
  unfold modelName
  split
  · exact unbroken_sanitize _
  · exact unbroken_sanitize _
  · exact List.forall_mem_nil _

theorem served?_eq_some_iff {s : Sources} {d : Deployment} {url : String} :
    s.served? = some (d, url) ↔ s.deployment = some d ∧ d.statusUrl = some url ∧ url ≠ "" := by
  unfold served?
  simp only [Option.bind_eq_bind, Option.bind_eq_some_iff, Text.nonEmpty?_eq_some_iff,
    Option.some_inj, Prod.mk.injEq]
  constructor
  · rintro ⟨d, hd, url, ⟨_, hstatus, rfl, hne⟩, rfl, rfl⟩
    exact ⟨hd, hstatus, hne⟩
  · rintro ⟨hd, hstatus, hne⟩
    exact ⟨d, hd, url, ⟨url, hstatus, rfl, hne⟩, rfl, rfl⟩

/-- Whichever address is published, it is not empty. -/
theorem apiUrls_ne_empty {url : String} (hurl : url ≠ "") (internal : Option String) :
    (Deployment.apiUrls url internal).1 ≠ "" := by
  unfold Deployment.apiUrls
  dsimp only
  split
  · cases hinternal : internal.bind Text.nonEmpty? with
    | none => exact hurl
    | some address =>
      obtain ⟨_, -, haddress⟩ := Option.bind_eq_some_iff.mp hinternal
      exact (Text.nonEmpty?_eq_some_iff.mp haddress).2
  · exact hurl

/-- A server is that of the deployment that serves the model. -/
theorem serverPart?_facts {s : Sources} {server : Server} (hserver : s.serverPart? = some server) :
    ∃ d url, s.served? = some (d, url) ∧ server.name = serverName d ∧ server.api.url ≠ "" := by
  obtain ⟨⟨d, url⟩, hserved, rfl⟩ := Option.map_eq_some_iff.mp hserver
  exact ⟨d, url, hserved, rfl, apiUrls_ne_empty (served?_eq_some_iff.mp hserved).2.2 _⟩

end Sources

/-- An entry has a server exactly when a deployment with an address serves the model; the server has
an address and is named after the namespace and the name of the deployment. Both kinds of documents
show exactly whether there is one. -/
theorem server_iff_served {s : Sources} {e : Entry} (hentry : s.entry = .ok e) :
    (e.server.isSome = true ↔
      ∃ d url, s.deployment = some d ∧ d.statusUrl = some url ∧ url ≠ "") ∧
    (∀ server, e.server = some server → server.api.url ≠ "" ∧
      ∃ d, s.deployment = some d ∧
        server.name = Name.sanitize (Name.sanitize d.ns ++ "-" ++ Name.sanitize d.name)) ∧
    ModelDocument.Shows (e.encode .jsonArray) e.server.isSome ∧
    InfoDocuments.Shows (e.encode .catalogInfoYaml) e.server.isSome := by
  obtain ⟨-, hmodel, hserver⟩ := Sources.entry_facts hentry
  refine ⟨?_, ?_, ModelDocument.shows_jsonArray e, InfoDocuments.shows_catalogInfoYaml ?_ ?_⟩
  · rw [hserver, Sources.serverPart?, Option.isSome_map, Option.isSome_iff_exists]
    constructor
    · rintro ⟨⟨d, url⟩, hserved⟩
      exact ⟨d, url, Sources.served?_eq_some_iff.mp hserved⟩
    · rintro ⟨d, url, hserved⟩
      exact ⟨(d, url), Sources.served?_eq_some_iff.mpr hserved⟩
  · intro server heq
    obtain ⟨d, url, hserved, hname, hurl⟩ := Sources.serverPart?_facts (hserver.symm.trans heq)
    exact ⟨hurl, d, (Sources.served?_eq_some_iff.mp hserved).1, hname⟩
  · rw [hmodel]
    exact s.unbroken_modelName
  · intro server heq
    obtain ⟨d, url, -, hname, -⟩ := Sources.serverPart?_facts (hserver.symm.trans heq)
    rw [hname]
    exact unbroken_sanitize _

/-- A deployment that no registry knows and whose address within the cluster is empty. -/
def predictorless : Sources :=
  .ofDeployment {} { ns := "models", name := "mnist", statusUrl := some "http://mnist.models.svc" }
    (some { internalUrl := some "" })

theorem server_iff_served_predictorless : ∃ e, predictorless.entry = .ok e ∧
    e.server.isSome = true ∧ ModelDocument.Shows (e.encode .jsonArray) true ∧
    InfoDocuments.Shows (e.encode .catalogInfoYaml) true := by
  obtain ⟨e, hentry⟩ : ∃ e, predictorless.entry = .ok e := ⟨_, rfl⟩
  obtain ⟨hserved, -, hjson, hyaml⟩ := server_iff_served hentry
  have hserver : e.server.isSome = true := hserved.mpr ⟨_, _, rfl, rfl, by decide⟩
  rw [hserver] at hjson hyaml
  exact ⟨e, hentry, hserver, hjson, hyaml⟩

end CatalogSync.Catalog
