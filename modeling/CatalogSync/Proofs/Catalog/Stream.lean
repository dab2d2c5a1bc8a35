import CatalogSync.Proofs.Catalog.Presence
import CatalogSync.Proofs.Yaml.Stream
/-!
# The stream of an entry's documents

Whatever texts an entry holds, its stream is cut at the marks into the component, the resource and,
when the entry has a server, the API, each as it is written by itself (`stream_intact`). And what
these documents say about each other is right: each reference names a document of the stream, and a
document depends on another exactly when that one says so, too (`linked_ofParts`).

To YAML every break ends a line. A reader to whom only newlines do cuts a stream at the same places
unless a name ends in another break (`cutAtMarks_newline_of_names`), which the names of entries that
were made from sources never do (`cutAtMarks_newline`).
-/

namespace CatalogSync.Catalog

namespace InfoDocuments

open Yaml (cutAtMarks Ended EndsPlainly isBreak isNewline linesOf mapLines mark)

/-! ## §1 What a document says -/

/-- The text under a name. -/
def textAt? (name : String) (members : List (String × Yaml)) : Option String :=
  match members.lookup name with
  | some (.text s) => some s
  | _ => none

/-- The texts in the list under a name. -/
def textsAt (name : String) (members : List (String × Yaml)) : List String :=
  match members.lookup name with
  | some (.list items) => items.filterMap fun
    | .text s => some s
    | _ => none
  | _ => []

/-- The members of the map under a name. -/
def mapAt (name : String) (members : List (String × Yaml)) : List (String × Yaml) :=
  match members.lookup name with
  | some (.map inner) => inner
  | _ => []

def kindOf? (d : Document) : Option String := textAt? "kind" d

def nameOf? (d : Document) : Option String := textAt? "name" (mapAt "metadata" d)

/-- The references of a document in one of the lists of its description. -/
def referencesIn (list : String) (d : Document) : List String := textsAt list (mapAt "spec" d)

/-- The reference to a document: its kind in lower case, a colon and its name. -/
def referenceTo? (d : Document) : Option String := do
  let kind ← kindOf? d
  let name ← nameOf? d
  return String.ofList (kind.toList.map Char.toLower) ++ ":" ++ name

/-- What a document says about itself and others. -/
structure Says (d : Document) (kind reference : String)
    (dependsOn dependencyOf providesApis : List String) : Prop where
  kind : kindOf? d = some kind
  reference : referenceTo? d = some reference
  dependsOn : referencesIn "dependsOn" d = dependsOn
  dependencyOf : referencesIn "dependencyOf" d = dependencyOf
  providesApis : referencesIn "providesApis" d = providesApis

section

variable {m : Model} {s : Option Server}

theorem referenceTo?_eq {d : Document} {kind front name : String} (hkind : kindOf? d = some kind)
    (hname : nameOf? d = some name)
    (hfront : String.ofList (kind.toList.map Char.toLower) ++ ":" = front) :
    referenceTo? d = some (front ++ name) := by
  rw [referenceTo?, hkind, hname, ← hfront]
  rfl

theorem says_component : Says (component m s) "Component" (componentRef (componentName m s))
    (dependencies m s) [] (s.map (·.name)).toList where
  kind := rfl
  reference := by
    cases s <;> exact referenceTo?_eq rfl rfl (by decide)
  dependsOn := by cases s <;> rfl
  dependencyOf := by cases s <;> rfl
  providesApis := by cases s <;> rfl

theorem says_resource (component : String) : Says (resource m component) "Resource"
    (resourceRef m.name) [] [componentRef component] [] where
  kind := rfl
  reference := referenceTo?_eq rfl rfl (by decide)
  dependsOn := rfl
  dependencyOf := rfl
  providesApis := rfl

theorem says_api (server : Server) (component : String) : Says (api server component) "API"
    (apiRef server.name) [] [componentRef component] [] where
  kind := rfl
  reference := referenceTo?_eq rfl rfl (by decide)
  dependsOn := rfl
  dependencyOf := rfl
  providesApis := rfl

/-! ## §2 References -/

/-- Documents that refer to each other, and to nothing else. -/
structure Linked (documents : List Document) : Prop where
  -- A reference by kind and name is to a document of that kind.
  references : ∀ d ∈ documents, ∀ r ∈ referencesIn "dependsOn" d ++ referencesIn "dependencyOf" d,
    ∃ e ∈ documents, referenceTo? e = some r
  -- A reference by name alone is to an API.
  provided : ∀ d ∈ documents, ∀ name ∈ referencesIn "providesApis" d,
    ∃ e ∈ documents, kindOf? e = some "API" ∧ nameOf? e = some name
  -- Each of two documents says that one depends on the other, or neither does.
  inverse : ∀ d ∈ documents, ∀ e ∈ documents,
    (∃ r, referenceTo? e = some r ∧ r ∈ referencesIn "dependsOn" d) ↔
      ∃ r, referenceTo? d = some r ∧ r ∈ referencesIn "dependencyOf" e

theorem mem_ofParts {d : Document} : d ∈ ofParts m s ↔
    d = component m s ∨ d = resource m (componentName m s) ∨
      ∃ server ∈ s, d = api server (componentName m s) := by
  cases s <;> simp [ofParts]

/-- References to documents of different kinds differ. -/
theorem references_ne (a b : String) : componentRef a ≠ resourceRef b ∧ componentRef a ≠ apiRef b ∧
    resourceRef a ≠ apiRef b := by
  have hhead : ∀ {front front' : String} {c c' : Char}, front.toList.head? = some c →
      front'.toList.head? = some c' → c ≠ c' → front ++ a ≠ front' ++ b := by
    intro front front' c c' hc hc' hne heq
    have hheads := congrArg (fun t : String => t.toList.head?) heq
    simp only [String.toList_append, List.head?_append, hc, hc', Option.some_or,
      Option.some_inj] at hheads
    exact hne hheads
  exact ⟨hhead rfl rfl (by decide), hhead rfl rfl (by decide), hhead rfl rfl (by decide)⟩

theorem mem_dependencies {r : String} : r ∈ dependencies m s ↔
    r = resourceRef m.name ∨ ∃ server ∈ s, r = apiRef server.name := by
  cases s <;> simp [dependencies]

theorem says_of_mem {d : Document} (hd : d ∈ ofParts m s) :
    Says d "Component" (componentRef (componentName m s)) (dependencies m s) []
      (s.map (·.name)).toList ∨
    Says d "Resource" (resourceRef m.name) [] [componentRef (componentName m s)] [] ∨
    ∃ server ∈ s, Says d "API" (apiRef server.name) [] [componentRef (componentName m s)] [] := by
  rcases mem_ofParts.mp hd with rfl | rfl | ⟨server, hserver, rfl⟩
  · exact .inl says_component
  · exact .inr (.inl (says_resource _))
  · exact .inr (.inr ⟨server, hserver, says_api _ _⟩)

/-- Whether two documents say the same about each other is seen from the texts. -/
theorem Says.inverse {d e : Document} {kind kind' reference reference' : String}
    {dependsOn dependencyOf providesApis dependsOn' dependencyOf' providesApis' : List String}
    (hd : Says d kind reference dependsOn dependencyOf providesApis)
    (he : Says e kind' reference' dependsOn' dependencyOf' providesApis')
    (h : reference' ∈ dependsOn ↔ reference ∈ dependencyOf') :
    (∃ r, referenceTo? e = some r ∧ r ∈ referencesIn "dependsOn" d) ↔
      ∃ r, referenceTo? d = some r ∧ r ∈ referencesIn "dependencyOf" e := by
  simp only [hd.reference, he.reference, hd.dependsOn, he.dependencyOf, Option.some_inj,
    exists_eq_left']
  exact h

/-- The component depends on the other documents, and they say so; nothing else is said. -/
theorem dependsOn_iff {d e : Document} (hd : d ∈ ofParts m s) (he : e ∈ ofParts m s) :
    (∃ r, referenceTo? e = some r ∧ r ∈ referencesIn "dependsOn" d) ↔
      ∃ r, referenceTo? d = some r ∧ r ∈ referencesIn "dependencyOf" e := by
  have hother : ∀ r, r ≠ componentRef (componentName m s) →
      r ∉ [componentRef (componentName m s)] := fun r hr hmem => hr (List.mem_singleton.mp hmem)
  have hresource := hother _ (Ne.symm (references_ne (componentName m s) m.name).1)
  have hapi : ∀ server : Server, apiRef server.name ∉ [componentRef (componentName m s)] :=
    fun server => hother _ (Ne.symm (references_ne (componentName m s) server.name).2.1)
  have hself : componentRef (componentName m s) ∉ dependencies m s := by
    intro hmem
    rcases mem_dependencies.mp hmem with heq | ⟨server, -, heq⟩
    · exact (references_ne _ _).1 heq
    · exact (references_ne _ _).2.1 heq
  rcases says_of_mem hd with hd | hd | ⟨server, -, hd⟩
  · rcases says_of_mem he with he | he | ⟨server, hserver, he⟩
    · exact hd.inverse he (iff_of_false hself List.not_mem_nil)
    · exact hd.inverse he (iff_of_true (mem_dependencies.mpr (.inl rfl)) List.mem_cons_self)
    · exact hd.inverse he (iff_of_true (mem_dependencies.mpr (.inr ⟨server, hserver, rfl⟩))
        List.mem_cons_self)
  · rcases says_of_mem he with he | he | ⟨_, -, he⟩
    · exact hd.inverse he (iff_of_false List.not_mem_nil List.not_mem_nil)
    · exact hd.inverse he (iff_of_false List.not_mem_nil hresource)
    · exact hd.inverse he (iff_of_false List.not_mem_nil hresource)
  · rcases says_of_mem he with he | he | ⟨_, -, he⟩
    · exact hd.inverse he (iff_of_false List.not_mem_nil List.not_mem_nil)
    · exact hd.inverse he (iff_of_false List.not_mem_nil (hapi server))
    · exact hd.inverse he (iff_of_false List.not_mem_nil (hapi server))

theorem linked_ofParts (m : Model) (s : Option Server) : Linked (ofParts m s) where
  references d hd r hr := by
    have hcomponent : component m s ∈ ofParts m s := mem_ofParts.mpr (.inl rfl)
    have hresource : resource m (componentName m s) ∈ ofParts m s :=
      mem_ofParts.mpr (.inr (.inl rfl))
    rcases says_of_mem hd with hsaid | hsaid | ⟨server, hserver, hsaid⟩ <;>
      rw [hsaid.dependsOn, hsaid.dependencyOf] at hr
    · rw [List.append_nil, mem_dependencies] at hr
      rcases hr with rfl | ⟨server, hserver, rfl⟩
      · exact ⟨_, hresource, (says_resource _).reference⟩
      · exact ⟨_, mem_ofParts.mpr (.inr (.inr ⟨server, hserver, rfl⟩)), (says_api _ _).reference⟩
    · obtain rfl := List.mem_singleton.mp hr
      exact ⟨_, hcomponent, says_component.reference⟩
    · obtain rfl := List.mem_singleton.mp hr
      exact ⟨_, hcomponent, says_component.reference⟩
  provided d hd name hname := by
    rcases says_of_mem hd with hsaid | hsaid | ⟨_, -, hsaid⟩ <;> rw [hsaid.providesApis] at hname
    · obtain ⟨server, hserver, rfl⟩ := Option.map_eq_some_iff.mp (Option.mem_toList.mp hname)
      exact ⟨_, mem_ofParts.mpr (.inr (.inr ⟨server, hserver, rfl⟩)), rfl, rfl⟩
    · cases hname
    · cases hname
  inverse _ hd _ he := dependsOn_iff hd he

end

/-! ## §3 Streams -/

/-- Each document of an entry ends its last line for a reader of YAML. -/
theorem ended_mapLines_document (d : Document) : Ended isBreak (mapLines 0 d) := by
  obtain ⟨lines, hspells, -⟩ := Yaml.exists_spells_mapLines 0 d
  exact hspells.ended

/-- The stream of an entry is cut at the marks into its documents, which have no mark of their own
and refer to each other. -/
theorem stream_intact (e : Entry) :
    ∃ text, Text.Utf8.decode? (e.encode .catalogInfoYaml) = some text ∧
      cutAtMarks isBreak text.toList =
        (ofParts e.model e.server).map (fun d => (Yaml.document d).toList) ∧
      (∀ d ∈ ofParts e.model e.server, mark ∉ linesOf (Yaml.document d).toList) ∧
      (ofParts e.model e.server).map kindOf? =
        [some "Component", some "Resource"] ++ (if e.server.isSome then [some "API"] else []) ∧
      Linked (ofParts e.model e.server) := by
  refine ⟨_, Text.Utf8.decode?_encode _, ?_, fun d hd => ?_, ?_, linked_ofParts _ _⟩
  · exact Yaml.cutAtMarks_join (fun _ h => h) rfl (List.cons_ne_nil _ _) ofParts_facts
      fun d _ => ended_mapLines_document d
  · rw [Yaml.document, String.toList_ofList]
    exact Yaml.mark_notMem_linesOf (ofParts_facts d hd)
  · cases e.server <;> rfl

/-! ## §4 Readers that know newlines only -/

/-- A document ends with the name that is shown. -/
theorem ended_document_newline {kind name : String} {metadata : Metadata}
    {front : List (String × Yaml)} (hname : EndsPlainly name.toList) :
    Ended isNewline
      (mapLines 0 (header kind metadata ++ [("spec", .map (front ++ profile name))])) := by
  have htext : Ended isNewline (Yaml.memberValue 4 (.text name)) :=
    Yaml.ended_endLine (Yaml.endsPlainly_scalar 6 hname).behindSpace
  exact Yaml.ended_mapLines _ _ (Yaml.ended_memberValue_map front "profile"
    (Yaml.ended_memberValue_map [] "displayName" htext))

/-- Where no name ends in another break, a reader to whom only a newline ends a line cuts a stream
at the same places. -/
theorem cutAtMarks_newline_of_names {e : Entry} (hmodel : EndsPlainly e.model.name.toList)
    (hserver : ∀ server ∈ e.server, EndsPlainly server.name.toList) :
    ∃ text, Text.Utf8.decode? (e.encode .catalogInfoYaml) = some text ∧
      cutAtMarks isNewline text.toList =
        (ofParts e.model e.server).map fun d => (Yaml.document d).toList := by
  have hcomponent : EndsPlainly (componentName e.model e.server).toList := by
    cases hcase : e.server with
    | none => exact hmodel
    | some server => exact hserver server hcase
  refine ⟨_, Text.Utf8.decode?_encode _, ?_⟩
  refine Yaml.cutAtMarks_join ?_ rfl (List.cons_ne_nil _ _) ofParts_facts fun d hd => ?_
  · intro c hc
    rw [eq_of_beq hc]
    rfl
  · rcases mem_ofParts.mp hd with rfl | rfl | ⟨server, hfound, rfl⟩
    · exact ended_document_newline hcomponent
    · exact ended_document_newline hmodel
    · exact ended_document_newline (hserver server hfound)

/-- The names of an entry that was made from sources have no breaks. -/
theorem cutAtMarks_newline {sources : Sources} {e : Entry} (hentry : sources.entry = .ok e) :
    ∃ text, Text.Utf8.decode? (e.encode .catalogInfoYaml) = some text ∧
      cutAtMarks isNewline text.toList =
        (ofParts e.model e.server).map fun d => (Yaml.document d).toList := by
  obtain ⟨-, hmodel, hserver⟩ := Sources.entry_facts hentry
  refine cutAtMarks_newline_of_names ?_ fun server heq => ?_
  · rw [hmodel]
    exact .of_unbroken sources.unbroken_modelName
  · obtain ⟨d, url, -, hname, -⟩ := Sources.serverPart?_facts (hserver.symm.trans heq)
    rw [hname]
    exact .of_unbroken (unbroken_sanitize _)

end InfoDocuments

end CatalogSync.Catalog
