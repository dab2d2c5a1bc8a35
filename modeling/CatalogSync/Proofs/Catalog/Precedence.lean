import CatalogSync.Catalog.Merge
import CatalogSync.Proofs.Naming.ImportKey
/-!
# Which source names the owner and the lifecycle

The sources of an entry give texts for its owner and its lifecycle: a property of the version, the
same property of the model, an annotation of the deployment, and for the owner what the registry has
recorded. A text is usable when sanitization leaves something of it.

The strongest usable text prevails, as long as every property before it is blank. A property that is
not blank and of which nothing is left ends the search among the properties, so it hides a usable
one behind it; then only the recorded owner and the default are asked (`owner_and_lifecycle`).
-/

namespace CatalogSync

/-! ## §1 Blank texts -/

/-- No blank stands in a name, so it makes no difference whether a text is trimmed first. -/
theorem Name.sanitize_trim (text : String) : sanitize (Text.trim text) = sanitize text := by
  have hkept : (Text.trimChars text.toList).filter isNameChar = text.toList.filter isNameChar :=
    Text.filter_trimBoth (fun _ hc => (facts_of_isNameChar hc).1) text.toList
  rw [sanitize, sanitize, Text.trim, String.toList_ofList, sanitizeChars, hkept, sanitizeChars]

theorem Name.sanitize?_trim (text : String) : sanitize? (Text.trim text) = sanitize? text := by
  rw [sanitize?, sanitize?, sanitize_trim]

theorem Name.sanitize?_of_blank {text : String} (hblank : Text.trim text = "") :
    sanitize? text = none := by
  rw [← sanitize?_trim, hblank]
  rfl

namespace Catalog

/-! ## §2 What prevails -/

/-- What sanitization leaves of the first text of which it leaves something; the fallback when there
is no such text. -/
def prevailing (fallback : String) (texts : List String) : String :=
  (texts.findSome? Name.sanitize?).getD fallback

/-- Among the texts of a property, the first that is not blank leaves nothing, and a later one is
the first to leave something: a name that is hidden. -/
inductive Hides : List String → String → Prop where
  | blank {text : String} {texts : List String} {name : String} (hblank : Text.trim text = "")
      (hrest : Hides texts name) : Hides (text :: texts) name
  | unusable {text : String} {texts : List String} {name : String} (hshown : Text.trim text ≠ "")
      (hunusable : Name.sanitize? text = none)
      (hname : texts.findSome? Name.sanitize? = some name) : Hides (text :: texts) name

/-- What is made of the texts of a property: the first that is not blank is chosen, and where it
leaves nothing the others are asked. -/
def chosen (fallback : String) (texts others : List String) : String :=
  ((texts.findSome? Text.trimmed?).bind Name.sanitize? <|>
    others.findSome? Name.sanitize?).getD fallback

section

variable {fallback text : String} {texts others : List String}

theorem prevailing_cons_of_none (hunusable : Name.sanitize? text = none) :
    prevailing fallback (text :: texts) = prevailing fallback texts := by
  rw [prevailing, List.findSome?_cons, hunusable, prevailing]

theorem chosen_of_blank (hblank : Text.trim text = "") :
    chosen fallback (text :: texts) others = chosen fallback texts others := by
  rw [chosen, List.findSome?_cons, Text.trimmed?_eq_none_iff.mpr hblank, chosen]

theorem chosen_of_shown (hshown : Text.trim text ≠ "") :
    chosen fallback (text :: texts) others =
      (Name.sanitize? text <|> others.findSome? Name.sanitize?).getD fallback := by
  have htrimmed : Text.trimmed? text = some (Text.trim text) :=
    Text.trimmed?_eq_some_iff.mpr ⟨rfl, hshown⟩
  rw [chosen, List.findSome?_cons, htrimmed]
  dsimp only
  rw [Option.bind_some, Name.sanitize?_trim]

/-- Behind a property of which nothing is left, only the others count. -/
theorem chosen_of_unusable (hshown : Text.trim text ≠ "") (hunusable : Name.sanitize? text = none) :
    chosen fallback (text :: texts) others = prevailing fallback others := by
  rw [chosen_of_shown hshown, hunusable]
  rfl

/-- When a name is hidden, it is the others that count. -/
theorem chosen_of_hides {name : String} (hhides : Hides texts name) :
    chosen fallback texts others = prevailing fallback others := by
  induction hhides with
  | blank hblank _ ih => rw [chosen_of_blank hblank, ih]
  | unusable hshown hunusable _ => exact chosen_of_unusable hshown hunusable

/-- The hidden name is the one that should prevail. -/
theorem prevailing_of_hides {name : String} (hhides : Hides texts name) :
    prevailing fallback (texts ++ others) = name := by
  induction hhides with
  | blank hblank _ ih =>
    rw [List.cons_append, prevailing_cons_of_none (Name.sanitize?_of_blank hblank), ih]
  | unusable _ hunusable hname =>
    rw [List.cons_append, prevailing_cons_of_none hunusable, prevailing, List.findSome?_append,
      hname]
    rfl

/-- The strongest usable text prevails when no name is hidden. -/
theorem chosen_of_not_hides (hnot : ∀ name, ¬ Hides texts name) :
    chosen fallback texts others = prevailing fallback (texts ++ others) := by
  induction texts with
  | nil => rfl
  | cons text texts ih =>
    rw [List.cons_append]
    by_cases hblank : Text.trim text = ""
    · rw [chosen_of_blank hblank, prevailing_cons_of_none (Name.sanitize?_of_blank hblank),
        ih fun name hhides => hnot name (.blank hblank hhides)]
    · cases husable : Name.sanitize? text with
      | some name =>
        rw [chosen_of_shown hblank, prevailing, List.findSome?_cons, husable]
        rfl
      | none =>
        rw [chosen_of_unusable hblank husable, prevailing_cons_of_none husable]
        cases hname : texts.findSome? Name.sanitize? with
        | some name => exact absurd (.unusable hblank husable hname) (hnot name)
        | none =>
          rw [prevailing, prevailing, List.findSome?_append, hname]
          rfl

/-- The strongest usable text prevails, unless it is hidden and the others name something else. -/
theorem chosen_eq_prevailing_iff :
    chosen fallback texts others = prevailing fallback (texts ++ others) ↔
      ∀ name, Hides texts name → name = chosen fallback texts others := by
  constructor
  · intro heq name hhides
    rw [heq, prevailing_of_hides hhides]
  · intro hall
    by_cases hhides : ∃ name, Hides texts name
    · obtain ⟨name, hhides⟩ := hhides
      rw [prevailing_of_hides hhides, ← hall name hhides]
    · exact chosen_of_not_hides (not_exists.mp hhides)

end

/-! ## §3 Sources -/

/-- The text of a property as it was set. Numbers and flags have a text as well. -/
def said? (p : Registry.Properties) (name : String) : Option String :=
  (p.get? name).bind Registry.PropertyValue.asText?

theorem findSome?_toList {α β : Type} (f : α → Option β) (a : Option α) :
    a.toList.findSome? f = a.bind f := by
  cases a with
  | none => rfl
  | some a =>
    rw [Option.toList_some, List.findSome?_cons, List.findSome?_nil, Option.bind_some]
    cases f a <;> rfl

namespace Sources

/-- The texts that the sources give a property, strongest first: the version, the model, and the
annotation of the deployment. -/
def texts (s : Sources) (p : Property) : List String :=
  (s.version.bind fun v => said? v.properties p.name).toList ++
    (s.model.bind fun m => said? m.properties p.name).toList ++
    (s.deployment.bind fun d => d.annotations.get? (Deployment.annotationName p.name)).toList

/-- The owner that the registry has recorded with the model. -/
def recordedOwner (s : Sources) : List String := (s.model.bind (·.owner)).toList

/-- A property is the first of its texts that is not blank, trimmed. -/
theorem property?_eq (s : Sources) (p : Property) :
    s.property? p = (s.texts p).findSome? Text.trimmed? := by
  simp only [texts, List.findSome?_append, findSome?_toList, Option.bind_assoc]
  rw [property?, named?, Option.or_assoc, Option.or_eq_orElse, Option.or_eq_orElse]
  rfl

theorem owner_eq (s : Sources) :
    s.owner = chosen s.defaults.owner (s.texts .owner) s.recordedOwner := by
  rw [owner, property?_eq, chosen, recordedOwner, findSome?_toList]

theorem lifecycle_eq (s : Sources) :
    s.lifecycle = chosen s.defaults.lifecycle (s.texts .lifecycle) [] := by
  rw [lifecycle, property?_eq, chosen]
  cases ((s.texts .lifecycle).findSome? Text.trimmed?).bind Name.sanitize? <;> rfl

/-- The owner is what the strongest usable text names, and the default where none is usable, unless
a property hides a usable text. Then the recorded owner and the default are left. The same holds of
the lifecycle, of which the registry records nothing. -/
theorem owner_and_lifecycle (s : Sources) :
    (s.owner = prevailing s.defaults.owner (s.texts .owner ++ s.recordedOwner) ↔
        ∀ name, Hides (s.texts .owner) name → name = s.owner) ∧
      (∀ name, Hides (s.texts .owner) name →
        s.owner = prevailing s.defaults.owner s.recordedOwner) ∧
      (s.lifecycle = prevailing s.defaults.lifecycle (s.texts .lifecycle) ↔
        ∀ name, Hides (s.texts .lifecycle) name → name = s.lifecycle) ∧
      ∀ name, Hides (s.texts .lifecycle) name → s.lifecycle = s.defaults.lifecycle := by
  refine ⟨?_, ?_, ?_, ?_⟩
  · rw [owner_eq]
    exact chosen_eq_prevailing_iff
  · intro name hhides
    rw [owner_eq, chosen_of_hides hhides]
  · have hlifecycle : prevailing s.defaults.lifecycle (s.texts .lifecycle) =
        prevailing s.defaults.lifecycle (s.texts .lifecycle ++ []) := by rw [List.append_nil]
    rw [lifecycle_eq, hlifecycle]
    exact chosen_eq_prevailing_iff
  · intro name hhides
    rw [lifecycle_eq, chosen_of_hides hhides]
    rfl

/-- The properties of a version and its model, and the owner that the registry has recorded. -/
def owned (ofVersion ofModel : Registry.Properties) : Sources :=
  .ofVersion {} { id := "1", name := "mnist", owner := some "bob", properties := ofModel }
    { id := "2", name := "v1", modelId := "1", properties := ofVersion } [] none none

/-- A blank property is passed over, a number counts, and without a usable text the default does. -/
theorem owner_and_lifecycle_numbered :
    let s := owned (.ofList [("Owner", .text " "), ("Lifecycle", .text "???")])
      (.ofList [("Owner", .int "7")])
    s.owner = prevailing s.defaults.owner (s.texts .owner ++ s.recordedOwner) ∧ s.owner = "7" ∧
      s.lifecycle = prevailing s.defaults.lifecycle (s.texts .lifecycle) ∧
      s.lifecycle = "development" := by
  intro s
  obtain ⟨howner, -, hlifecycle, -⟩ := owner_and_lifecycle s
  refine ⟨howner.mpr fun name hhides => ?_, by decide, hlifecycle.mpr fun name hhides => ?_,
    by decide⟩
  · have htexts : s.texts .owner = [" ", "7"] := rfl
    rw [htexts] at hhides
    cases hhides with
    | blank _ hrest =>
      cases hrest with
      | blank hblank _ => exact absurd hblank (by decide)
      | unusable _ hunusable _ => exact absurd hunusable (by decide)
    | unusable hshown _ _ => exact absurd (by decide) hshown
  · have htexts : s.texts .lifecycle = ["???"] := rfl
    rw [htexts] at hhides
    cases hhides with
    | blank hblank _ => exact absurd hblank (by decide)
    | unusable _ _ hname => cases hname

/-- The version's property leaves nothing and hides that of the model, so the owner is the recorded
one, which is the weaker of the two. -/
theorem owner_hidden :
    let s := owned (.ofList [("Owner", .text "!!!")]) (.ofList [("Owner", .text "vision-team")])
    s.owner = "bob" ∧
      prevailing s.defaults.owner (s.texts .owner ++ s.recordedOwner) = "vision-team" := by
  decide

end Sources

end Catalog

end CatalogSync
