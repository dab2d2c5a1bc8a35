import CatalogSync.Proofs.Naming.ImportKey
/-!
# The grammar of keys

The texts of keys are those of one grammar (`ImportKey.Spelled`). Reading a key from a text or from
JSON accepts exactly these texts and keeps them as they are, deriving a key from two segments gives
such a text unless nothing is left of a segment, and a list of keys is read entry by entry
(`keys_spelled`).
-/

namespace CatalogSync

open Json (Decoded)

namespace ImportKey

/-! ## §1 Reading -/

/-- A text is read as a key when it is the text of one, and is kept as it is. -/
theorem parse_eq_ok_iff {raw : String} {key : ImportKey} :
    parse raw = .ok key ↔ Spelled raw.toList ∧ key.text = raw := by
  constructor
  · intro hparse
    unfold parse at hparse
    split at hparse
    · next hfault =>
      cases hparse
      exact ⟨fault?_eq_none_iff.mp hfault, rfl⟩
    · cases hparse
  · rintro ⟨-, rfl⟩
    exact key.parse_text

theorem exists_parse_iff {raw : String} : (∃ key, parse raw = .ok key) ↔ Spelled raw.toList := by
  constructor
  · rintro ⟨key, hparse⟩
    exact (parse_eq_ok_iff.mp hparse).1
  · intro hraw
    exact ⟨⟨raw, fault?_eq_none_iff.mpr hraw⟩, parse_eq_ok_iff.mpr ⟨hraw, rfl⟩⟩

theorem read_eq_ok_iff {raw : String} {key : ImportKey} : read raw = .ok key ↔ key.text = raw := by
  constructor
  · intro hread
    rw [read] at hread
    cases hparse : parse raw with
    | error e =>
      rw [hparse] at hread
      cases hread
    | ok k =>
      rw [hparse] at hread
      cases hread
      exact (parse_eq_ok_iff.mp hparse).2
  · rintro rfl
    exact key.read_text

/-- A key is read from JSON as it is from a text. -/
theorem decode_eq_ok_iff {v : Json} {key : ImportKey} :
    (Json.decode v : Decoded ImportKey) = .ok key ↔ ∃ raw, v = .str raw ∧ parse raw = .ok key := by
  cases v with
  | str raw =>
    simp only [Json.decode, bind, Except.bind]
    cases hparse : parse raw <;> simp [hparse]
  | _ =>
    constructor
    · intro hdecode
      cases hdecode
    · rintro ⟨_, ⟨⟩, _⟩

/-! ## §2 Derived keys -/

theorem ofList_append_separator (a b : List Char) :
    String.ofList (a ++ separator :: b) = String.ofList a ++ "_" ++ String.ofList b := by
  rw [← String.toList_inj]
  simp [separator]

/-- The key of two segments consists of what is left of each of them. -/
theorem join_eq_ok_iff {first second : String} {key : ImportKey} :
    join first second = .ok key ↔ Name.sanitize first ≠ "" ∧ Name.sanitize second ≠ "" ∧
      key.text = Name.sanitize first ++ "_" ++ Name.sanitize second := by
  rw [Name.sanitize_ne_empty, Name.sanitize_ne_empty, ← and_assoc, join, ofSegments]
  by_cases hleft : Name.sanitizeChars first.toList ≠ [] ∧ Name.sanitizeChars second.toList ≠ []
  · rw [dif_pos hleft, and_iff_right hleft]
    have htext := ofList_append_separator (Name.sanitizeChars first.toList)
      (Name.sanitizeChars second.toList)
    show Except.ok _ = Except.ok key ↔ _
    rw [Except.ok.injEq, Name.sanitize, Name.sanitize, ← htext]
    constructor
    · intro hkey
      rw [← hkey]
    · intro hkey
      exact ext_text hkey.symm
  · rw [dif_neg hleft]
    constructor
    · intro hkey
      cases hkey
    · intro hkey
      exact absurd hkey.1 hleft

/-- Two segments make no key when nothing is left of one of them. -/
theorem join_eq_error_iff {first second : String} {f : Fault} :
    join first second = .error f ↔ (Name.sanitize first = "" ∨ Name.sanitize second = "") ∧
      f = .validation (first ++ "/" ++ second) Error.nothingLeft.message := by
  have hnothing : (Name.sanitize first = "" ∨ Name.sanitize second = "") ↔
      ¬ (Name.sanitizeChars first.toList ≠ [] ∧ Name.sanitizeChars second.toList ≠ []) := by
    rw [← Name.sanitize_ne_empty, ← Name.sanitize_ne_empty, Classical.not_and_iff_not_or_not,
      Classical.not_not, Classical.not_not]
  rw [hnothing, join, ofSegments]
  by_cases hleft : Name.sanitizeChars first.toList ≠ [] ∧ Name.sanitizeChars second.toList ≠ []
  · rw [dif_pos hleft]
    constructor
    · intro hfault
      cases hfault
    · intro hfault
      exact absurd hleft hfault.1
  · rw [dif_neg hleft, and_iff_right hleft]
    constructor
    · intro hfault
      cases hfault
      rfl
    · rintro rfl
      rfl

end ImportKey

/-! ## §3 Lists of keys -/

namespace KeySet

open ImportKey (Spelled)

/-- What stands between the commas of a text, trimmed, where it is not blank. -/
def entries (raw : String) : List String :=
  ((Text.split ',' raw).map Text.trim).filter fun entry => !entry.isEmpty

theorem filterMap_trimmed? (texts : List String) :
    texts.filterMap Text.trimmed? = (texts.map Text.trim).filter fun entry => !entry.isEmpty := by
  induction texts with
  | nil => rfl
  | cons text texts ih =>
    rw [List.filterMap_cons, List.map_cons, List.filter_cons, ← ih, Text.trimmed?]
    cases (Text.trim text).isEmpty <;> simp

/-- Texts are read one by one, and each of them must be the text of a key. -/
theorem mapM_read_eq_ok_iff {texts : List String} {keys : List ImportKey} :
    texts.mapM ImportKey.read = .ok keys ↔ keys.map ImportKey.text = texts := by
  constructor
  · intro hread
    induction texts generalizing keys with
    | nil =>
      cases hread
      rfl
    | cons text texts ih =>
      rw [List.mapM_cons] at hread
      cases hfirst : ImportKey.read text with
      | error f =>
        rw [hfirst] at hread
        cases hread
      | ok key =>
        rw [hfirst] at hread
        cases hrest : texts.mapM ImportKey.read with
        | error f =>
          rw [hrest] at hread
          cases hread
        | ok more =>
          rw [hrest] at hread
          cases hread
          rw [List.map_cons, ImportKey.read_eq_ok_iff.mp hfirst, ih hrest]
  · rintro rfl
    exact mapM_read_text keys

theorem parse_eq_ok_iff {raw : String} {keys : List ImportKey} :
    parse raw = .ok keys ↔ keys.map ImportKey.text = entries raw := by
  rw [parse, filterMap_trimmed?, mapM_read_eq_ok_iff, entries]

/-- A list of keys is read when every entry of it is the text of a key. -/
theorem exists_parse_iff {raw : String} :
    (∃ keys, parse raw = .ok keys) ↔ ∀ entry ∈ entries raw, Spelled entry.toList := by
  simp only [parse_eq_ok_iff]
  constructor
  · rintro ⟨keys, hkeys⟩ entry hentry
    rw [← hkeys] at hentry
    obtain ⟨key, -, rfl⟩ := List.mem_map.mp hentry
    exact key.spelled_text
  · intro hentries
    generalize entries raw = texts at hentries
    induction texts with
    | nil => exact ⟨[], rfl⟩
    | cons text texts ih =>
      obtain ⟨key, hkey⟩ := ImportKey.exists_parse_iff.mpr (hentries text List.mem_cons_self)
      obtain ⟨keys, hkeys⟩ := ih fun entry hentry => hentries entry (List.mem_cons_of_mem _ hentry)
      refine ⟨key :: keys, ?_⟩
      rw [List.map_cons, (ImportKey.parse_eq_ok_iff.mp hkey).2, hkeys]

end KeySet

/-! ## §4 Keys -/

open ImportKey (Spelled)

/-- The texts of keys are those of the grammar, wherever keys are read or derived. -/
theorem keys_spelled :
    -- A key is read from a text, and from JSON, as it stands there.
    (∀ raw, (∃ key, ImportKey.parse raw = .ok key) ↔ Spelled raw.toList) ∧
    (∀ raw key, ImportKey.parse raw = .ok key → key.text = raw) ∧
    (∀ v : Json, (∃ key : ImportKey, Json.decode v = .ok key) ↔
      ∃ raw, v = .str raw ∧ Spelled raw.toList) ∧
    (∀ raw (key : ImportKey), Json.decode (.str raw) = .ok key → key.text = raw) ∧
    -- A derived key is one that is read, and there is none when nothing is left of a segment.
    (∀ derive ∈ [ImportKey.forModelVersion, ImportKey.forDeployment], ∀ first second,
      (∀ key, derive first second = .ok key → ImportKey.parse key.text = .ok key ∧
        key.text = Name.sanitize first ++ "_" ++ Name.sanitize second) ∧
      ((∃ f, derive first second = .error f) ↔
        Name.sanitize first = "" ∨ Name.sanitize second = "")) ∧
    -- A list of keys is read back from what it was joined to, and any list entry by entry.
    (∀ keys, KeySet.parse (KeySet.join keys) = .ok keys) ∧
    (∀ raw, (∃ keys, KeySet.parse raw = .ok keys) ↔
      ∀ entry ∈ KeySet.entries raw, Spelled entry.toList) ∧
    ∀ raw keys, KeySet.parse raw = .ok keys → keys.map ImportKey.text = KeySet.entries raw := by
  refine ⟨fun raw => ImportKey.exists_parse_iff, fun raw key => fun h =>
    (ImportKey.parse_eq_ok_iff.mp h).2, ?_, ?_, ?_, KeySet.parse_join,
    fun raw => KeySet.exists_parse_iff, fun raw keys => KeySet.parse_eq_ok_iff.mp⟩
  · intro v
    simp only [ImportKey.decode_eq_ok_iff, ← ImportKey.exists_parse_iff]
    constructor
    · rintro ⟨key, raw, hv, hkey⟩
      exact ⟨raw, hv, key, hkey⟩
    · rintro ⟨raw, hv, key, hkey⟩
      exact ⟨key, raw, hv, hkey⟩
  · intro raw key hkey
    obtain ⟨_, ⟨⟩, hparse⟩ := ImportKey.decode_eq_ok_iff.mp hkey
    exact (ImportKey.parse_eq_ok_iff.mp hparse).2
  · intro derive hderive first second
    have hjoin : derive = ImportKey.join := by
      simp only [List.mem_cons, List.not_mem_nil, or_false] at hderive
      rcases hderive with rfl | rfl <;> rfl
    rw [hjoin]
    refine ⟨fun key hkey => ⟨key.parse_text, (ImportKey.join_eq_ok_iff.mp hkey).2.2⟩, ?_⟩
    simp [ImportKey.join_eq_error_iff]

/-- A key with two underscores is read, derived and found in a list with blank entries. -/
theorem keys_spelled_granite :
    (∃ key, ImportKey.parse "granite_3_v1" = .ok key ∧ key.text = "granite_3_v1") ∧
      (∃ key : ImportKey, Json.decode (.str "granite_3_v1") = .ok key ∧
        key.text = "granite_3_v1") ∧
      (∃ key, ImportKey.forModelVersion "granite_3" "v1" = .ok key ∧
        ImportKey.parse key.text = .ok key ∧ key.text = "granite_3_v1") ∧
      ∃ keys, KeySet.parse "granite_3_v1,, a_1 " = .ok keys ∧
        keys.map ImportKey.text = ["granite_3_v1", "a_1"] := by
  obtain ⟨haccepts, hkeeps, hdecodes, hdecoded, hderives, -, hreads, hread⟩ := keys_spelled
  have hspelled : Spelled "granite_3_v1".toList := ImportKey.fault?_eq_none_iff.mp (by decide)
  refine ⟨?_, ?_, ?_, ?_⟩
  · obtain ⟨key, hkey⟩ := (haccepts "granite_3_v1").mpr hspelled
    exact ⟨key, hkey, hkeeps _ key hkey⟩
  · obtain ⟨key, hkey⟩ := (hdecodes (.str "granite_3_v1")).mpr ⟨_, rfl, hspelled⟩
    exact ⟨key, hkey, hdecoded _ key hkey⟩
  · obtain ⟨hderived, hfails⟩ :=
      hderives ImportKey.forModelVersion List.mem_cons_self "granite_3" "v1"
    cases hkey : ImportKey.forModelVersion "granite_3" "v1" with
    | error f => exact absurd (hfails.mp ⟨f, hkey⟩) (by decide)
    | ok key =>
      obtain ⟨hparse, htext⟩ := hderived key hkey
      exact ⟨key, rfl, hparse, htext.trans (by decide)⟩
  · obtain ⟨keys, hkeys⟩ := (hreads "granite_3_v1,, a_1 ").mpr (by
      have hentries : KeySet.entries "granite_3_v1,, a_1 " = ["granite_3_v1", "a_1"] := by
        decide +kernel
      rw [hentries]
      intro entry hentry
      simp only [List.mem_cons, List.not_mem_nil, or_false] at hentry
      rcases hentry with rfl | rfl
      · exact hspelled
      · exact ImportKey.fault?_eq_none_iff.mp (by decide))
    exact ⟨keys, hkeys, (hread _ keys hkeys).trans (by decide)⟩

end CatalogSync
