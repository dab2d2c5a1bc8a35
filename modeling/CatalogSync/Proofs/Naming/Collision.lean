import CatalogSync.Proofs.Naming.KeyGrammar
/-!
# Objects with one key

A key joins what is left of its two segments by an underscore. An underscore may stand in a segment
as well, and then the key does not say where the first segment ends: two objects have one key when
their segments agree, or when a part between two underscores ends the first segment of the one and
begins the second segment of the other (`key_eq_iff`).
-/

namespace CatalogSync

/-! ## §1 Lists that are joined by one member -/

/-- Of two ways to cut a list at a member, the later one has taken over a part that another such
member ends. -/
theorem append_cons_eq_append_cons_iff {α : Type} {x : α} {a b a' b' : List α} :
    a ++ x :: b = a' ++ x :: b' ↔
      (a = a' ∧ b = b') ∨ (∃ part, a' = a ++ x :: part ∧ b = part ++ x :: b') ∨
        ∃ part, a = a' ++ x :: part ∧ b' = part ++ x :: b := by
  rw [List.append_eq_append_iff]
  constructor
  · rintro (⟨part, ha, hb⟩ | ⟨part, ha, hb⟩)
    · cases part with
      | nil =>
        rw [List.append_nil] at ha
        exact .inl ⟨ha.symm, (List.cons.inj hb).2⟩
      | cons y part =>
        obtain ⟨rfl, hrest⟩ := List.cons.inj hb
        exact .inr (.inl ⟨part, ha, hrest⟩)
    · cases part with
      | nil =>
        rw [List.append_nil] at ha
        exact .inl ⟨ha, (List.cons.inj hb).2.symm⟩
      | cons y part =>
        obtain ⟨rfl, hrest⟩ := List.cons.inj hb
        exact .inr (.inr ⟨part, ha, hrest⟩)
  · rintro (⟨rfl, rfl⟩ | ⟨part, rfl, rfl⟩ | ⟨part, rfl, rfl⟩)
    · exact .inl ⟨[], by simp⟩
    · exact .inl ⟨x :: part, by simp⟩
    · exact .inr ⟨x :: part, by simp⟩

namespace ImportKey

/-! ## §2 Keys of objects -/

/-- The key is that of a version, named with its model, or that of a deployment, named with its
namespace. -/
def Derives (key : ImportKey) (first second : String) : Prop :=
  forModelVersion first second = .ok key ∨ forDeployment first second = .ok key

/-- A part of the second segment, up to an underscore, has moved to the end of the first one. -/
def Shifted (first second first' second' : String) : Prop :=
  ∃ part, first' = first ++ "_" ++ part ∧ second = part ++ "_" ++ second'

theorem Derives.text_eq {key : ImportKey} {first second : String}
    (hkey : Derives key first second) :
    key.text = Name.sanitize first ++ "_" ++ Name.sanitize second := by
  rcases hkey with hkey | hkey <;> exact (join_eq_ok_iff.mp hkey).2.2

theorem shifted_iff {first second first' second' : String} :
    Shifted first second first' second' ↔
      ∃ part, first'.toList = first.toList ++ separator :: part ∧
        second.toList = part ++ separator :: second'.toList := by
  constructor
  · rintro ⟨part, rfl, rfl⟩
    exact ⟨part.toList, by simp [separator], by simp [separator]⟩
  · rintro ⟨part, hfirst, hsecond⟩
    refine ⟨String.ofList part, ?_, ?_⟩
    · rw [← String.toList_inj, hfirst]
      simp [separator]
    · rw [← String.toList_inj, hsecond]
      simp [separator]

/-- Two texts that are joined by an underscore are equal when their parts are, or when one of them
is the other with the underscore further on. -/
theorem joined_eq_iff {first second first' second' : String} :
    first ++ "_" ++ second = first' ++ "_" ++ second' ↔
      (first = first' ∧ second = second') ∨ Shifted first second first' second' ∨
        Shifted first' second' first second := by
  have hjoined : ∀ a b : String, (a ++ "_" ++ b).toList = a.toList ++ separator :: b.toList := by
    intro a b
    simp [separator]
  rw [shifted_iff, shifted_iff, ← String.toList_inj, hjoined, hjoined,
    append_cons_eq_append_cons_iff, String.toList_inj, String.toList_inj]

/-- Two objects have one key exactly when both segments of the key agree after sanitization, or when
those of the one are those of the other with a part between two underscores moved from one segment
to the other. -/
theorem key_eq_iff {key key' : ImportKey} {first second first' second' : String}
    (hkey : Derives key first second) (hkey' : Derives key' first' second') :
    key = key' ↔
      (Name.sanitize first = Name.sanitize first' ∧ Name.sanitize second = Name.sanitize second') ∨
        Shifted (Name.sanitize first) (Name.sanitize second) (Name.sanitize first')
          (Name.sanitize second') ∨
        Shifted (Name.sanitize first') (Name.sanitize second') (Name.sanitize first)
          (Name.sanitize second) := by
  have htext : key = key' ↔ key.text = key'.text := ⟨congrArg text, ext_text⟩
  rw [htext, hkey.text_eq, hkey'.text_eq]
  exact joined_eq_iff

/-- A version and a deployment whose names differ by what sanitization removes have one key, and the
key of another version is another one. -/
theorem key_eq_iff_spaced : ∃ key key' key'' : ImportKey,
    Derives key "Granite 3" "v1" ∧ Derives key' "Granite3" "v1" ∧ key = key' ∧
      Derives key'' "Granite3" "v2" ∧ key ≠ key'' := by
  have hkey : Derives ⟨"Granite3_v1", by decide⟩ "Granite 3" "v1" :=
    .inl (join_eq_ok_iff.mpr ⟨by decide, by decide, by decide⟩)
  have hkey' : Derives ⟨"Granite3_v1", by decide⟩ "Granite3" "v1" :=
    .inr (join_eq_ok_iff.mpr ⟨by decide, by decide, by decide⟩)
  have hkey'' : Derives ⟨"Granite3_v2", by decide⟩ "Granite3" "v2" :=
    .inl (join_eq_ok_iff.mpr ⟨by decide, by decide, by decide⟩)
  refine ⟨_, _, _, hkey, hkey', (key_eq_iff hkey hkey').mpr (.inl ⟨by decide, by decide⟩), hkey'',
    fun heq => ?_⟩
  have hone : '_' ∉ (Name.sanitize "Granite3").toList := by decide
  have hother : '_' ∉ (Name.sanitize "Granite 3").toList := by decide
  rcases (key_eq_iff hkey hkey'').mp heq with ⟨-, hsecond⟩ | hshifted | hshifted
  · exact absurd hsecond (by decide)
  · obtain ⟨part, hfirst, -⟩ := shifted_iff.mp hshifted
    exact hone (by simp [hfirst, separator])
  · obtain ⟨part, hfirst, -⟩ := shifted_iff.mp hshifted
    exact hother (by simp [hfirst, separator])

/-- A key does not determine the names that it was made from: two versions of two models have the
same one, though both their models' and their own names differ after sanitization. -/
theorem names_differ_under_one_key : ∃ key,
    forModelVersion "granite_3" "v1" = .ok key ∧ forModelVersion "granite" "3_v1" = .ok key ∧
      Name.sanitize "granite_3" ≠ Name.sanitize "granite" ∧
      Name.sanitize "v1" ≠ Name.sanitize "3_v1" := by
  have hkey : forModelVersion "granite_3" "v1" = .ok ⟨"granite_3_v1", by decide⟩ :=
    join_eq_ok_iff.mpr ⟨by decide, by decide, by decide⟩
  have hkey' : forModelVersion "granite" "3_v1" = .ok ⟨"granite_3_v1", by decide⟩ :=
    join_eq_ok_iff.mpr ⟨by decide, by decide, by decide⟩
  exact ⟨_, hkey, hkey', by decide, by decide⟩

end ImportKey

end CatalogSync
