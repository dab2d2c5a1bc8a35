import CatalogSync.Proofs.Text.Split
import Mathlib.Data.List.DropRight
/-!
# What trimming leaves

Trimming takes away the longest runs at both ends of a list whose members pass a test. A list that
neither begins nor ends with such a member is left as it is (`trimBoth_of_ends`), and what is put
around a list is of no account when all of it passes the test (`trimBoth_padded`).
-/

namespace CatalogSync.Text

variable {α β : Type} {p : α → Bool} {l : List α} {a : α}

/-! ## §1 The end of a list -/

theorem dropEndWhile_eq_rdropWhile (p : α → Bool) (l : List α) :
    dropEndWhile p l = l.rdropWhile p := by
  induction l with
  | nil => rfl
  | cons a l ih =>
    rw [dropEndWhile_cons, ih, List.rdropWhile, List.rdropWhile, List.reverse_cons,
      List.dropWhile_append]
    cases l.reverse.dropWhile p with
    | nil => cases hp : p a <;> simp [hp]
    | cons b rest => simp

theorem dropEndWhile_isPrefix (p : α → Bool) (l : List α) : dropEndWhile p l <+: l := by
  rw [dropEndWhile_eq_rdropWhile]
  exact List.rdropWhile_prefix p l

theorem dropEndWhile_eq_nil_iff : dropEndWhile p l = [] ↔ ∀ a ∈ l, p a = true := by
  rw [dropEndWhile_eq_rdropWhile, List.rdropWhile_eq_nil_iff]

theorem dropEndWhile_of_getLast? (hlast : ∀ a ∈ l.getLast?, p a = false) :
    dropEndWhile p l = l := by
  rw [dropEndWhile_eq_rdropWhile, List.rdropWhile_eq_self_iff]
  intro hne
  rw [hlast _ (List.getLast?_eq_some_getLast hne)]
  decide

/-- A run at the end goes, whatever stands before it. -/
theorem dropEndWhile_append_of_pos {run : List α} (hrun : ∀ a ∈ run, p a = true) :
    dropEndWhile p (l ++ run) = dropEndWhile p l := by
  rw [dropEndWhile_eq_rdropWhile, dropEndWhile_eq_rdropWhile, List.rdropWhile, List.rdropWhile,
    List.reverse_append, List.dropWhile_append_of_pos (by simpa using hrun)]

theorem dropEndWhile_map {q : β → Bool} {f : α → β} (hf : ∀ a, q (f a) = p a) (l : List α) :
    dropEndWhile q (l.map f) = (dropEndWhile p l).map f := by
  induction l with
  | nil => rfl
  | cons a l ih =>
    rw [List.map_cons, dropEndWhile_cons, dropEndWhile_cons, ih, hf, List.isEmpty_map]
    split <;> rfl

/-! ## §2 Both ends -/

/-- What is left of a list lies in it in one piece. -/
theorem trimBoth_isInfix (p : α → Bool) (l : List α) : trimBoth p l <:+: l :=
  (dropEndWhile_isPrefix p _).isInfix.trans (List.dropWhile_suffix p).isInfix

/-- A list that neither begins nor ends with a member that passes the test is left as it is. -/
theorem trimBoth_of_ends (hfirst : ∀ a ∈ l.head?, p a = false)
    (hlast : ∀ a ∈ l.getLast?, p a = false) : trimBoth p l = l := by
  have hnone : ∀ a ∈ ([] : List α), p a = true := fun _ ha => nomatch ha
  have hstart : l.dropWhile p = l := dropWhile_append_of_head hnone hfirst
  rw [trimBoth, hstart, dropEndWhile_of_getLast? hlast]

theorem trimBoth_eq_self (hl : ∀ a ∈ l, p a = false) : trimBoth p l = l :=
  trimBoth_of_ends (fun a ha => hl a (List.mem_of_mem_head? ha))
    fun a ha => hl a (List.mem_of_mem_getLast? ha)

/-- What stands around a list is of no account when all of it passes the test. -/
theorem trimBoth_padded {before after : List α} (hbefore : ∀ a ∈ before, p a = true)
    (hafter : ∀ a ∈ after, p a = true) (l : List α) :
    trimBoth p (before ++ l ++ after) = trimBoth p l := by
  rw [trimBoth, trimBoth, List.append_assoc, List.dropWhile_append_of_pos hbefore,
    List.dropWhile_append]
  split
  next hall =>
    -- All of the list goes, so that its end joins what stands in front.
    rw [List.isEmpty_iff] at hall
    rw [hall, List.dropWhile_eq_nil_iff.mpr hafter]
  next => exact dropEndWhile_append_of_pos hafter

theorem trimBoth_map {q : β → Bool} {f : α → β} (hf : ∀ a, q (f a) = p a) (l : List α) :
    trimBoth q (l.map f) = (trimBoth p l).map f := by
  have hq : q ∘ f = p := funext hf
  rw [trimBoth, List.dropWhile_map, hq, dropEndWhile_map hf, trimBoth]

/-- A member that fails the test is left. -/
theorem mem_trimBoth (ha : a ∈ l) (hp : p a = false) : a ∈ trimBoth p l := by
  have hstart : a ∈ l.dropWhile p := by
    induction l with
    | nil => cases ha
    | cons b l ih =>
      rw [List.dropWhile_cons]
      split
      · next hb =>
        rcases List.mem_cons.mp ha with rfl | ha
        · rw [hp] at hb
          cases hb
        · exact ih ha
      · exact ha
  rw [trimBoth]
  generalize l.dropWhile p = rest at hstart
  induction rest with
  | nil => cases hstart
  | cons b rest ih =>
    rw [dropEndWhile_cons]
    rcases List.mem_cons.mp hstart with rfl | hrest
    · simp [hp]
    · have hmem := ih hrest
      split
      · next hempty => simp_all
      · exact List.mem_cons_of_mem _ hmem

/-- Nothing is left of a list exactly when all its members pass the test. -/
theorem trimBoth_eq_nil_iff : trimBoth p l = [] ↔ ∀ a ∈ l, p a = true := by
  constructor
  · intro hnil a ha
    rw [← Bool.not_eq_false]
    intro hp
    have hmem := mem_trimBoth ha hp
    rw [hnil] at hmem
    cases hmem
  · intro hall
    rw [trimBoth, List.dropWhile_eq_nil_iff.mpr hall]
    rfl

/-- Members that pass another test, which none of those that are trimmed passes, are all left. -/
theorem filter_trimBoth {q : α → Bool} (hpq : ∀ a, q a = true → p a = false) (l : List α) :
    (trimBoth p l).filter q = l.filter q := by
  have hnot : ∀ a, p a = true → q a = false := by
    intro a hp
    rw [← Bool.not_eq_true]
    intro hq
    rw [hpq a hq] at hp
    cases hp
  have hstart : (l.dropWhile p).filter q = l.filter q := by
    induction l with
    | nil => rfl
    | cons a l ih =>
      cases hp : p a with
      | true => simp [hp, hnot a hp, ih]
      | false => simp [hp]
  rw [trimBoth, ← hstart]
  generalize l.dropWhile p = rest
  induction rest with
  | nil => rfl
  | cons a rest ih =>
    rw [dropEndWhile_cons]
    split
    · next hdrop =>
      rw [Bool.and_eq_true, List.isEmpty_iff] at hdrop
      rw [hdrop.2] at ih
      simp [hnot a hdrop.1, ← ih]
    · rw [List.filter_cons, List.filter_cons, ih]

/-! ## §3 Texts -/

theorem trim_eq_self {s : String} (hs : ∀ c ∈ s.toList, isBlank c = false) : trim s = s := by
  rw [trim, trimChars, trimBoth_eq_self hs, String.ofList_toList]

theorem trimmed?_eq_some_iff {text trimmed : String} :
    trimmed? text = some trimmed ↔ trim text = trimmed ∧ trimmed ≠ "" :=
  nonEmpty?_eq_some_iff

theorem trimmed?_eq_none_iff {text : String} : trimmed? text = none ↔ trim text = "" := by
  rw [Option.eq_none_iff_forall_ne_some]
  simp [trimmed?_eq_some_iff]

theorem trimmed?_eq_some {s : String} (hs : ∀ c ∈ s.toList, isBlank c = false)
    (hne : s.isEmpty = false) : trimmed? s = some s :=
  trimmed?_eq_some_iff.mpr ⟨trim_eq_self hs, by simpa using hne⟩

end CatalogSync.Text
