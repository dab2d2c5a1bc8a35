import CatalogSync.Text.Class
import CatalogSync.Text.Split
/-!
# Cutting what was put together

What was joined with a separator is cut into the same parts again, where no part holds the
separator. A run in front ends at the first member that is none of its own. A text occurs in another
one when it stands in it in one piece.
-/

namespace CatalogSync.Text

/-! ## §1 Cutting -/

theorem cut_append {separator : Char} {a : List Char} (ha : separator ∉ a) (b : List Char) :
    cut separator (a ++ separator :: b) = some (a, b) := by
  induction a with
  | nil => rw [List.nil_append, cut, if_pos rfl]
  | cons c a ih =>
    obtain ⟨hc, ha⟩ := not_or.mp (mt List.mem_cons.mpr ha)
    rw [List.cons_append, cut, if_neg (Ne.symm hc), ih ha]
    rfl

theorem cut_eq_none {separator : Char} {a : List Char} (ha : separator ∉ a) :
    cut separator a = none := by
  induction a with
  | nil => rfl
  | cons c a ih =>
    obtain ⟨hc, ha⟩ := not_or.mp (mt List.mem_cons.mpr ha)
    rw [cut, if_neg (Ne.symm hc), ih ha]
    rfl

/-- A text is cut at its first separator. -/
theorem cut_eq_some_iff {separator : Char} {l before after : List Char} :
    cut separator l = some (before, after) ↔
      l = before ++ separator :: after ∧ separator ∉ before := by
  constructor
  · intro hcut
    induction l generalizing before with
    | nil => cases hcut
    | cons c l ih =>
      rw [cut] at hcut
      by_cases hc : c = separator
      · rw [if_pos hc] at hcut
        cases hcut
        simp [hc]
      · rw [if_neg hc] at hcut
        obtain ⟨⟨head, tail⟩, hrest, heq⟩ := Option.map_eq_some_iff.mp hcut
        cases heq
        obtain ⟨rfl, hhead⟩ := ih hrest
        simp [hhead, Ne.symm hc]
  · rintro ⟨rfl, hbefore⟩
    exact cut_append hbefore after

theorem pieces_eq_self {separator : Char} {a : List Char} (ha : separator ∉ a) :
    pieces separator a = [a] := by
  induction a with
  | nil => rfl
  | cons c a ih =>
    obtain ⟨hc, ha⟩ := not_or.mp (mt List.mem_cons.mpr ha)
    rw [pieces, if_neg (Ne.symm hc), ih ha]

/-- A separator between two texts divides their pieces. -/
theorem pieces_append_separator (separator : Char) (l l' : List Char) :
    pieces separator (l ++ separator :: l') = pieces separator l ++ pieces separator l' := by
  induction l with
  | nil => simp [pieces]
  | cons c l ih =>
    rw [List.cons_append, pieces, pieces]
    by_cases hc : c = separator
    · rw [if_pos hc, if_pos hc, ih, List.cons_append]
    · rw [if_neg hc, if_neg hc, ih]
      obtain ⟨piece, more, hpieces⟩ := List.exists_cons_of_ne_nil (pieces_ne_nil separator l)
      simp only [hpieces, List.cons_append]

theorem pieces_append {separator : Char} {a : List Char} (ha : separator ∉ a) (b : List Char) :
    pieces separator (a ++ separator :: b) = a :: pieces separator b := by
  rw [pieces_append_separator, pieces_eq_self ha, List.singleton_append]

/-- A text is determined by its pieces. -/
theorem pieces_inj {separator : Char} {l l' : List Char} :
    pieces separator l = pieces separator l' ↔ l = l' := by
  constructor
  · intro hpieces
    rw [← joinChars_pieces separator l, hpieces, joinChars_pieces]
  · rintro rfl
    rfl

/-- Cutting what was joined gives the parts back. -/
theorem pieces_joinChars {separator : Char} {parts : List (List Char)} (hne : parts ≠ [])
    (hparts : ∀ part ∈ parts, separator ∉ part) :
    pieces separator (joinChars [separator] parts) = parts := by
  induction parts with
  | nil => exact absurd rfl hne
  | cons part parts ih =>
    have hpart := hparts part List.mem_cons_self
    cases parts with
    | nil => exact pieces_eq_self hpart
    | cons next parts =>
      have hrest := ih (List.cons_ne_nil _ _) fun p hp => hparts p (List.mem_cons_of_mem _ hp)
      rw [joinChars, List.append_assoc, List.singleton_append, pieces_append hpart, hrest]

/-! ## §2 Runs -/

/-- A run of members that pass a test ends where a member does not pass it. -/
theorem takeWhile_append_of_head {α : Type} {p : α → Bool} {run rest : List α}
    (hrun : ∀ a ∈ run, p a = true) (hrest : ∀ a ∈ rest.head?, p a = false) :
    (run ++ rest).takeWhile p = run := by
  rw [List.takeWhile_append_of_pos hrun]
  cases rest with
  | nil => exact List.append_nil _
  | cons a rest =>
    rw [List.takeWhile_cons_of_neg (by simp [hrest a rfl]), List.append_nil]

theorem dropWhile_append_of_head {α : Type} {p : α → Bool} {run rest : List α}
    (hrun : ∀ a ∈ run, p a = true) (hrest : ∀ a ∈ rest.head?, p a = false) :
    (run ++ rest).dropWhile p = rest := by
  rw [List.dropWhile_append_of_pos hrun]
  cases rest with
  | nil => rfl
  | cons a rest => rw [List.dropWhile_cons_of_neg (by simp [hrest a rfl])]

/-- What is left behind a run begins with a member that does not pass the test. -/
theorem of_mem_head?_dropWhile {α : Type} {p : α → Bool} {l : List α} {a : α}
    (ha : a ∈ (l.dropWhile p).head?) : p a = false := by
  have hhead := List.head?_dropWhile_not p l
  rwa [ha] at hhead

/-! ## §3 Texts in texts -/

theorem occursIn_iff {part l : List Char} : occursIn part l = true ↔ part <:+: l := by
  induction l with
  | nil => simp [occursIn]
  | cons c l ih =>
    rw [occursIn, Bool.or_eq_true, ih, List.isPrefixOf_iff_prefix, List.infix_cons_iff]

end CatalogSync.Text
