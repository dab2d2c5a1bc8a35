import CatalogSync.Proofs.Naming.Name
/-!
# Names as normal forms

Sanitization leaves a name, or nothing, and it leaves names as they are. So names and the empty text
are the normal forms of sanitization, and sanitizing once more changes nothing. Nothing is left of a
text exactly when it holds no letter and no digit, and the letters and digits of the name are the
first ones of the text (`sanitize_normalForm`).
-/

namespace CatalogSync.Name

/-! ## §1 Names are without stray separators -/

theorem IsRun.not_separator {run : List Char} (hrun : IsRun run) :
    ∀ c ∈ run, isSeparator c = false :=
  fun c hc => not_separator_of_isAlphanum (hrun.alphanumeric c hc)

theorem IsRun.tidy {run : List Char} (hrun : IsRun run) : Tidy run where
  characters c hc := isNameChar_of_isAlphanum (hrun.alphanumeric c hc)
  apart := by
    refine (List.pairwise_of_forall_mem_list fun c hc d _ hseparator => ?_).isChain
    rw [hrun.not_separator c hc] at hseparator
    cases hseparator
  first c hc := hrun.not_separator c (List.mem_of_mem_head? hc)
  last c hc := hrun.not_separator c (List.mem_of_mem_getLast? hc)

theorem Spelled.ne_nil {l : List Char} (hl : Spelled l) : l ≠ [] := by
  cases hl with
  | run hrun => exact hrun.filled
  | joined hrun _ _ => simp

/-- A separator between a run and a text without stray separators is not stray. -/
theorem Tidy.joined {run rest : List Char} {separator : Char} (hrun : IsRun run)
    (hseparator : separator ∈ ['.', '_', '-']) (hrest : Tidy rest) (hne : rest ≠ []) :
    Tidy (run ++ separator :: rest) where
  characters c hc := by
    rcases List.mem_append.mp hc with hc | hc
    · exact hrun.tidy.characters c hc
    · rcases List.mem_cons.mp hc with rfl | hc
      · rw [isNameChar, isSeparator_iff.mpr hseparator, Bool.or_true]
      · exact hrest.characters c hc
  apart := by
    rw [List.isChain_append, List.isChain_cons]
    refine ⟨hrun.tidy.apart, ⟨fun c hc _ => hrest.first c hc, hrest.apart⟩, ?_⟩
    intro c hc _ _ hc'
    rw [hrun.tidy.last c hc] at hc'
    cases hc'
  first c hc := by
    rw [List.head?_append_of_ne_nil _ hrun.filled] at hc
    exact hrun.tidy.first c hc
  last c hc := by
    rw [List.getLast?_append_cons, List.getLast?_cons_of_ne_nil hne] at hc
    exact hrest.last c hc

theorem Spelled.tidy {l : List Char} (hl : Spelled l) : Tidy l := by
  induction hl with
  | run hrun => exact hrun.tidy
  | joined hrun hseparator hrest ih => exact .joined hrun hseparator ih hrest.ne_nil

/-! ## §2 Names are left as they are -/

/-- Nothing is dropped where no two separators stand side by side. -/
theorem dropRuns_eq_self {b : Bool} {l : List Char} (hapart : l.IsChain Apart)
    (hfirst : b = true → ∀ c ∈ l.head?, isSeparator c = false) : dropRuns b l = l := by
  induction l generalizing b with
  | nil => rfl
  | cons c rest ih =>
    rw [List.isChain_cons] at hapart
    rw [dropRuns]
    cases hc : isSeparator c with
    | false =>
      rw [if_neg Bool.false_ne_true, ih hapart.2 fun h => absurd h Bool.false_ne_true]
    | true =>
      have hb : b = false := by
        cases b with
        | false => rfl
        | true => exact hc.symm.trans (hfirst rfl c rfl)
      have hnext : ∀ d ∈ rest.head?, isSeparator d = false := fun d hd => hapart.1 d hd hc
      have halone : (rest.head?.map isSeparator).getD false = false := by
        cases rest with
        | nil => rfl
        | cons d rest => exact hnext d rfl
      rw [if_pos rfl, hb, halone, if_neg (by decide), ih hapart.2 fun _ => hnext]

theorem sanitizeChars_eq_self {l : List Char} (hl : Tidy l) (hshort : l.length ≤ 63) :
    sanitizeChars l = l := by
  have hkept : l.filter isNameChar = l := List.filter_eq_self.mpr hl.characters
  have hruns : dropRuns false l = l := dropRuns_eq_self hl.apart fun h => absurd h Bool.false_ne_true
  rw [sanitizeChars, hkept, hruns, List.take_of_length_le (show l.length ≤ maxLength from hshort),
    Text.trimBoth_of_ends hl.first hl.last]

theorem sanitize_of_wellFormed {s : String} (hs : WellFormed s) : sanitize s = s := by
  have hshort : s.toList.length ≤ 63 := by
    rw [String.length_toList]
    exact hs.short
  rw [sanitize, sanitizeChars_eq_self hs.spelled.tidy hshort, String.ofList_toList]

/-- The normal forms of sanitization. -/
theorem sanitize_eq_self_iff {s : String} : sanitize s = s ↔ s = "" ∨ WellFormed s := by
  constructor
  · intro hs
    by_cases hempty : s = ""
    · exact .inl hempty
    · have hwell : WellFormed (sanitize s) := wellFormed_sanitize (by rwa [hs])
      rw [hs] at hwell
      exact .inr hwell
  · rintro (rfl | hs)
    · rfl
    · exact sanitize_of_wellFormed hs

theorem sanitize_eq_empty_or (s : String) : sanitize s = "" ∨ WellFormed (sanitize s) :=
  or_iff_not_imp_left.mpr wellFormed_sanitize

/-! ## §3 Letters and digits -/

theorem filter_dropRuns (b : Bool) (l : List Char) :
    (dropRuns b l).filter Char.isAlphanum = l.filter Char.isAlphanum := by
  have hdropped : ∀ {c}, isSeparator c = true → c.isAlphanum = false := by
    intro c hc
    rw [← Bool.not_eq_true]
    intro halphanum
    rw [not_separator_of_isAlphanum halphanum] at hc
    cases hc
  induction l generalizing b with
  | nil => rfl
  | cons c rest ih =>
    rw [dropRuns]
    split
    · next hc =>
      split
      · rw [ih, List.filter_cons, hdropped hc, if_neg Bool.false_ne_true]
      · rw [List.filter_cons, List.filter_cons, ih]
    · rw [List.filter_cons, List.filter_cons, ih]

/-- Only the cut to the maximal length takes letters or digits away, and these are the last. -/
theorem filter_sanitize_isPrefix (s : String) :
    (sanitize s).toList.filter Char.isAlphanum <+: s.toList.filter Char.isAlphanum := by
  have hkept : (s.toList.filter isNameChar).filter Char.isAlphanum =
      s.toList.filter Char.isAlphanum := by
    rw [List.filter_filter]
    congr 1
    funext c
    cases hc : c.isAlphanum with
    | false => rfl
    | true => exact isNameChar_of_isAlphanum hc
  rw [sanitize, String.toList_ofList, sanitizeChars,
    Text.filter_trimBoth fun _ => not_separator_of_isAlphanum, ← hkept,
    ← filter_dropRuns false (s.toList.filter isNameChar)]
  exact (List.take_prefix _ _).filter _

/-! ## §4 Normal forms -/

/-- Sanitization leaves a name or nothing, names and the empty text are what it leaves as they are,
and only a text without letters and digits leaves nothing. -/
theorem sanitize_normalForm :
    (∀ s, sanitize s = "" ∨ WellFormed (sanitize s)) ∧
    (∀ s, sanitize s = s ↔ s = "" ∨ WellFormed s) ∧
    (∀ s, sanitize (sanitize s) = sanitize s) ∧
    (∀ s, sanitize s = "" ↔ ¬ ∃ c ∈ s.toList, c.isAlphanum = true) ∧
    -- The letters and digits that are left are the first ones, in their order.
    ∀ s, (sanitize s).toList.filter Char.isAlphanum <+: s.toList.filter Char.isAlphanum := by
  refine ⟨sanitize_eq_empty_or, fun s => sanitize_eq_self_iff, fun s => ?_, fun s => ?_,
    filter_sanitize_isPrefix⟩
  · exact sanitize_eq_self_iff.mpr (sanitize_eq_empty_or s)
  · rw [← sanitize_ne_empty_iff, ne_eq, not_not]

end CatalogSync.Name
