import CatalogSync.Naming.Name
import CatalogSync.Proofs.Text.Trim
import Mathlib.Data.List.Chain
/-!
# What sanitization leaves

A name consists of runs of letters and digits that are joined by single separators (`Name.Spelled`),
and has at most 63 characters (`Name.WellFormed`). What sanitization leaves of a text is such a name
or nothing (`wellFormed_sanitize`), and it is nothing only for a text without letters and digits
(`sanitize_ne_empty_iff`).
-/

namespace CatalogSync.Name

/-! ## §1 Names -/

/-- A run of letters and digits. -/
structure IsRun (l : List Char) : Prop where
  filled : l ≠ []
  alphanumeric : ∀ c ∈ l, c.isAlphanum = true

/-- Runs of letters and digits, joined by single separators. -/
inductive Spelled : List Char → Prop where
  | run {run : List Char} (hrun : IsRun run) : Spelled run
  | joined {run rest : List Char} {separator : Char} (hrun : IsRun run)
      (hseparator : separator ∈ ['.', '_', '-']) (hrest : Spelled rest) :
      Spelled (run ++ separator :: rest)

/-- The form of the names of a catalog. -/
structure WellFormed (s : String) : Prop where
  short : s.length ≤ 63
  spelled : Spelled s.toList

theorem isAlphanumeric_eq (c : Char) : Text.isAlphanumeric c = c.isAlphanum := by
  have hupper : c.isUpper = decide ('A' ≤ c ∧ c ≤ 'Z') := rfl
  have hlower : c.isLower = (decide ('a' ≤ c) && decide (c ≤ 'z')) := rfl
  have halphanum : c.isAlphanum = (c.isUpper || c.isLower || Text.isDigit c) := rfl
  rw [halphanum, hupper, hlower, Bool.decide_and, Bool.or_comm (_ && _)]
  rfl

theorem isSeparator_iff {c : Char} : isSeparator c = true ↔ c ∈ ['.', '_', '-'] := by
  simp [isSeparator, or_assoc]

theorem IsRun.singleton {c : Char} (hc : c.isAlphanum = true) : IsRun [c] :=
  ⟨List.cons_ne_nil _ _, by simpa using hc⟩

theorem IsRun.cons {c : Char} {l : List Char} (hc : c.isAlphanum = true) (hl : IsRun l) :
    IsRun (c :: l) :=
  ⟨List.cons_ne_nil _ _, by simpa [hc] using hl.alphanumeric⟩

theorem Spelled.cons {c : Char} {l : List Char} (hc : c.isAlphanum = true)
    (hl : Spelled l) : Spelled (c :: l) := by
  cases hl with
  | run hrun => exact .run (hrun.cons hc)
  | joined hrun hseparator hrest =>
    rw [← List.cons_append]
    exact .joined (hrun.cons hc) hseparator hrest

theorem isAlphanum_of_not_separator {c : Char} (hc : isNameChar c = true)
    (hseparator : isSeparator c = false) : c.isAlphanum = true := by
  rwa [isNameChar, hseparator, Bool.or_false, isAlphanumeric_eq] at hc

theorem isNameChar_of_isAlphanum {c : Char} (hc : c.isAlphanum = true) : isNameChar c = true := by
  rw [isNameChar, isAlphanumeric_eq, hc, Bool.true_or]

theorem not_separator_of_isAlphanum {c : Char} (hc : c.isAlphanum = true) :
    isSeparator c = false := by
  rw [← Bool.not_eq_true, isSeparator_iff]
  intro hseparator
  simp only [List.mem_cons, List.not_mem_nil, or_false] at hseparator
  rcases hseparator with rfl | rfl | rfl
  all_goals cases hc

/-! ## §2 Texts without stray separators -/

/-- Of two neighbours, not both are separators. -/
def Apart (c d : Char) : Prop := isSeparator c = true → isSeparator d = false

/-- Name characters without a separator at an end and without two of them side by side. -/
structure Tidy (l : List Char) : Prop where
  characters : ∀ c ∈ l, isNameChar c = true
  apart : l.IsChain Apart
  first : ∀ c ∈ l.head?, isSeparator c = false
  last : ∀ c ∈ l.getLast?, isSeparator c = false

theorem Tidy.isAlphanum_head {c : Char} {l : List Char} (hl : Tidy (c :: l)) :
    c.isAlphanum = true :=
  isAlphanum_of_not_separator (hl.characters c List.mem_cons_self) (hl.first c rfl)

/-- What is left of such a text behind some characters, unless it begins with a separator. -/
theorem Tidy.of_append (before : List Char) {l : List Char} (hl : Tidy (before ++ l))
    (hfirst : ∀ c ∈ l.head?, isSeparator c = false) : Tidy l where
  characters c hc := hl.characters c (List.mem_append_right _ hc)
  apart := hl.apart.right_of_append
  first := hfirst
  last c hc := by
    apply hl.last
    rw [List.getLast?_append, hc]
    rfl

/-- A text without stray separators is a name, unless it is empty. The induction takes a separator
together with the character before it. -/
theorem Tidy.spelled : ∀ {l : List Char}, Tidy l → l ≠ [] → Spelled l
  | [], _, hne => absurd rfl hne
  | [c], hl, _ => .run (.singleton hl.isAlphanum_head)
  | c :: d :: rest, hl, _ => by
    have hc := hl.isAlphanum_head
    cases hd : isSeparator d with
    | false =>
      have hrest : Tidy (d :: rest) := .of_append [c] hl (by simpa using hd)
      exact (hrest.spelled (List.cons_ne_nil _ _)).cons hc
    | true =>
      -- The separator is not the last character, and no other stands behind it.
      cases rest with
      | nil => exact absurd hd (by simp [hl.last d rfl])
      | cons e rest =>
        obtain ⟨-, hapart⟩ := List.isChain_cons_cons.mp hl.apart
        have he := (List.isChain_cons_cons.mp hapart).1 hd
        have hrest : Tidy (e :: rest) := .of_append [c, d] hl (by simpa using he)
        exact .joined (.singleton hc) (isSeparator_iff.mp hd)
          (hrest.spelled (List.cons_ne_nil _ _))

/-- Among the first two characters of a text without two separators side by side there is a letter
or digit, if there is one at all. -/
theorem exists_mem_take_two {l : List Char} {c : Char} (hl : l.IsChain Apart) (hc : c ∈ l)
    (hseparator : isSeparator c = false) : ∃ d ∈ l.take 2, isSeparator d = false := by
  cases hl with
  | nil => cases hc
  | singleton d =>
    obtain rfl := List.mem_singleton.mp hc
    exact ⟨c, List.mem_cons_self, hseparator⟩
  | @cons_cons d e rest hde _ =>
    cases hd : isSeparator d with
    | false => exact ⟨d, List.mem_cons_self, hd⟩
    | true => exact ⟨e, List.mem_cons_of_mem _ List.mem_cons_self, hde hd⟩

/-! ## §3 Sanitization -/

theorem isSeparator_head?_dropRuns {l : List Char} {c : Char}
    (hc : (dropRuns true l).head? = some c) : isSeparator c = false := by
  induction l with
  | nil => cases hc
  | cons d rest ih =>
    rw [dropRuns] at hc
    by_cases hd : isSeparator d = true
    · rw [if_pos hd, Bool.true_or, if_pos rfl] at hc
      exact ih hc
    · rw [if_neg hd] at hc
      cases hc
      simpa using hd

/-- Behind the separators that are kept stands no other. -/
theorem isChain_dropRuns (b : Bool) (l : List Char) : (dropRuns b l).IsChain Apart := by
  induction l generalizing b with
  | nil => exact .nil
  | cons c rest ih =>
    rw [dropRuns]
    split
    · split
      · exact ih true
      · exact (ih true).cons fun d hd _ => isSeparator_head?_dropRuns hd
    · next hc => exact (ih false).cons fun d _ hseparator => absurd hseparator hc

/-- Only separators are dropped. -/
theorem mem_dropRuns {b : Bool} {c : Char} {l : List Char} (hc : c ∈ l)
    (hseparator : isSeparator c = false) : c ∈ dropRuns b l := by
  induction l generalizing b with
  | nil => cases hc
  | cons d rest ih =>
    rw [dropRuns]
    rcases List.mem_cons.mp hc with rfl | hrest
    · simp [hseparator]
    · split
      · split
        · exact ih hrest
        · exact List.mem_cons_of_mem _ (ih hrest)
      · exact List.mem_cons_of_mem _ (ih hrest)

theorem tidy_sanitizeChars (l : List Char) : Tidy (sanitizeChars l) where
  characters _ hc := isNameChar_of_mem_sanitizeChars hc
  apart := by
    obtain ⟨before, after, hparts⟩ : sanitizeChars l <:+: dropRuns false (l.filter isNameChar) :=
      (Text.trimBoth_isInfix _ _).trans ( List.take_prefix _ _).isInfix
    have hchain := isChain_dropRuns false (l.filter isNameChar)
    rw [← hparts] at hchain
    exact hchain.left_of_append.right_of_append
  first _ hc := isSeparator_head?_sanitizeChars hc
  last _ hc := Text.getLast?_dropEndWhile hc

theorem length_sanitizeChars_le (l : List Char) : (sanitizeChars l).length ≤ 63 :=
  (Text.trimBoth_isInfix _ _).length_le.trans (List.length_take_le _ _)

theorem sanitize_ne_empty {s : String} : sanitize s ≠ "" ↔ sanitizeChars s.toList ≠ [] := by
  rw [sanitize, ne_eq, ← String.toList_inj]
  simp

/-- What is left of a text is a name. -/
theorem wellFormed_sanitize {s : String} (hs : sanitize s ≠ "") : WellFormed (sanitize s) := by
  have hchars : (sanitize s).toList = sanitizeChars s.toList := String.toList_ofList
  constructor
  · rw [← String.length_toList, hchars]
    exact length_sanitizeChars_le _
  · rw [hchars]
    exact (tidy_sanitizeChars _).spelled (sanitize_ne_empty.mp hs)

theorem wellFormed_of_sanitize? {s name : String} (hname : sanitize? s = some name) :
    WellFormed name := by
  obtain ⟨rfl, hne⟩ := Text.nonEmpty?_eq_some_iff.mp hname
  exact wellFormed_sanitize hne

/-- A sanitized text is a name, and so is what stands in for it. -/
theorem wellFormed_getD {texts : Option String} {fallback : String}
    (hfallback : ∃ text, sanitize? text = some fallback) :
    WellFormed ((texts.bind sanitize?).getD fallback) := by
  cases hname : texts.bind sanitize? with
  | none =>
    obtain ⟨text, htext⟩ := hfallback
    exact wellFormed_of_sanitize? htext
  | some name =>
    obtain ⟨text, -, htext⟩ := Option.bind_eq_some_iff.mp hname
    exact wellFormed_of_sanitize? htext

theorem mem_of_mem_sanitize {s : String} {c : Char} (hc : c ∈ (sanitize s).toList) :
    c ∈ s.toList := by
  rw [sanitize, String.toList_ofList] at hc
  have hkept := mem_of_mem_dropRuns (List.mem_of_mem_take (Text.mem_of_mem_trimBoth hc))
  exact (List.mem_filter.mp hkept).1

/-- What is left of a text holds a letter or a digit: its first character. -/
theorem exists_isAlphanum_sanitize {s : String} (hs : sanitize s ≠ "") :
    ∃ c ∈ (sanitize s).toList, c.isAlphanum = true := by
  obtain ⟨c, rest, hchars⟩ := List.exists_cons_of_ne_nil (sanitize_ne_empty.mp hs)
  have hc : c ∈ sanitizeChars s.toList := by simp [hchars]
  have hfirst : isSeparator c = false := isSeparator_head?_sanitizeChars (by rw [hchars]; rfl)
  refine ⟨c, ?_, isAlphanum_of_not_separator (isNameChar_of_mem_sanitizeChars hc) hfirst⟩
  rwa [sanitize, String.toList_ofList]

/-- Something is left of a text exactly when it holds a letter or a digit. -/
theorem sanitize_ne_empty_iff {s : String} :
    sanitize s ≠ "" ↔ ∃ c ∈ s.toList, c.isAlphanum = true := by
  constructor
  · intro hs
    obtain ⟨c, hc, halphanum⟩ := exists_isAlphanum_sanitize hs
    exact ⟨c, mem_of_mem_sanitize hc, halphanum⟩
  · rintro ⟨c, hc, halphanum⟩
    rw [sanitize_ne_empty]
    have hseparator := not_separator_of_isAlphanum halphanum
    have hkept : c ∈ dropRuns false (s.toList.filter isNameChar) :=
      mem_dropRuns (List.mem_filter.mpr ⟨hc, isNameChar_of_isAlphanum halphanum⟩) hseparator
    -- The cut is far behind the first letter or digit.
    obtain ⟨d, hd, hd'⟩ := exists_mem_take_two (isChain_dropRuns _ _) hkept hseparator
    have hcut : d ∈ (dropRuns false (s.toList.filter isNameChar)).take maxLength :=
      (List.take_prefix_take_left (by decide)).subset hd
    exact List.ne_nil_of_mem (Text.mem_trimBoth hcut hd')

/-- Something is left of two texts, each sanitized and then joined by a dash, when something is left
of one of them. -/
theorem sanitize_join_ne_empty {a b : String} (h : sanitize a ≠ "" ∨ sanitize b ≠ "") :
    sanitize (sanitize a ++ "-" ++ sanitize b) ≠ "" := by
  rw [sanitize_ne_empty_iff]
  rcases h with ha | hb
  · obtain ⟨c, hc, halphanum⟩ := exists_isAlphanum_sanitize ha
    exact ⟨c, by simp [hc], halphanum⟩
  · obtain ⟨c, hc, halphanum⟩ := exists_isAlphanum_sanitize hb
    exact ⟨c, by simp [hc], halphanum⟩

end CatalogSync.Name
