import CatalogSync.Naming.Tag
import CatalogSync.Proofs.Text.Trim
/-!
# Tags as a grammar

A tag is spelled as words of lower-case letters, digits and `:`, `+`, `#` that are joined by single
dashes (`Tag.Spelled`), and it has at most 63 characters. It is of no account whether characters or
bytes are counted, because such words are ASCII. A candidate stands for what it is without blanks
around it and in lower case, if that is a tag. So candidates that differ in nothing else stand for
the same tag, and a tag stands for itself (`tag_contract`).
-/

namespace CatalogSync

/-! ## §1 Case and blanks -/

namespace Text

/-- Only letters of ASCII have another case. -/
theorem lowerChar_of_not_ascii {c : Char} (hc : ¬ c.toNat < 128) : lowerChar c = c := by
  have hupper : ¬ c ≤ 'Z' := fun hle => hc (Nat.lt_of_le_of_lt hle (by decide))
  rw [lowerChar, decide_eq_false hupper, Bool.and_false]
  rfl

theorem lowerChar_eq_toLower (c : Char) : lowerChar c = c.toLower := by
  have hascii : ∀ n < 128, lowerChar (Char.ofNat n) = (Char.ofNat n).toLower := by decide +kernel
  by_cases hc : c.toNat < 128
  · have hsame := hascii c.toNat hc
    rwa [Char.ofNat_toNat] at hsame
  · have hcapital : ¬ (c.val ≥ 'A'.val ∧ c.val ≤ 'Z'.val) :=
      fun hcapital => hc (Nat.lt_of_le_of_lt hcapital.2 (by decide))
    rw [lowerChar_of_not_ascii hc]
    delta Char.toLower
    rw [dif_neg hcapital]

theorem isBlank_lowerChar (c : Char) : isBlank (lowerChar c) = isBlank c := by
  have hascii : ∀ n < 128, isBlank (lowerChar (Char.ofNat n)) = isBlank (Char.ofNat n) := by
    decide +kernel
  by_cases hc : c.toNat < 128
  · have hsame := hascii c.toNat hc
    rwa [Char.ofNat_toNat] at hsame
  · rw [lowerChar_of_not_ascii hc]

/-- A text stands in another one with nothing but blanks around it. -/
def Padded (core l : List Char) : Prop :=
  ∃ before after, l = before ++ core ++ after ∧
    (∀ c ∈ before, isBlank c = true) ∧ ∀ c ∈ after, isBlank c = true

/-- Two texts differ in nothing but the blanks around them and the case of letters. -/
def Alike (a b : String) : Prop :=
  ∃ core core', Padded core a.toList ∧ Padded core' b.toList ∧
    core.map Char.toLower = core'.map Char.toLower

theorem Padded.lower_trim {core : List Char} {s : String} (hs : Padded core s.toList) :
    lower (trim s) = String.ofList (trimChars (core.map Char.toLower)) := by
  obtain ⟨before, after, hs, hbefore, hafter⟩ := hs
  have hlower : lowerChar = Char.toLower := funext lowerChar_eq_toLower
  -- Trimming first is trimming afterwards: no blank is another character in lower case.
  have hmap : (trimChars core).map lowerChar = trimChars (core.map lowerChar) :=
    (trimBoth_map isBlank_lowerChar core).symm
  rw [lower, trim, String.toList_ofList, hs]
  rw [show trimChars (before ++ core ++ after) = trimChars core from
    trimBoth_padded hbefore hafter core, hmap, hlower]

theorem Alike.lower_trim {a b : String} (hab : Alike a b) : lower (trim a) = lower (trim b) := by
  obtain ⟨core, core', ha, hb, hsame⟩ := hab
  rw [ha.lower_trim, hb.lower_trim, hsame]

/-- A text of ASCII has as many bytes as characters. -/
theorem utf8ByteSize_of_ascii {s : String} (hs : ∀ c ∈ s.toList, c.toNat < 128) :
    s.utf8ByteSize = s.length := by
  rw [← String.length_toList, ← String.ofList_toList (s := s)]
  generalize s.toList = l at hs
  rw [String.toList_ofList]
  induction l with
  | nil => rfl
  | cons c l ih =>
    have hc : c.utf8Size = 1 := Char.utf8Size_eq_one_iff.mpr
      (Nat.le_of_lt_succ (hs c List.mem_cons_self))
    rw [String.ofList_cons, String.utf8ByteSize_append, String.utf8ByteSize_singleton, hc,
      ih fun d hd => hs d (List.mem_cons_of_mem _ hd), List.length_cons, Nat.add_comm]

end Text

namespace Tag

/-! ## §2 The grammar -/

/-- A word of a tag. -/
structure IsWord (l : List Char) : Prop where
  filled : l ≠ []
  characters : ∀ c ∈ l, c.isLower = true ∨ c.isDigit = true ∨ c ∈ [':', '+', '#']

/-- Words that are joined by single dashes. -/
inductive Spelled : List Char → Prop where
  | word {word : List Char} (hword : IsWord word) : Spelled word
  | joined {word rest : List Char} (hword : IsWord word) (hrest : Spelled rest) :
      Spelled (word ++ '-' :: rest)

theorem isSegmentChar_iff {c : Char} :
    isSegmentChar c = true ↔ c.isLower = true ∨ c.isDigit = true ∨ c ∈ [':', '+', '#'] := by
  have hlower : c.isLower = (decide ('a' ≤ c) && decide (c ≤ 'z')) := rfl
  have hdigit : c.isDigit = Text.isDigit c := rfl
  simp [isSegmentChar, hlower, hdigit, or_assoc]

theorem isSegment_iff {l : List Char} : isSegment l = true ↔ IsWord l := by
  rw [isSegment, Bool.and_eq_true, List.all_eq_true]
  simp only [isSegmentChar_iff]
  constructor
  · rintro ⟨hfilled, hcharacters⟩
    exact ⟨by simpa using hfilled, hcharacters⟩
  · rintro ⟨hfilled, hcharacters⟩
    exact ⟨by simpa using hfilled, hcharacters⟩

theorem toNat_lt_of_isSegmentChar {c : Char} (hc : isSegmentChar c = true) : c.toNat < 128 := by
  have hle : ∀ d : Char, c ≤ d → d.toNat < 128 → c.toNat < 128 :=
    fun d hcd hd => Nat.lt_of_le_of_lt hcd hd
  simp only [isSegmentChar, Text.isDigit, Bool.or_eq_true, Bool.and_eq_true, decide_eq_true_eq,
    beq_iff_eq] at hc
  rcases hc with (((⟨-, hz⟩ | ⟨-, h9⟩) | rfl) | rfl) | rfl
  · exact hle 'z' hz (by decide)
  · exact hle '9' h9 (by decide)
  all_goals decide

/-- Characters of words are neither dashes nor blanks nor capital letters. -/
theorem facts_of_isSegmentChar {c : Char} (hc : isSegmentChar c = true) :
    c ≠ '-' ∧ Text.isBlank c = false ∧ Text.lowerChar c = c := by
  have hascii : ∀ n < 128, isSegmentChar (Char.ofNat n) = true → Char.ofNat n ≠ '-' ∧
      Text.isBlank (Char.ofNat n) = false ∧
      Text.lowerChar (Char.ofNat n) = Char.ofNat n := by decide +kernel
  have hfacts := hascii c.toNat (toNat_lt_of_isSegmentChar hc)
  rw [Char.ofNat_toNat] at hfacts
  exact hfacts hc

theorem IsWord.dash_notMem {word : List Char} (hword : IsWord word) : '-' ∉ word := fun hdash =>
  (facts_of_isSegmentChar (isSegmentChar_iff.mpr (hword.characters _ hdash))).1 rfl

/-- Words that are joined by dashes are spelled as a tag. -/
theorem spelled_joinChars {words : List (List Char)} (hne : words ≠ [])
    (hwords : ∀ word ∈ words, IsWord word) : Spelled (Text.joinChars ['-'] words) := by
  induction words with
  | nil => exact absurd rfl hne
  | cons word words ih =>
    have hword := hwords word List.mem_cons_self
    cases words with
    | nil => exact .word hword
    | cons next words =>
      have hrest := ih (List.cons_ne_nil _ _) fun w hw => hwords w (List.mem_cons_of_mem _ hw)
      rw [Text.joinChars, List.append_assoc, List.singleton_append]
      exact .joined hword hrest

/-- A text is spelled as a tag when all that stands between its dashes are words. -/
theorem spelled_iff_pieces {l : List Char} :
    Spelled l ↔ ∀ word ∈ Text.pieces '-' l, IsWord word := by
  constructor
  · intro hl
    induction hl with
    | word hword =>
      rw [Text.pieces_eq_self hword.dash_notMem]
      simpa using hword
    | joined hword hrest ih =>
      rw [Text.pieces_append hword.dash_notMem]
      exact List.forall_mem_cons.mpr ⟨hword, ih⟩
  · intro hpieces
    rw [← Text.joinChars_pieces '-' l]
    exact spelled_joinChars (Text.pieces_ne_nil _ _) hpieces

theorem all_isSegment_iff {l : List Char} :
    (Text.pieces '-' l).all isSegment = true ↔ Spelled l := by
  simp only [List.all_eq_true, isSegment_iff, spelled_iff_pieces]

theorem isValid_iff {tag : String} : isValid tag = true ↔ tag.length ≤ 63 ∧ Spelled tag.toList := by
  rw [isValid, Bool.and_eq_true, decide_eq_true_eq, all_isSegment_iff]
  rfl

/-! ## §3 Tags stand for themselves -/

theorem Spelled.characters {l : List Char} (hl : Spelled l) :
    ∀ c ∈ l, isSegmentChar c = true ∨ c = '-' := by
  have hword : ∀ {word}, IsWord word → ∀ c ∈ word, isSegmentChar c = true :=
    fun hword c hc => isSegmentChar_iff.mpr (hword.characters c hc)
  induction hl with
  | word hw => exact fun c hc => .inl (hword hw c hc)
  | joined hw hrest ih =>
    intro c hc
    rcases List.mem_append.mp hc with hc | hc
    · exact .inl (hword hw c hc)
    · rcases List.mem_cons.mp hc with rfl | hc
      · exact .inr rfl
      · exact ih c hc

/-- No character of a tag is a blank or has another form in lower case. -/
theorem Spelled.facts {l : List Char} (hl : Spelled l) :
    ∀ c ∈ l, c.toNat < 128 ∧ Text.isBlank c = false ∧ Text.lowerChar c = c := by
  intro c hc
  rcases hl.characters c hc with hc | rfl
  · exact ⟨toNat_lt_of_isSegmentChar hc, (facts_of_isSegmentChar hc).2⟩
  · decide

theorem Spelled.lower_trim {tag : String} (htag : Spelled tag.toList) :
    Text.lower (Text.trim tag) = tag := by
  have hmap : tag.toList.map Text.lowerChar = tag.toList := by
    refine (List.map_congr_left fun c hc => (htag.facts c hc).2.2).trans (List.map_id _)
  rw [Text.trim_eq_self fun c hc => (htag.facts c hc).2.1, Text.lower, hmap, String.ofList_toList]

/-- The bound may as well be one on the bytes of a tag. -/
theorem isValid_iff_bytes {tag : String} :
    isValid tag = true ↔ tag.utf8ByteSize ≤ 63 ∧ Spelled tag.toList := by
  rw [isValid_iff]
  refine and_congr_left fun htag => ?_
  rw [Text.utf8ByteSize_of_ascii fun c hc => (htag.facts c hc).1]

/-! ## §4 Candidates -/

/-- A candidate stands for what it is in lower case, if that is a tag. -/
theorem normalize?_eq_some_iff {candidate tag : String} :
    normalize? candidate = some tag ↔
      tag = Text.lower (Text.trim candidate) ∧ isValid tag = true := by
  rw [normalize?]
  by_cases hvalid : isValid (Text.lower (Text.trim candidate)) = true
  · rw [if_pos hvalid, Option.some.injEq]
    constructor
    · intro htag
      rw [← htag]
      exact ⟨rfl, hvalid⟩
    · intro htag
      exact htag.1.symm
  · rw [if_neg hvalid]
    constructor
    · intro hnone
      cases hnone
    · intro htag
      rw [← htag.1] at hvalid
      exact absurd htag.2 hvalid

theorem isValid_of_normalize? {candidate tag : String}
    (htag : normalize? candidate = some tag) : isValid tag = true :=
  (normalize?_eq_some_iff.mp htag).2

/-- A tag stands for itself. -/
theorem normalize?_of_isValid {tag : String} (htag : isValid tag = true) :
    normalize? tag = some tag :=
  normalize?_eq_some_iff.mpr ⟨(isValid_iff.mp htag).2.lower_trim.symm, htag⟩

/-- Exactly the texts of the grammar that are short enough are tags, and a candidate stands for what
it is without blanks around it and in lower case, if that is a tag. -/
theorem tag_contract :
    -- The bound is one on the characters or on the bytes.
    (∀ tag, isValid tag = true ↔ tag.length ≤ 63 ∧ Spelled tag.toList) ∧
    (∀ tag, isValid tag = true ↔ tag.utf8ByteSize ≤ 63 ∧ Spelled tag.toList) ∧
    (∀ candidate tag, normalize? candidate = some tag ↔
      tag = Text.lower (Text.trim candidate) ∧ tag.length ≤ 63 ∧ Spelled tag.toList) ∧
    (∀ candidate tag, normalize? candidate = some tag → normalize? tag = some tag) ∧
    ∀ a b, Text.Alike a b → normalize? a = normalize? b := by
  refine ⟨fun tag => isValid_iff, fun tag => isValid_iff_bytes, fun candidate tag => ?_,
    fun candidate tag htag => normalize?_of_isValid (isValid_of_normalize? htag),
    fun a b hab => ?_⟩
  · rw [normalize?_eq_some_iff, isValid_iff]
  · rw [normalize?, normalize?, hab.lower_trim]

/-- Two candidates with blanks around them, in which the same letters are capitals or not. -/
theorem tag_contract_spaced :
    Text.Alike " Team-AI\n" "team-ai" ∧ normalize? " Team-AI\n" = normalize? "team-ai" ∧
      normalize? " Team-AI\n" = some "team-ai" ∧ normalize? "team-ai" = some "team-ai" ∧
      Spelled "team-ai".toList := by
  obtain ⟨hvalid, -, hstands, hagain, halike⟩ := tag_contract
  have hspaced : Text.Alike " Team-AI\n" "team-ai" :=
    ⟨"Team-AI".toList, "team-ai".toList,
      ⟨[' '], ['\n'], by decide, List.forall_mem_singleton.mpr (by decide),
        List.forall_mem_singleton.mpr (by decide)⟩,
      ⟨[], [], by decide, List.forall_mem_nil _, List.forall_mem_nil _⟩, by decide⟩
  have hspelled := (hvalid "team-ai").mp (by decide)
  have htag := (hstands " Team-AI\n" "team-ai").mpr ⟨by decide, hspelled⟩
  exact ⟨hspaced, halike _ _ hspaced, htag, hagain _ _ htag, hspelled.2⟩

end Tag

end CatalogSync
