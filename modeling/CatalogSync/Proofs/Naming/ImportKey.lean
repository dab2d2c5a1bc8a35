import CatalogSync.Naming.ImportKey
import CatalogSync.Proofs.Naming.Name
import CatalogSync.Proofs.Text.Trim
/-!
# Keys that were written

A text is that of a key when it is made of the characters of names, and the first of its underscores
is neither its first nor its last character (`ImportKey.Spelled`). Such a text holds neither blanks
nor commas, so a key is read back from its text and a list of keys from what they are joined to.
-/

namespace CatalogSync

/-! ## §1 Characters -/

/-- Names are made of characters of ASCII. -/
theorem Name.toNat_lt_of_isNameChar {c : Char} (hc : isNameChar c = true) : c.toNat < 128 := by
  have hle : ∀ d : Char, c ≤ d → d.toNat < 128 → c.toNat < 128 :=
    fun d hcd hd => Nat.lt_of_le_of_lt hcd hd
  simp only [isNameChar, isSeparator, Text.isAlphanumeric, Text.isLetter, Text.isDigit,
    Bool.or_eq_true, Bool.and_eq_true, decide_eq_true_eq, beq_iff_eq] at hc
  rcases hc with ((⟨-, hz⟩ | ⟨-, hz⟩) | ⟨-, h9⟩) | ((rfl | rfl) | rfl)
  · exact hle 'z' hz (by decide)
  · exact hle 'Z' hz (by decide)
  · exact hle '9' h9 (by decide)
  all_goals decide

theorem Name.facts_of_isNameChar {c : Char} (hc : isNameChar c = true) :
    Text.isBlank c = false ∧ c ≠ ',' := by
  have hascii : ∀ n < 128, isNameChar (Char.ofNat n) = true →
      Text.isBlank (Char.ofNat n) = false ∧ Char.ofNat n ≠ ',' := by decide +kernel
  have hfacts := hascii c.toNat (toNat_lt_of_isNameChar hc)
  rw [Char.ofNat_toNat] at hfacts
  exact hfacts hc

namespace ImportKey

/-! ## §2 Texts of keys -/

/-- The texts of keys. -/
structure Spelled (text : List Char) : Prop where
  characters : ∀ c ∈ text, c.isAlphanum = true ∨ c = '.' ∨ c = '_' ∨ c = '-'
  notFirst : 0 < text.idxOf '_'
  -- The index of a character that does not occur is the length.
  notLast : text.idxOf '_' + 1 < text.length

theorem isNameChar_iff {c : Char} :
    Name.isNameChar c = true ↔ c.isAlphanum = true ∨ c = '.' ∨ c = '_' ∨ c = '-' := by
  simp [Name.isNameChar, Name.isSeparator, Name.isAlphanumeric_eq, or_assoc]

theorem Spelled.separator_mem {text : List Char} (htext : Spelled text) : separator ∈ text :=
  List.idxOf_lt_length_iff.mp (Nat.lt_of_succ_lt htext.notLast)

/-- A text that is cut at its first underscore is a key when both parts hold something. -/
theorem spelled_append_iff {head tail : List Char} (hhead : separator ∉ head) :
    Spelled (head ++ separator :: tail) ↔
      head ≠ [] ∧ tail ≠ [] ∧ ∀ c ∈ head ++ separator :: tail, Name.isNameChar c = true := by
  have hindex : (head ++ separator :: tail).idxOf '_' = head.length := by
    show (head ++ separator :: tail).idxOf separator = head.length
    rw [List.idxOf_append, if_neg hhead, List.idxOf_cons_self, Nat.zero_add]
  have hlength : (head ++ separator :: tail).length = head.length + 1 + tail.length := by
    simp only [List.length_append, List.length_cons]
    omega
  simp only [isNameChar_iff]
  constructor
  · intro htext
    have hfirst := htext.notFirst
    have hlast := htext.notLast
    rw [hindex] at hfirst hlast
    rw [hlength] at hlast
    refine ⟨List.ne_nil_of_length_pos hfirst, List.ne_nil_of_length_pos ?_, htext.characters⟩
    omega
  · rintro ⟨hne, htail, hcharacters⟩
    have hfirst := List.length_pos_iff.mpr hne
    have hlast := List.length_pos_iff.mpr htail
    refine ⟨hcharacters, ?_, ?_⟩
    · rwa [hindex]
    · rw [hindex, hlength]
      omega

/-- The texts that break no rule are the texts of keys. -/
theorem fault?_eq_none_iff {text : List Char} : fault? text = none ↔ Spelled text := by
  cases hcut : Text.cut separator text with
  | none =>
    -- A text without an underscore breaks the first or the second rule.
    have hfault : fault? text ≠ none := by
      rw [fault?, hcut]
      split <;> simp
    refine ⟨fun h => absurd h hfault, fun htext => ?_⟩
    obtain ⟨head, tail, rfl, hhead⟩ := List.eq_append_cons_of_mem htext.separator_mem
    rw [Text.cut_append hhead] at hcut
    cases hcut
  | some parts =>
    obtain ⟨head, tail⟩ := parts
    obtain ⟨rfl, hhead⟩ := Text.cut_eq_some_iff.mp hcut
    have hne : (head ++ separator :: tail).isEmpty = false := by simp
    rw [spelled_append_iff hhead, fault?, hcut, hne, ← List.all_eq_true]
    by_cases hfirst : head = []
    · simp [hfirst]
    · by_cases hlast : tail = []
      · simp [hlast]
      · by_cases hall : (head ++ separator :: tail).all Name.isNameChar = true
        · simp only [hall]
          simp [hfirst, hlast]
        · simp only [hall]
          simp [hfirst, hlast]

/-! ## §3 Reading a key back -/

theorem spelled_text (key : ImportKey) : Spelled key.text.toList :=
  fault?_eq_none_iff.mp key.wellFormed

/-- What every text of a key is made of. -/
theorem text_facts (key : ImportKey) :
    key.text.isEmpty = false ∧ ∀ c ∈ key.text.toList, Name.isNameChar c = true := by
  refine ⟨?_, fun c hc => isNameChar_iff.mpr (key.spelled_text.characters c hc)⟩
  simpa using List.ne_nil_of_mem key.spelled_text.separator_mem

theorem isBlank_text (key : ImportKey) : ∀ c ∈ key.text.toList, Text.isBlank c = false :=
  fun c hc => (Name.facts_of_isNameChar (key.text_facts.2 c hc)).1

theorem comma_notMem_text (key : ImportKey) : ',' ∉ key.text.toList :=
  fun hc => (Name.facts_of_isNameChar (key.text_facts.2 _ hc)).2 rfl

theorem trimmed?_text (key : ImportKey) : Text.trimmed? key.text = some key.text :=
  Text.trimmed?_eq_some key.isBlank_text key.text_facts.1

/-- A key is read back from its text. -/
theorem parse_text (key : ImportKey) : parse key.text = .ok key := by
  unfold parse
  split
  · rfl
  next e heq =>
    rw [key.wellFormed] at heq
    cases heq

theorem read_text (key : ImportKey) : read key.text = .ok key := by
  rw [read, parse_text]
  rfl

end ImportKey

theorem KeySet.mapM_read_text (keys : List ImportKey) :
    (keys.map ImportKey.text).mapM ImportKey.read = .ok keys := by
  induction keys with
  | nil => rfl
  | cons key keys ih =>
    rw [List.map_cons, List.mapM_cons, ImportKey.read_text, ih]
    rfl

/-- A list of keys is read back from what it was joined to. -/
theorem KeySet.parse_join (keys : List ImportKey) : parse (join keys) = .ok keys := by
  cases keys with
  | nil => rfl
  | cons key keys =>
    have hsplit : Text.split ',' (join (key :: keys)) = (key :: keys).map ImportKey.text := by
      have hparts : ∀ part ∈ ((key :: keys).map ImportKey.text).map String.toList,
          ',' ∉ part := by
        intro part hpart
        obtain ⟨text, htext, rfl⟩ := List.mem_map.mp hpart
        obtain ⟨k, -, rfl⟩ := List.mem_map.mp htext
        exact k.comma_notMem_text
      unfold Text.split join Text.join
      rw [String.toList_ofList]
      show (Text.pieces ',' (Text.joinChars [','] _)).map String.ofList = _
      rw [Text.pieces_joinChars (by simp) hparts, List.map_map]
      exact List.map_id'' (fun text => String.ofList_toList) _
    have htrim : ∀ keys : List ImportKey,
        (keys.map ImportKey.text).filterMap Text.trimmed? = keys.map ImportKey.text := by
      intro keys
      induction keys with
      | nil => rfl
      | cons key keys ih =>
        rw [List.map_cons, List.filterMap_cons, key.trimmed?_text]
        simp only [ih]
    rw [parse, hsplit, htrim, mapM_read_text]

end CatalogSync
