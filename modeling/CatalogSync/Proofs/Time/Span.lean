import CatalogSync.Proofs.Number.Natural
import CatalogSync.Proofs.Text.Split
import CatalogSync.Text.Utf8
import CatalogSync.Time.Span
/-!
# Texts that are lengths of time

A text is a length of time exactly when, between the blanks at its ends, one or more parts spell it:
a number of 64 bits and directly behind it a unit (`parse_iff_spelled`). The parts are fixed by the
text, because a unit takes every letter behind its number. Their lengths are added from left to
right under the caps of `Part.nanos` and `saturated`, and the sum is exact where it can be
represented.

The reader counts characters and cuts bytes. `slice?` is the reader with cuts that fail inside a
character, and it never fails.
-/

namespace CatalogSync

/-! ## §1 Cuts between bytes -/

namespace Text.Utf8

/-- The two parts of a text before and behind so many bytes; there is no cut inside a character or
beyond the end. -/
def splitAt? : Nat → List Char → Option (List Char × List Char)
  | 0, l => some ([], l)
  | _ + 1, [] => none
  | n + 1, c :: l =>
    if (encodeChar c).length ≤ n + 1 then
      (splitAt? (n + 1 - (encodeChar c).length) l).map fun (before, after) => (c :: before, after)
    else none

theorem length_encodeChar_pos (c : Char) : 0 < (encodeChar c).length := by
  unfold encodeChar
  simp only
  repeat' split
  all_goals exact Nat.succ_pos _

theorem length_encodeChars_cons (c : Char) (l : List Char) :
    (encodeChars (c :: l)).length = (encodeChar c).length + (encodeChars l).length :=
  List.length_append

/-- A text is cut exactly where a part of it ends. -/
theorem splitAt?_eq_some_iff {n : Nat} {l before after : List Char} :
    splitAt? n l = some (before, after) ↔
      l = before ++ after ∧ (encodeChars before).length = n := by
  induction l generalizing n before with
  | nil => cases n <;> cases before <;> simp [splitAt?, encodeChars]
  | cons c l ih =>
    have hpos := length_encodeChar_pos c
    cases n with
    | zero =>
      cases before with
      | nil => simp [splitAt?, encodeChars, eq_comm]
      | cons d before =>
        have hd := length_encodeChar_pos d
        rw [splitAt?, length_encodeChars_cons]
        exact ⟨(nomatch ·), fun h => by omega⟩
    | succ n =>
      rw [splitAt?]
      cases before with
      | nil => simp [encodeChars]
      | cons d before =>
        rw [length_encodeChars_cons, List.cons_append, List.cons.injEq]
        constructor
        · intro hcut
          split at hcut
          · next hle =>
            obtain ⟨⟨head, tail⟩, hrest, heq⟩ := Option.map_eq_some_iff.mp hcut
            cases heq
            obtain ⟨rfl, hlength⟩ := ih.mp hrest
            exact ⟨⟨rfl, rfl⟩, by omega⟩
          · cases hcut
        · rintro ⟨⟨rfl, rfl⟩, hlength⟩
          rw [if_pos (by omega), ih.mpr ⟨rfl, by omega⟩]
          rfl

/-- Every character of ASCII is one byte. -/
theorem length_encodeChars {l : List Char} (hl : ∀ c ∈ l, c.toNat < 0x80) :
    (encodeChars l).length = l.length := by
  induction l with
  | nil => rfl
  | cons c l ih =>
    have hc : (encodeChar c).length = 1 := by
      rw [encodeChar, if_pos (hl c List.mem_cons_self), List.length_singleton]
    rw [length_encodeChars_cons, hc, ih fun d hd => hl d (List.mem_cons_of_mem _ hd),
      List.length_cons, Nat.add_comm]

/-- The number of characters of a run of ASCII is where the run ends in bytes. -/
theorem splitAt?_takeWhile {p : Char → Bool} (hp : ∀ c, p c = true → c.toNat < 0x80)
    (l : List Char) :
    splitAt? (l.takeWhile p).length l = some (l.takeWhile p, l.dropWhile p) := by
  have hascii : ∀ c ∈ l.takeWhile p, c.toNat < 0x80 := fun c hc =>
    hp c (List.all_eq_true.mp List.all_takeWhile c hc)
  exact splitAt?_eq_some_iff.mpr
    ⟨List.takeWhile_append_dropWhile.symm, length_encodeChars hascii⟩

end Text.Utf8

namespace Span

/-! ## §2 Parts -/

theorem nanos_inj {a b : Span} : a.nanos = b.nanos ↔ a = b := by
  cases a
  cases b
  rw [Span.mk.injEq]

inductive TimeUnit where
  | millisecond
  | second
  | minute
  | hour
  deriving DecidableEq, Repr

namespace TimeUnit

def letters : TimeUnit → List Char
  | .millisecond => ['m', 's']
  | .second => ['s']
  | .minute => ['m']
  | .hour => ['h']

def nanos : TimeUnit → Nat
  | .millisecond => 1000000
  | .second => 1000000000
  | .minute => 60 * 1000000000
  | .hour => 3600 * 1000000000

/-- The nanoseconds that a number of units counts for: minutes and hours count for at most the
seconds of 64 bits. -/
def worth : TimeUnit → Nat → Nat
  | .millisecond, value => value * 1000000
  | .second, value => value * 1000000000
  | .minute, value => min (value * 60) Natural.max64 * 1000000000
  | .hour, value => min (value * 3600) Natural.max64 * 1000000000

theorem letters_inj {unit unit' : TimeUnit} : unit.letters = unit'.letters ↔ unit = unit' := by
  cases unit <;> cases unit' <;> decide

theorem isLetter_letters (unit : TimeUnit) : ∀ c ∈ unit.letters, Text.isLetter c = true :=
  List.all_eq_true.mp (by cases unit <;> rfl)

theorem isDigit_head?_letters (unit : TimeUnit) (rest : List Char) :
    ∀ c ∈ (unit.letters ++ rest).head?, Text.isDigit c = false := by
  cases unit <;> (rintro c ⟨⟩; decide)

/-- The cap of a unit is not felt by a length that can be represented. -/
theorem worth_eq {unit : TimeUnit} {value : Nat} (hvalue : value * unit.nanos ≤ maxNanos) :
    unit.worth value = value * unit.nanos := by
  cases unit <;> simp only [worth, nanos, maxNanos, Natural.max64] at hvalue ⊢ <;> omega

/-- A number of 64 bits is worth a length that can be represented. -/
theorem worth_le {value : Nat} (hvalue : value ≤ Natural.max64) (unit : TimeUnit) :
    unit.worth value ≤ maxNanos := by
  cases unit <;> simp only [worth, maxNanos, Natural.max64] at hvalue ⊢ <;> omega

end TimeUnit

/-- A number of 64 bits, written in digits, and a unit. -/
structure Part where
  digits : List Char
  unit : TimeUnit
  digits_ne_nil : digits ≠ []
  isDigit_digits : ∀ c ∈ digits, Text.isDigit c = true
  value_le : Natural.ofDigits 0 digits ≤ Natural.max64

namespace Part

def value (part : Part) : Nat := Natural.ofDigits 0 part.digits

/-- The part as it is written. -/
def text (part : Part) : List Char := part.digits ++ part.unit.letters

/-- The nanoseconds that the part describes. -/
def exact (part : Part) : Nat := part.value * part.unit.nanos

/-- The nanoseconds that the part counts for. -/
def nanos (part : Part) : Nat := part.unit.worth part.value

def span (part : Part) : Span := ⟨part.nanos, part.unit.worth_le part.value_le⟩

theorem text_ne_nil (part : Part) : part.text ≠ [] :=
  List.append_ne_nil_of_left_ne_nil part.digits_ne_nil _

end Part

/-- The parts one behind the other. -/
def texts (parts : List Part) : List Char := parts.flatMap Part.text

/-- The nanoseconds that parts describe together. -/
def exactSum : List Part → Nat
  | [] => 0
  | part :: parts => part.exact + exactSum parts

/-- The parts added to a length from left to right, each sum capped at the largest length. -/
def saturated (total : Nat) : List Part → Nat
  | [] => total
  | part :: parts => saturated (min (total + part.nanos) maxNanos) parts

/-- No cap is felt where everything together can be represented. -/
theorem saturated_eq {parts : List Part} {total : Nat} (h : total + exactSum parts ≤ maxNanos) :
    saturated total parts = total + exactSum parts := by
  induction parts generalizing total with
  | nil => rfl
  | cons part parts ih =>
    rw [exactSum] at h ⊢
    have hpart : part.nanos = part.exact := TimeUnit.worth_eq (by rw [← Part.exact]; omega)
    rw [saturated, hpart, Nat.min_eq_left (by omega), ih (by omega), Nat.add_assoc]

theorem saturated_le {parts : List Part} {total : Nat} (htotal : total ≤ maxNanos) :
    saturated total parts ≤ maxNanos := by
  induction parts generalizing total with
  | nil => exact htotal
  | cons part parts ih => exact ih (Nat.min_le_right _ _)

/-- The length that parts add up to. -/
def sum (parts : List Part) : Span := ⟨saturated 0 parts, saturated_le (Nat.zero_le _)⟩

/-- The sum is exact precisely where it can be represented. -/
theorem nanos_sum_eq_iff (parts : List Part) :
    (sum parts).nanos = exactSum parts ↔ exactSum parts ≤ maxNanos := by
  constructor
  · intro heq
    rw [← heq]
    exact (sum parts).nanos_le
  · intro hle
    have hsum : saturated 0 parts = 0 + exactSum parts := saturated_eq (by rwa [Nat.zero_add])
    rwa [Nat.zero_add] at hsum

/-! ## §3 One part -/

/-- A letter is ASCII, and it comes after the digits. -/
theorem toNat_of_isLetter {c : Char} (hc : Text.isLetter c = true) :
    57 < c.toNat ∧ c.toNat < 0x80 := by
  simp only [Text.isLetter, Bool.or_eq_true, Bool.and_eq_true, decide_eq_true_eq] at hc
  rcases hc with ⟨hfirst, hlast⟩ | ⟨hfirst, hlast⟩
  · have hfirst : 97 ≤ c.toNat := hfirst
    have hlast : c.toNat ≤ 122 := hlast
    omega
  · have hfirst : 65 ≤ c.toNat := hfirst
    have hlast : c.toNat ≤ 90 := hlast
    omega

theorem isLetter_of_isDigit {c : Char} (hc : Text.isDigit c = true) : Text.isLetter c = false := by
  rw [← Bool.not_eq_true]
  intro hletter
  have := Natural.toNat_of_isDigit hc
  have := toNat_of_isLetter hletter
  omega

/-- Parts do not begin with a letter. -/
theorem isLetter_head?_texts (parts : List Part) :
    ∀ c ∈ (texts parts).head?, Text.isLetter c = false := by
  cases parts with
  | nil => exact fun c hc => nomatch hc
  | cons part parts =>
    obtain ⟨d, digits, hdigits⟩ := List.exists_cons_of_ne_nil part.digits_ne_nil
    rw [texts, List.flatMap_cons, Part.text, hdigits]
    rintro _ ⟨⟩
    exact isLetter_of_isDigit (part.isDigit_digits d (hdigits ▸ List.mem_cons_self))

section Runs

variable (part : Part) {rest : List Char}

theorem takeWhile_digits_text : (part.text ++ rest).takeWhile Text.isDigit = part.digits := by
  rw [Part.text, List.append_assoc]
  exact Text.takeWhile_append_of_head part.isDigit_digits (part.unit.isDigit_head?_letters rest)

theorem dropWhile_digits_text :
    (part.text ++ rest).dropWhile Text.isDigit = part.unit.letters ++ rest := by
  rw [Part.text, List.append_assoc]
  exact Text.dropWhile_append_of_head part.isDigit_digits (part.unit.isDigit_head?_letters rest)

variable (hrest : ∀ c ∈ rest.head?, Text.isLetter c = false)

include hrest

theorem takeWhile_letters_text :
    ((part.text ++ rest).dropWhile Text.isDigit).takeWhile Text.isLetter = part.unit.letters := by
  rw [dropWhile_digits_text]
  exact Text.takeWhile_append_of_head part.unit.isLetter_letters hrest

theorem dropWhile_letters_text :
    ((part.text ++ rest).dropWhile Text.isDigit).dropWhile Text.isLetter = rest := by
  rw [dropWhile_digits_text]
  exact Text.dropWhile_append_of_head part.unit.isLetter_letters hrest

end Runs

theorem ofUnit_letters (value : Nat) (unit : TimeUnit) :
    ofUnit value unit.letters = .ok (ofNanos (unit.worth value)) := by
  cases unit <;> rfl

/-- Nothing but the letters of a unit is read as one. -/
theorem exists_unit_of_ofUnit {value : Nat} {letters : List Char} {span : Span}
    (hread : ofUnit value letters = .ok span) : ∃ unit : TimeUnit, letters = unit.letters := by
  unfold ofUnit at hread
  split at hread
  · exact ⟨.millisecond, rfl⟩
  · exact ⟨.second, rfl⟩
  · exact ⟨.minute, rfl⟩
  · exact ⟨.hour, rfl⟩
  all_goals cases hread

/-- A part is read off the front of a text when no more letters follow it. -/
theorem parsePair_text (part : Part) {rest : List Char}
    (hrest : ∀ c ∈ rest.head?, Text.isLetter c = false) :
    parsePair (part.text ++ rest) = .ok (part.span, rest) := by
  have hne : part.digits.isEmpty = false := List.isEmpty_eq_false_iff.mpr part.digits_ne_nil
  have hspan : ofNanos (part.unit.worth (Natural.ofDigits 0 part.digits)) = part.span :=
    nanos_inj.mp (Nat.min_eq_left (part.unit.worth_le part.value_le))
  unfold parsePair
  simp only [takeWhile_digits_text, takeWhile_letters_text part hrest,
    dropWhile_letters_text part hrest, hne, ofUnit_letters, hspan,
    if_neg (Nat.not_lt.mpr part.value_le), Bool.false_eq_true, if_false]

/-- What is read off the front of a text is a part, and no more letters follow it. -/
theorem exists_part_of_parsePair {l after : List Char} {span : Span}
    (hread : parsePair l = .ok (span, after)) :
    (∀ c ∈ after.head?, Text.isLetter c = false) ∧
      ∃ part : Part, l = part.text ++ after := by
  unfold parsePair at hread
  simp only at hread
  split at hread
  · cases hread
  next hne =>
    split at hread
    · cases hread
    next hvalue =>
      split at hread
      · cases hread
      next hunit =>
        cases hread
        obtain ⟨unit, hletters⟩ := exists_unit_of_ofUnit hunit
        refine ⟨fun c hc => Text.of_mem_head?_dropWhile hc, ⟨l.takeWhile Text.isDigit, unit, ?_,
          List.all_eq_true.mp List.all_takeWhile, Nat.le_of_not_lt hvalue⟩, ?_⟩
        · simpa using hne
        · rw [Part.text, ← hletters, List.append_assoc, List.takeWhile_append_dropWhile,
            List.takeWhile_append_dropWhile]

/-- One step of the reader takes one part. -/
theorem parsePair_eq_ok_iff {l after : List Char} {span : Span} :
    parsePair l = .ok (span, after) ↔
      (∀ c ∈ after.head?, Text.isLetter c = false) ∧
        ∃ part : Part, l = part.text ++ after ∧ span = part.span := by
  constructor
  · intro hread
    obtain ⟨hafter, part, rfl⟩ := exists_part_of_parsePair hread
    rw [parsePair_text part hafter] at hread
    cases hread
    exact ⟨hafter, part, rfl, rfl⟩
  · rintro ⟨hafter, part, rfl, rfl⟩
    exact parsePair_text part hafter

/-! ## §4 All parts -/

theorem texts_cons (part : Part) (parts : List Part) :
    texts (part :: parts) = part.text ++ texts parts := List.flatMap_cons

theorem texts_eq_nil_iff {parts : List Part} : texts parts = [] ↔ parts = [] := by
  cases parts with
  | nil => simp [texts]
  | cons part parts => simp [texts_cons, part.text_ne_nil]

/-- A text is spelled by one sequence of parts only. -/
theorem texts_inj {parts parts' : List Part} : texts parts = texts parts' ↔ parts = parts' := by
  refine ⟨fun htexts => ?_, congrArg texts⟩
  induction parts generalizing parts' with
  | nil => exact (texts_eq_nil_iff.mp htexts.symm).symm
  | cons part parts ih =>
    cases parts' with
    | nil => exact texts_eq_nil_iff.mp htexts
    | cons part' parts' =>
      rw [texts_cons, texts_cons] at htexts
      have hrest := isLetter_head?_texts parts
      have hrest' := isLetter_head?_texts parts'
      -- The runs of digits and of letters in front are those of the first parts.
      have hdigits : part.digits = part'.digits := by
        rw [← takeWhile_digits_text part, htexts, takeWhile_digits_text]
      have hunit : part.unit = part'.unit := TimeUnit.letters_inj.mp <| by
        rw [← takeWhile_letters_text part hrest, htexts, takeWhile_letters_text part' hrest']
      have htail : texts parts = texts parts' := by
        rw [← dropWhile_letters_text part hrest, htexts, dropWhile_letters_text part' hrest']
      cases part
      cases part'
      cases hdigits
      cases hunit
      rw [ih htail]

theorem parsePairs_nil_iff {fuel : Nat} {total span : Span} :
    parsePairs fuel total [] = .ok span ↔
      ∃ parts, [] = texts parts ∧ span.nanos = saturated total.nanos parts := by
  have hread : parsePairs fuel total [] = .ok total := by cases fuel <;> rfl
  rw [hread]
  constructor
  · rintro ⟨⟩
    exact ⟨[], rfl, rfl⟩
  · rintro ⟨parts, htexts, hsum⟩
    obtain rfl := texts_eq_nil_iff.mp htexts.symm
    rw [nanos_inj.mp hsum]

/-- What a pair leaves is shorter, so the fuel lasts for it. -/
theorem length_le_of_parsePair {l after : List Char} {span : Span} {fuel : Nat}
    (hread : parsePair l = .ok (span, after)) (hfuel : l.length ≤ fuel + 1) :
    after.length ≤ fuel := by
  obtain ⟨-, part, rfl, -⟩ := parsePair_eq_ok_iff.mp hread
  have := List.length_pos_iff.mpr part.text_ne_nil
  rw [List.length_append] at hfuel
  omega

/-- By induction on the fuel: every round takes one part off the text and adds its length. -/
theorem parsePairs_eq_ok_iff {fuel : Nat} {total span : Span} {l : List Char}
    (hfuel : l.length ≤ fuel) :
    parsePairs fuel total l = .ok span ↔
      ∃ parts, l = texts parts ∧ span.nanos = saturated total.nanos parts := by
  induction fuel generalizing total l with
  | zero =>
    obtain rfl := List.length_eq_zero_iff.mp (Nat.le_zero.mp hfuel)
    exact parsePairs_nil_iff
  | succ fuel ih =>
    cases l with
    | nil => exact parsePairs_nil_iff
    | cons c rest =>
      constructor
      · intro hread
        rw [parsePairs] at hread
        split at hread
        · cases hread
        next first after hpair =>
          obtain ⟨parts, rfl, hsum⟩ := (ih (length_le_of_parsePair hpair hfuel)).mp hread
          obtain ⟨-, part, htext, rfl⟩ := parsePair_eq_ok_iff.mp hpair
          exact ⟨part :: parts, by rw [htext, texts_cons], hsum⟩
      · rintro ⟨parts, htexts, hsum⟩
        obtain ⟨part, parts, rfl⟩ := List.exists_cons_of_ne_nil
          (mt texts_eq_nil_iff.mpr (htexts ▸ List.cons_ne_nil c rest))
        rw [texts_cons] at htexts
        have hpair : parsePair (c :: rest) = .ok (part.span, texts parts) :=
          htexts ▸ parsePair_text part (isLetter_head?_texts parts)
        rw [parsePairs, hpair]
        exact (ih (length_le_of_parsePair hpair hfuel)).mpr ⟨parts, rfl, hsum⟩

/-- Between the blanks at its ends the text is one or more parts. -/
structure Spells (raw : String) (parts : List Part) : Prop where
  ne_nil : parts ≠ []
  text : Text.trimChars raw.toList = texts parts

theorem parse_eq_ok_iff {raw : String} {span : Span} :
    parse raw = .ok span ↔ ∃ parts, Spells raw parts ∧ span = sum parts := by
  unfold parse
  simp only
  split
  next hblank =>
    rw [List.isEmpty_iff] at hblank
    constructor
    · rintro ⟨⟩
    · rintro ⟨parts, hparts, -⟩
      exact absurd (texts_eq_nil_iff.mp (hparts.text.symm.trans hblank)) hparts.ne_nil
  next hblank =>
    rw [parsePairs_eq_ok_iff (Nat.le_refl _)]
    constructor
    · rintro ⟨parts, htexts, hsum⟩
      refine ⟨parts, ⟨?_, htexts⟩, nanos_inj.mp hsum⟩
      rintro rfl
      exact hblank (List.isEmpty_iff.mpr htexts)
    · rintro ⟨parts, hparts, rfl⟩
      exact ⟨parts, hparts.text, rfl⟩

/-! ## §5 Cuts of the reader -/

/-- Read one pair with cuts between bytes, at the number of characters of a run. -/
def slicePair? (l : List Char) : Option (Except ParseError (Span × List Char)) :=
  let count := (l.takeWhile Text.isDigit).length
  if count = 0 then some (.error .noNumber)
  else
    (Text.Utf8.splitAt? count l).bind fun (number, rest) =>
      let value := Natural.ofDigits 0 number
      if Natural.max64 < value then some (.error .outOfRange)
      else
        (Text.Utf8.splitAt? (rest.takeWhile Text.isLetter).length rest).map fun (unit, after) =>
          match ofUnit value unit with
          | .error e => .error e
          | .ok span => .ok (span, after)

/-- Add the pairs with such cuts; there is no answer when a cut fails or the rounds are used up. -/
def slicePairs? : Nat → Span → List Char → Option (Except ParseError Span)
  | _, total, [] => some (.ok total)
  | 0, _, _ :: _ => none
  | fuel + 1, total, c :: rest =>
    match slicePair? (c :: rest) with
    | none => none
    | some (.error e) => some (.error e)
    | some (.ok (span, after)) => slicePairs? fuel (total + span) after

/-- The length of time that a text describes, read with cuts between bytes in as many rounds as the
text has characters at most. -/
def slice? (raw : String) : Option (Except ParseError Span) :=
  let l := Text.trimChars raw.toList
  if l.isEmpty then some (.error .blank) else slicePairs? l.length zero l

/-- Digits and letters are one byte each, so no cut lies inside a character. -/
theorem slicePair?_eq (l : List Char) : slicePair? l = some (parsePair l) := by
  have hdigits := Text.Utf8.splitAt?_takeWhile (p := Text.isDigit)
    (fun c hc => by have := Natural.toNat_of_isDigit hc; omega) l
  have hletters := Text.Utf8.splitAt?_takeWhile (p := Text.isLetter)
    (fun c hc => (toNat_of_isLetter hc).2) (l.dropWhile Text.isDigit)
  unfold slicePair? parsePair
  simp only [hdigits, hletters, Option.bind_some, Option.map_some, List.isEmpty_iff,
    List.length_eq_zero_iff]
  split
  · rfl
  · split <;> rfl

theorem slicePairs?_eq {fuel : Nat} {total : Span} {l : List Char} (hfuel : l.length ≤ fuel) :
    slicePairs? fuel total l = some (parsePairs fuel total l) := by
  induction fuel generalizing total l with
  | zero =>
    obtain rfl := List.length_eq_zero_iff.mp (Nat.le_zero.mp hfuel)
    rfl
  | succ fuel ih =>
    cases l with
    | nil => rfl
    | cons c rest =>
      rw [slicePairs?, parsePairs, slicePair?_eq]
      cases hpair : parsePair (c :: rest) with
      | error e => rfl
      | ok found => exact ih (length_le_of_parsePair hpair hfuel)

theorem slice?_eq (raw : String) : slice? raw = some (parse raw) := by
  unfold slice? parse
  simp only
  split
  · rfl
  · exact slicePairs?_eq (Nat.le_refl _)

/-- What a text must be to be read as a length of time, and which length it is then. -/
theorem parse_iff_spelled (raw : String) :
    slice? raw = some (parse raw) ∧
      (∀ span, parse raw = .ok span ↔ ∃ parts, Spells raw parts ∧ span = sum parts) ∧
      ∀ parts, Spells raw parts →
        (∀ parts', Spells raw parts' → parts' = parts) ∧
          ((sum parts).nanos = exactSum parts ↔ exactSum parts ≤ maxNanos) := by
  refine ⟨slice?_eq raw, fun span => parse_eq_ok_iff, fun parts hparts => ⟨?_, ?_⟩⟩
  · exact fun parts' hparts' => texts_inj.mp (hparts'.text.symm.trans hparts.text)
  · exact nanos_sum_eq_iff parts

/-- An hour and thirty minutes are exact; as many hours as 64 bits hold are capped. -/
theorem parse_iff_spelled_hours :
    parse " 1h30m" = .ok (ofSecs 5400) ∧
      parse "18446744073709551615h1h" = .ok (ofNanos maxNanos) := by
  constructor
  · refine ((parse_iff_spelled " 1h30m").2.1 _).mpr
      ⟨[⟨['1'], .hour, ?_, List.all_eq_true.mp rfl, ?_⟩,
        ⟨['3', '0'], .minute, ?_, List.all_eq_true.mp rfl, ?_⟩], ⟨?_, ?_⟩, ?_⟩
    all_goals decide
  · refine ((parse_iff_spelled "18446744073709551615h1h").2.1 _).mpr
      ⟨[⟨"18446744073709551615".toList, .hour, ?_, List.all_eq_true.mp rfl, ?_⟩,
        ⟨['1'], .hour, ?_, List.all_eq_true.mp rfl, ?_⟩], ⟨?_, ?_⟩, ?_⟩
    all_goals decide +kernel

end Span

end CatalogSync
