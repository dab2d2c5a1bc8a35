import CatalogSync.Json.Decoder
import CatalogSync.Json.Printer
import CatalogSync.Proofs.Number.Natural
/-!
# Documents that were written

A value is read as it was written, with blanks between its parts or without them: a text by its
escapes (`readString_quote`), a number by its digits (`readScalar_digitsOf`), a list and an object
by their parts (`Readable.arr`, `Readable.obj`). What the reader passes over is not read back, so
every part must be one that its outline keeps.
-/

namespace CatalogSync.Json

/-! ## §1 Quoted texts -/

/-- The escape of a control character has two hexadecimal digits that stand for it. -/
theorem hexWord?_escape : ∀ n < 32,
    hexWord? '0' '0' (hexDigit (n / 16)) (hexDigit (n % 16)) = some n := by
  decide

theorem readString_plain {c : Char} (hquote : c ≠ '"') (hslash : c ≠ '\\') (hc : 0x20 ≤ c.toNat)
    (rest : List Char) :
    readString (c :: rest) = (readString rest).map fun (s, after) => (c :: s, after) := by
  rw [readString]
  · rw [if_neg (not_or.mpr ⟨Nat.not_lt.mpr hc, hslash⟩)]
  · exact hquote
  -- No escape begins with this character.
  · exact fun _ _ _ _ _ _ _ _ _ h => absurd h hslash
  · exact fun _ _ _ _ _ h => absurd h hslash
  · exact fun _ _ h => absurd h hslash

theorem readString_letter {c e : Char} (hc : escaped? c = some e) (hu : c ≠ 'u')
    (rest : List Char) :
    readString ('\\' :: c :: rest) = (readString rest).map fun (s, after) => (e :: s, after) := by
  rw [readString]
  · rw [hc]
  · exact fun _ _ _ _ _ _ _ _ _ h => absurd h hu
  · exact fun _ _ _ _ _ h => absurd h hu

/-- An escape by a number that is no surrogate stands by itself, even before another. -/
theorem readString_word {a b c d : Char} {n : Nat} (hn : hexWord? a b c d = some n)
    (hsurrogate : n < 0xD800) (rest : List Char) :
    readString ('\\' :: 'u' :: a :: b :: c :: d :: rest) =
      (readString rest).map fun (s, after) => (Char.ofNat n :: s, after) := by
  by_cases hsecond : ∃ e f g h more, rest = '\\' :: 'u' :: e :: f :: g :: h :: more
  · obtain ⟨e, f, g, h, more, rfl⟩ := hsecond
    rw [readString, hn]
    simp only
    rw [if_neg (by omega), if_neg (by omega)]
  · rw [readString, hn]
    · simp only
      rw [if_neg (by omega)]
    · intro e f g h more hrest
      exact hsecond ⟨e, f, g, h, more, hrest⟩

theorem readString_escapeChar (c : Char) (rest : List Char) :
    readString (escapeChar c ++ rest) =
      (readString rest).map fun (s, after) => (c :: s, after) := by
  have hletter : ∀ letter : Char, ∀ n, c.toNat = n → escaped? letter = some (Char.ofNat n) →
      letter ≠ 'u' → readString (['\\', letter] ++ rest) =
        (readString rest).map fun (s, after) => (c :: s, after) := by
    rintro letter n rfl hescaped hu
    rw [Char.ofNat_toNat] at hescaped
    exact readString_letter hescaped hu rest
  unfold escapeChar
  by_cases hquote : c = '"'
  · rw [if_pos hquote, hquote]
    exact readString_letter rfl (by decide) rest
  rw [if_neg hquote]
  by_cases hslash : c = '\\'
  · rw [if_pos hslash, hslash]
    exact readString_letter rfl (by decide) rest
  rw [if_neg hslash]
  by_cases hplain : 0x20 ≤ c.toNat
  · rw [if_pos hplain]
    exact readString_plain hquote hslash hplain rest
  rw [if_neg hplain]
  by_cases h8 : c.toNat = 8
  · rw [if_pos h8]
    exact hletter 'b' 8 h8 rfl (by decide)
  rw [if_neg h8]
  by_cases h9 : c.toNat = 9
  · rw [if_pos h9]
    exact hletter 't' 9 h9 rfl (by decide)
  rw [if_neg h9]
  by_cases h10 : c.toNat = 10
  · rw [if_pos h10]
    exact hletter 'n' 10 h10 rfl (by decide)
  rw [if_neg h10]
  by_cases h12 : c.toNat = 12
  · rw [if_pos h12]
    exact hletter 'f' 12 h12 rfl (by decide)
  rw [if_neg h12]
  by_cases h13 : c.toNat = 13
  · rw [if_pos h13]
    exact hletter 'r' 13 h13 rfl (by decide)
  rw [if_neg h13]
  -- Any other control character is written by its number.
  have hword := readString_word (hexWord?_escape c.toNat (by omega)) (by omega) rest
  rw [Char.ofNat_toNat] at hword
  exact hword

/-- A quoted text is read up to its closing quote. -/
theorem readString_quote (s rest : List Char) :
    readString (s.flatMap escapeChar ++ '"' :: rest) = some (s, rest) := by
  induction s with
  | nil => rfl
  | cons c s ih =>
    rw [List.flatMap_cons, List.append_assoc, readString_escapeChar, ih]
    rfl

/-! ## §2 Numbers -/

/-- What follows a value does not go on with a number. -/
def Stops : List Char → Prop
  | [] => True
  | c :: _ => Text.isDigit c = false ∧ c ≠ '.' ∧ c ≠ 'e' ∧ c ≠ 'E'

/-- Neither a comma nor the end of a list or an object goes on with a number. -/
theorem stops_of_mem {c : Char} (hc : c ∈ [',', ']', '\x7d']) (l : List Char) :
    Stops (c :: l) := by
  simp only [List.mem_cons, List.not_mem_nil, or_false] at hc
  rcases hc with rfl | rfl | rfl <;> exact ⟨rfl, by decide⟩

theorem Stops.isDigit_head? {rest : List Char} (hrest : Stops rest) :
    ∀ c ∈ rest.head?, Text.isDigit c = false := by
  cases rest with
  | nil => exact fun c hc => nomatch hc
  | cons d rest =>
    rintro _ ⟨⟩
    exact hrest.1

theorem takeWhile_digits {digits rest : List Char} (hdigits : ∀ c ∈ digits, Text.isDigit c = true)
    (hrest : Stops rest) : (digits ++ rest).takeWhile Text.isDigit = digits :=
  Text.takeWhile_append_of_head hdigits hrest.isDigit_head?

theorem dropWhile_digits {digits rest : List Char} (hdigits : ∀ c ∈ digits, Text.isDigit c = true)
    (hrest : Stops rest) : (digits ++ rest).dropWhile Text.isDigit = rest :=
  Text.dropWhile_append_of_head hdigits hrest.isDigit_head?

/-- Where a number may stop there is neither a fraction nor an exponent. -/
theorem readFraction_of_stops {rest : List Char} (hrest : Stops rest) :
    readFraction rest = some ([], rest) := by
  unfold readFraction
  split
  · exact absurd rfl hrest.2.1
  · rfl

theorem readExponent_of_stops {rest : List Char} (hrest : Stops rest) :
    readExponent rest = some (none, rest) := by
  unfold readExponent
  split
  · rw [if_neg (not_or.mpr hrest.2.2)]
  · rfl

/-- The digits of a number are read up to their end. -/
theorem readMagnitude_digitsOf (n : Nat) {rest : List Char} (hrest : Stops rest) :
    readMagnitude false (Natural.digitsOf n ++ rest) =
      some ({ negative := false, whole := Natural.digitsOf n }, rest) := by
  have hdigits : ∀ c ∈ Natural.digitsOf n, Text.isDigit c = true := Natural.isDigit_digitsOf n
  have hwhole : ¬((Natural.digitsOf n).isEmpty = true ∨
      ((Natural.digitsOf n).length ≠ 1 ∧ (Natural.digitsOf n).head? = some '0')) := by
    have hne := (Natural.digitsOf_eq n).1
    rw [List.isEmpty_iff]
    exact fun h => h.elim hne fun hzero => hzero.1 (Natural.length_of_head?_zero hzero.2)
  unfold readMagnitude
  simp only [takeWhile_digits hdigits hrest, dropWhile_digits hdigits hrest,
    readFraction_of_stops hrest, if_neg hwhole]
  show (readExponent rest).bind _ = _
  rw [readExponent_of_stops hrest]
  rfl

theorem value?_digitsOf {n : Nat} (hn : n ≤ Natural.max64) :
    ({ negative := false, whole := Natural.digitsOf n } : Numeral).value? = some (.nat n) := by
  show wholeNumber? false (Natural.digitsOf n) = _
  unfold wholeNumber?
  simp only [(Natural.digitsOf_eq n).2.2, if_neg (Nat.not_lt.mpr hn)]
  rfl

/-- No word begins with a digit. -/
theorem readWord_of_isDigit {c : Char} (hc : Text.isDigit c = true) (l : List Char) :
    readWord (c :: l) = none := by
  have hne : ∀ d, Text.isDigit d = false → d ≠ c := fun d hd => (Text.ne_of_isDigit hc hd).symm
  simp [readWord, words, word?, hne 'n' rfl, hne 't' rfl, hne 'f' rfl]

/-- A number is read where a value may stand. -/
theorem readScalar_digitsOf {n : Nat} (hn : n ≤ Natural.max64) {rest : List Char}
    (hrest : Stops rest) :
    readScalar (Natural.digitsOf n ++ rest) = .whole (.nat n) rest := by
  have hmagnitude := readMagnitude_digitsOf n hrest
  have hvalue := value?_digitsOf hn
  obtain ⟨c, digits, hdigits, hc⟩ := Natural.exists_digitsOf_cons n
  rw [hdigits] at hmagnitude hvalue ⊢
  have hnumeral : readNumeral (c :: digits ++ rest) =
      some ({ negative := false, whole := c :: digits }, rest) := by
    unfold readNumeral
    split
    next heq => exact absurd (List.cons.inj heq).1 (Text.ne_of_isDigit hc (by decide))
    next => exact hmagnitude
  unfold readScalar
  split
  next heq => exact absurd (List.cons.inj heq).1 (Text.ne_of_isDigit hc (by decide))
  next =>
    rw [List.cons_append, readWord_of_isDigit hc]
    rw [List.cons_append] at hnumeral
    simp only [hnumeral, hvalue]
    rfl

/-! ## §3 Blanks -/

def Blank (l : List Char) : Prop := ∀ c ∈ l, isSpace c = true

theorem skipSpace_cons {c : Char} (hc : isSpace c = false) (l : List Char) :
    skipSpace (c :: l) = c :: l := by
  rw [skipSpace, List.dropWhile_cons_of_neg (by rw [hc]; exact Bool.false_ne_true)]

theorem skipSpace_append {gap : List Char} (hgap : Blank gap) (l : List Char) :
    skipSpace (gap ++ l) = skipSpace l := List.dropWhile_append_of_pos hgap

/-- Blanks in front of a value are passed over. -/
theorem readValue_append {gap : List Char} (hgap : Blank gap) (fuel depth : Nat) (o : Outline)
    (l : List Char) : readValue fuel depth o (gap ++ l) = readValue fuel depth o l := by
  cases fuel with
  | zero => rw [readValue, readValue]
  | succ fuel => rw [readValue, readValue, skipSpace_append hgap]

theorem stops_blank {gap : List Char} (hgap : Blank gap) {l : List Char} (hl : Stops l) :
    Stops (gap ++ l) := by
  cases gap with
  | nil => exact hl
  | cons c gap =>
    have hc := hgap c List.mem_cons_self
    simp only [isSpace, Bool.or_eq_true, beq_iff_eq] at hc
    rcases hc with ((rfl | rfl) | rfl) | rfl <;> exact ⟨rfl, by decide⟩

/-- A layout puts nothing but blanks between the parts of a value. -/
structure Layout.Spaced (layout : Layout) : Prop where
  before : ∀ level, Blank (layout.before level)
  colon : ∃ gap, layout.colon = ':' :: gap ∧ Blank gap

theorem Layout.Spaced.compact : Layout.compact.Spaced where
  before _ := List.forall_mem_nil _
  colon := ⟨[], rfl, List.forall_mem_nil _⟩

theorem Layout.Spaced.pretty : Layout.pretty.Spaced where
  before level := by
    intro c hc
    rcases List.mem_cons.mp hc with rfl | hc
    · rfl
    · rw [List.eq_of_mem_replicate hc]
      rfl
  colon := ⟨[' '], rfl, by simp [Blank, isSpace]⟩

/-! ## §4 Values -/

/-- A value is read as it was written, by an outline and at a depth of nesting. -/
structure Readable (layout : Layout) (o : Outline) (depth : Nat) (v : Json) : Prop where
  -- What is written begins with neither a blank nor the end of a list.
  start : ∀ level, ∃ c l, printValue layout level v = c :: l ∧ isSpace c = false ∧ c ≠ ']'
  read : ∀ level fuel rest, Stops rest → (printValue layout level v).length ≤ fuel →
    readValue fuel depth o (printValue layout level v ++ rest) = .whole v rest

section

variable {layout : Layout}

theorem printValue_str (layout : Layout) (level : Nat) (s : String) :
    printValue layout level (.str s) = '"' :: (s.toList.flatMap escapeChar ++ ['"']) := by
  rw [printValue, quote]

theorem readable_str (layout : Layout) (o : Outline) (depth : Nat) (s : String) :
    Readable layout o depth (.str s) where
  start level := ⟨'"', _, printValue_str layout level s, rfl, by decide⟩
  read level fuel rest _ hfuel := by
    rw [printValue_str] at hfuel ⊢
    cases fuel with
    | zero => exact absurd hfuel (Nat.not_succ_le_zero _)
    | succ fuel =>
      rw [List.cons_append, List.append_assoc, readValue, skipSpace_cons (by rfl)]
      show readScalar ('"' :: _) = _
      rw [readScalar, List.singleton_append, readString_quote]
      simp only [String.ofList_toList]

theorem readable_bool (layout : Layout) (o : Outline) (depth : Nat) (b : Bool) :
    Readable layout o depth (.bool b) where
  start level := by
    cases b with
    | true => exact ⟨'t', _, by rw [printValue], rfl, by decide⟩
    | false => exact ⟨'f', _, by rw [printValue], rfl, by decide⟩
  read level fuel rest _ hfuel := by
    cases b with
    | true =>
      rw [printValue] at hfuel ⊢
      obtain ⟨fuel, rfl⟩ := Nat.exists_eq_add_of_le' (Nat.le_trans (by decide : 1 ≤ 4) hfuel)
      rw [List.cons_append, readValue, skipSpace_cons (by rfl)]
      rfl
    | false =>
      rw [printValue] at hfuel ⊢
      obtain ⟨fuel, rfl⟩ := Nat.exists_eq_add_of_le' (Nat.le_trans (by decide : 1 ≤ 5) hfuel)
      rw [List.cons_append, readValue, skipSpace_cons (by rfl)]
      rfl

/-- A number of 64 bits is read as it was written, where nothing goes on with it. -/
theorem readable_nat (layout : Layout) (o : Outline) (depth : Nat) {n : Nat}
    (hn : n ≤ Natural.max64) : Readable layout o depth (.nat n) := by
  have hprint : ∀ level, printValue layout level (.nat n) = Natural.digitsOf n := by
    intro level
    rw [Json.nat, printValue, printNumber]
  obtain ⟨c, digits, hdigits, hc⟩ := Natural.exists_digitsOf_cons n
  have hspace : isSpace c = false := by
    have hne : ∀ d, Text.isDigit d = false → (c == d) = false := by
      intro d hd
      rw [beq_eq_false_iff_ne]
      exact Text.ne_of_isDigit hc hd
    simp [isSpace, hne ' ' rfl, hne '\n' rfl, hne '\t' rfl, hne '\r' rfl]
  refine ⟨fun level => ?_, fun level fuel rest hrest hfuel => ?_⟩
  · exact ⟨c, digits, (hprint level).trans hdigits, hspace, Text.ne_of_isDigit hc (by decide)⟩
  · have hread := readScalar_digitsOf hn hrest
    rw [hprint, hdigits] at hfuel ⊢
    rw [hdigits] at hread
    obtain ⟨fuel, rfl⟩ := Nat.exists_eq_add_of_le' (Nat.le_trans (Nat.le_add_left 1 _) hfuel)
    rw [List.cons_append] at hread ⊢
    rw [readValue, skipSpace_cons hspace]
    split
    next heq => exact absurd (List.cons.inj heq).1 (Text.ne_of_isDigit hc (by decide))
    next heq => exact absurd (List.cons.inj heq).1 (Text.ne_of_isDigit hc (by decide))
    next => exact hread

/-- The items of a list behind those that were read already. -/
theorem readItems_written (spaced : layout.Spaced) {o first : Outline}
    (ho : o.next? = some (first, o)) {depth : Nat} (level : Nat) {v : Json} {items : List Json}
    (hitems : ∀ item ∈ v :: items, Readable layout first depth item) (before : List Json)
    {gap : List Char} (hgap : Blank gap) {fuel : Nat} {stop : List Char} (hstop : Blank stop)
    (rest : List Char)
    (hfuel : (printValue layout level v).length + (printItems layout level items).length < fuel) :
    readItems fuel depth o before (gap ++ (printValue layout level v ++
        (printItems layout level items ++ (stop ++ ']' :: rest)))) =
      .whole (.arr (before.reverse ++ v :: items)) rest := by
  have hv := (hitems v List.mem_cons_self).read level
  induction items generalizing v before gap fuel with
  | nil =>
    obtain ⟨fuel, rfl⟩ : ∃ n, fuel = n + 1 := ⟨fuel - 1, by omega⟩
    rw [readItems, ho]
    simp only [printItems, List.nil_append]
    rw [readValue_append hgap, hv fuel _ (stops_blank hstop (stops_of_mem (by simp) _)) (by omega)]
    simp only
    rw [skipSpace_append hstop, skipSpace_cons (by rfl)]
    simp only [List.reverse_cons]
  | cons next items ih =>
    have hprint : printItems layout level (next :: items) = ',' :: (layout.before level ++
        (printValue layout level next ++ printItems layout level items)) := by
      rw [printItems, List.append_assoc]
    rw [hprint, List.length_cons, List.length_append, List.length_append] at hfuel
    obtain ⟨fuel, rfl⟩ : ∃ n, fuel = n + 1 := ⟨fuel - 1, by omega⟩
    have hrest : ∀ item ∈ next :: items, Readable layout first depth item :=
      fun item hitem => hitems item (List.mem_cons_of_mem _ hitem)
    rw [readItems, ho, hprint]
    simp only [List.cons_append, List.append_assoc]
    rw [readValue_append hgap, hv fuel _ (stops_of_mem (by simp) _) (by omega)]
    simp only
    rw [skipSpace_cons (by rfl)]
    simp only
    rw [ih hrest (v :: before) (spaced.before level) (by omega)
      ((hrest next List.mem_cons_self).read level), List.reverse_cons, List.append_assoc,
      List.singleton_append]

/-- A list is read where its outline keeps every item. -/
theorem Readable.arr (spaced : layout.Spaced) {o first : Outline} (ho : o.next? = some (first, o))
    {depth : Nat} {items : List Json}
    (hitems : ∀ item ∈ items, Readable layout first depth item) :
    Readable layout o (depth + 1) (.arr items) where
  start level := by
    cases items with
    | nil => exact ⟨'[', _, by rw [printValue], rfl, by decide⟩
    | cons v items => exact ⟨'[', _, by rw [printValue], rfl, by decide⟩
  read level fuel rest _ hfuel := by
    cases items with
    | nil =>
      rw [printValue] at hfuel ⊢
      obtain ⟨fuel, rfl⟩ := Nat.exists_eq_add_of_le' (Nat.le_trans (by decide : 1 ≤ 2) hfuel)
      rw [List.cons_append, readValue, skipSpace_cons (by rfl)]
      rfl
    | cons v items =>
      rw [printValue] at hfuel ⊢
      simp only [List.length_cons, List.length_append, List.length_nil] at hfuel
      obtain ⟨fuel, rfl⟩ : ∃ n, fuel = n + 1 := ⟨fuel - 1, by omega⟩
      have hshort : (printValue layout (level + 1) v).length +
          (printItems layout (level + 1) items).length < fuel := by omega
      have hread := readItems_written spaced ho (level + 1) hitems [] (List.forall_mem_nil _)
        (spaced.before level) rest hshort
      obtain ⟨c, l, hstart, hspace, hend⟩ := (hitems v List.mem_cons_self).start (level + 1)
      simp only [List.cons_append, List.append_assoc, List.nil_append] at hread ⊢
      rw [readValue, skipSpace_cons (by rfl)]
      simp only
      rw [if_neg (Nat.succ_ne_zero depth), skipSpace_append (spaced.before (level + 1))]
      rw [hstart] at hread ⊢
      rw [List.cons_append] at hread ⊢
      rw [skipSpace_cons hspace]
      split
      next heq => exact absurd (List.cons.inj heq).1 hend
      next => exact hread

/-- A member is read, and then what follows it is judged. -/
theorem readMembers_cons (spaced : layout.Spaced) {o part : Outline} {depth level fuel : Nat}
    {name : String} {v : Json} (hpart : o.member? name = some part)
    (hv : Readable layout part depth v) (before : List (String × Json)) {gap : List Char}
    (hgap : Blank gap) {rest : List Char} (hrest : Stops rest)
    (hfuel : (printValue layout level v).length ≤ fuel) :
    readMembers (fuel + 1) depth o before
        (gap ++ (quote name ++ (layout.colon ++ (printValue layout level v ++ rest)))) =
      match skipSpace rest with
      | '\x7d' :: after => .whole (.obj ((name, v) :: before).reverse) after
      | ',' :: after => readMembers fuel depth o ((name, v) :: before) after
      | _ => .broken (some (.obj ((name, v) :: before).reverse)) none := by
  have hquote : ∀ l, quote name ++ l = '"' :: (name.toList.flatMap escapeChar ++ '"' :: l) := by
    intro l
    rw [quote, List.cons_append, List.append_assoc, List.singleton_append]
  obtain ⟨blank, hcolon, hblank⟩ := spaced.colon
  rw [hquote, readMembers, skipSpace_append hgap, skipSpace_cons (by rfl)]
  simp only
  rw [readString_quote]
  simp only [String.ofList_toList]
  rw [hcolon, List.cons_append, skipSpace_cons (by rfl)]
  simp only [hpart]
  have hread := hv.read level fuel rest hrest hfuel
  rw [← readValue_append hblank] at hread
  generalize readValue fuel depth part _ = reading at hread ⊢
  subst hread
  rfl

/-- The members of an object behind those that were read already. -/
theorem readMembers_written (spaced : layout.Spaced) {o : Outline} {depth : Nat} (level : Nat)
    {name : String} {v : Json} {members : List (String × Json)}
    (hmembers : ∀ m ∈ (name, v) :: members,
      ∃ part, o.member? m.1 = some part ∧ Readable layout part depth m.2)
    (before : List (String × Json)) {gap : List Char} (hgap : Blank gap) {fuel : Nat}
    {stop : List Char} (hstop : Blank stop) (rest : List Char)
    (hfuel : (printValue layout level v).length + (printMembers layout level members).length <
      fuel) :
    readMembers fuel depth o before (gap ++ (quote name ++ (layout.colon ++
        (printValue layout level v ++
          (printMembers layout level members ++ (stop ++ '\x7d' :: rest)))))) =
      .whole (.obj (before.reverse ++ (name, v) :: members)) rest := by
  obtain ⟨part, hpart, hv⟩ : ∃ part, o.member? name = some part ∧ Readable layout part depth v :=
    hmembers (name, v) List.mem_cons_self
  induction members generalizing name v before gap fuel part with
  | nil =>
    obtain ⟨fuel, rfl⟩ : ∃ n, fuel = n + 1 := ⟨fuel - 1, by omega⟩
    rw [readMembers_cons spaced hpart hv _ hgap ?_ (by omega), printMembers, List.nil_append,
      skipSpace_append hstop, skipSpace_cons (by rfl)]
    · simp only [List.reverse_cons]
    · rw [printMembers, List.nil_append]
      exact stops_blank hstop (stops_of_mem (by simp) _)
  | cons next members ih =>
    obtain ⟨nextName, w⟩ := next
    have hprint : printMembers layout level ((nextName, w) :: members) =
        ',' :: (layout.before level ++ (quote nextName ++ (layout.colon ++
          (printValue layout level w ++ printMembers layout level members)))) := by
      rw [printMembers]
      simp only [List.append_assoc]
    rw [hprint] at hfuel
    simp only [List.length_cons, List.length_append] at hfuel
    obtain ⟨fuel, rfl⟩ : ∃ n, fuel = n + 1 := ⟨fuel - 1, by omega⟩
    have hrest := fun m hm => hmembers m (List.mem_cons_of_mem _ hm)
    obtain ⟨nextPart, hnextPart, hw⟩ : ∃ part, o.member? nextName = some part ∧
        Readable layout part depth w := hrest (nextName, w) List.mem_cons_self
    rw [hprint, List.cons_append, readMembers_cons spaced hpart hv _ hgap (stops_of_mem (by simp) _)
      (by omega), skipSpace_cons (by rfl)]
    simp only [List.append_assoc]
    rw [ih hrest ((name, v) :: before) (spaced.before level) (by omega) nextPart hnextPart hw,
      List.reverse_cons, List.append_assoc, List.singleton_append]

/-- An object is read where its outline keeps every member. -/
theorem Readable.obj (spaced : layout.Spaced) {o : Outline} {depth : Nat}
    {members : List (String × Json)}
    (hmembers : ∀ m ∈ members,
      ∃ part, o.member? m.1 = some part ∧ Readable layout part depth m.2) :
    Readable layout o (depth + 1) (.obj members) where
  start level := by
    cases members with
    | nil => exact ⟨'\x7b', _, by rw [printValue], rfl, by decide⟩
    | cons m members => exact ⟨'\x7b', _, by rw [printValue], rfl, by decide⟩
  read level fuel rest _ hfuel := by
    cases members with
    | nil =>
      rw [printValue] at hfuel ⊢
      obtain ⟨fuel, rfl⟩ := Nat.exists_eq_add_of_le' (Nat.le_trans (by decide : 1 ≤ 2) hfuel)
      rw [List.cons_append, readValue, skipSpace_cons (by rfl)]
      rfl
    | cons m members =>
      obtain ⟨name, v⟩ := m
      rw [printValue] at hfuel ⊢
      simp only [List.length_cons, List.length_append, List.length_nil] at hfuel
      obtain ⟨fuel, rfl⟩ : ∃ n, fuel = n + 1 := ⟨fuel - 1, by omega⟩
      have hshort : (printValue layout (level + 1) v).length +
          (printMembers layout (level + 1) members).length < fuel := by omega
      have hread := readMembers_written spaced (level + 1) hmembers [] (List.forall_mem_nil _)
        (spaced.before level) rest hshort
      simp only [List.cons_append, List.append_assoc, List.nil_append] at hread ⊢
      rw [readValue, skipSpace_cons (by rfl)]
      simp only
      rw [if_neg (Nat.succ_ne_zero depth), skipSpace_append (spaced.before (level + 1)), quote,
        List.cons_append, skipSpace_cons (by rfl)]
      rw [quote, List.cons_append] at hread
      exact hread

end

/-! ## §5 Documents -/

/-- A document that was written is read as it was. -/
theorem readAs_written {layout : Layout} {o : Outline} {v : Json}
    (hv : Readable layout o maxDepth v) : readAs o (printValue layout 0 v) = .whole v [] := by
  have hread := hv.read 0 (2 * (printValue layout 0 v).length + 2) [] trivial (by omega)
  rw [List.append_nil] at hread
  rw [readAs]
  exact hread

theorem toList_compact (v : Json) : v.compact.toList = printValue .compact 0 v :=
  String.toList_ofList

/-- A document is decoded from its bytes where the outline of the type keeps all of it. -/
theorem ofBytes?_written {α : Type} [Decodable α] {layout : Layout} {v : Json}
    (hv : Readable layout (outline α) maxDepth v) :
    ofBytes? α (Text.Utf8.encode (String.ofList (printValue layout 0 v))) = some (decode v) := by
  rw [ofBytes?, ofChars?, documentChars_encode, String.toList_ofList, parseAs?, readAs_written hv]
  rfl

theorem ofBytes?_compact {α : Type} [Decodable α] {v : Json}
    (hv : Readable .compact (outline α) maxDepth v) :
    ofBytes? α (Text.Utf8.encode v.compact) = some (decode v) := ofBytes?_written hv

theorem ofBytes?_pretty {α : Type} [Decodable α] {v : Json}
    (hv : Readable .pretty (outline α) maxDepth v) :
    ofBytes? α (Text.Utf8.encode v.pretty) = some (decode v) := ofBytes?_written hv

/-! ## §6 Lengths -/

theorem length_le_length_flatMap {α β : Type} {f : α → List β} (hf : ∀ a, 1 ≤ (f a).length)
    (l : List α) : l.length ≤ (l.flatMap f).length := by
  induction l with
  | nil => exact Nat.le_refl 0
  | cons a l ih =>
    have ha := hf a
    rw [List.flatMap_cons, List.length_append, List.length_cons]
    omega

/-- Escapes make a text no shorter. -/
theorem length_quote_le (s : String) : s.toList.length ≤ (quote s).length := by
  have hescape : ∀ c, 1 ≤ (escapeChar c).length := by
    intro c
    unfold escapeChar
    repeat' split
    all_goals simp
  have hlength := length_le_length_flatMap hescape s.toList
  simp only [quote, List.length_cons, List.length_append]
  omega

theorem length_encode_le (s : String) : s.toList.length ≤ (Text.Utf8.encode s).length := by
  refine length_le_length_flatMap (fun c => ?_) s.toList
  unfold Text.Utf8.encodeChar
  dsimp only
  repeat' split
  all_goals simp

end CatalogSync.Json
