/-!
# Character classes and trimming

Texts are handled as lists of characters. Blank characters are those of the Unicode property
`White_Space`; letters, digits and case are those of ASCII, because the names, keys and tags of a
catalog are ASCII.
-/

namespace CatalogSync.Text

/-! ## §1 Classes -/

/-- Whether a character is in one of several ranges of code points. -/
def inRanges (ranges : List (Nat × Nat)) (c : Char) : Bool :=
  ranges.any fun r => r.1 ≤ c.toNat && c.toNat ≤ r.2

/-- The ranges of the Unicode property `White_Space`. -/
def blankRanges : List (Nat × Nat) :=
  [(0x09, 0x0D), (0x20, 0x20), (0x85, 0x85), (0xA0, 0xA0), (0x1680, 0x1680), (0x2000, 0x200A),
   (0x2028, 0x2029), (0x202F, 0x202F), (0x205F, 0x205F), (0x3000, 0x3000)]

/-- Whether a character is blank. -/
def isBlank (c : Char) : Bool := inRanges blankRanges c

example : [' ', '\t', '\n', '\r'].all isBlank = true := by decide

def isLetter (c : Char) : Bool := ('a' ≤ c && c ≤ 'z') || ('A' ≤ c && c ≤ 'Z')

def isDigit (c : Char) : Bool := '0' ≤ c && c ≤ '9'

theorem ne_of_isDigit {c d : Char} (hc : isDigit c = true) (hd : isDigit d = false) : c ≠ d := by
  rintro rfl
  rw [hc] at hd
  cases hd

def isAlphanumeric (c : Char) : Bool := isLetter c || isDigit c

/-- The lower-case form of an ASCII letter; every other character is kept. -/
def lowerChar (c : Char) : Char :=
  if 'A' ≤ c && c ≤ 'Z' then Char.ofNat (c.toNat + 32) else c

/-- The text with its ASCII letters in lower case. -/
def lower (s : String) : String := String.ofList (s.toList.map lowerChar)

def digitValue (c : Char) : Nat := c.toNat - '0'.toNat

def hexValue? (c : Char) : Option Nat :=
  if '0' ≤ c ∧ c ≤ '9' then some (c.toNat - 48)
  else if 'a' ≤ c ∧ c ≤ 'f' then some (c.toNat - 87)
  else if 'A' ≤ c ∧ c ≤ 'F' then some (c.toNat - 55)
  else none

/-! ## §2 Trimming -/

/-- The list without its longest end whose members all pass a test. -/
def dropEndWhile {α : Type} (p : α → Bool) (l : List α) : List α :=
  l.foldr (fun a rest => if p a && rest.isEmpty then [] else a :: rest) []

/-- The list without the members at both ends that pass a test. -/
def trimBoth {α : Type} (p : α → Bool) (l : List α) : List α := dropEndWhile p (l.dropWhile p)

/-- The text without the blank characters at its ends. -/
def trimChars (l : List Char) : List Char := trimBoth isBlank l

/-- The text without the blank characters at its ends. -/
def trim (s : String) : String := String.ofList (trimChars s.toList)

/-- The trimmed text, unless nothing is left of it. -/
def trimmed? (s : String) : Option String :=
  let t := trim s
  if t.isEmpty then none else some t

/-- The text without the given character at its end. -/
def trimEndOf (c : Char) (s : String) : String := String.ofList (dropEndWhile (· == c) s.toList)

theorem dropEndWhile_nil {α : Type} (p : α → Bool) : dropEndWhile p [] = [] := rfl

theorem dropEndWhile_cons {α : Type} (p : α → Bool) (a : α) (l : List α) :
    dropEndWhile p (a :: l) =
      if p a && (dropEndWhile p l).isEmpty then [] else a :: dropEndWhile p l := rfl

/-- What is left ends in a member that fails the test. -/
theorem getLast?_dropEndWhile {α : Type} {p : α → Bool} {l : List α} {a : α}
    (h : (dropEndWhile p l).getLast? = some a) : p a = false := by
  induction l with
  | nil => simp [dropEndWhile_nil] at h
  | cons x rest ih =>
    rw [dropEndWhile_cons] at h
    split at h
    · simp at h
    · rename_i hx
      cases hr : dropEndWhile p rest with
      | nil =>
        rw [hr] at h hx
        simp only [List.getLast?_singleton, Option.some.injEq] at h
        subst h
        simpa using hx
      | cons y ys =>
        rw [hr] at h ih
        exact ih (by simpa [List.getLast?_cons] using h)

theorem mem_of_mem_dropEndWhile {α : Type} {p : α → Bool} {l : List α} {a : α}
    (h : a ∈ dropEndWhile p l) : a ∈ l := by
  induction l with
  | nil => simp [dropEndWhile_nil] at h
  | cons x rest ih =>
    rw [dropEndWhile_cons] at h
    split at h
    · simp at h
    · rcases List.mem_cons.1 h with rfl | h
      · exact List.mem_cons_self
      · exact List.mem_cons_of_mem _ (ih h)

theorem mem_of_mem_trimBoth {α : Type} {p : α → Bool} {l : List α} {a : α}
    (h : a ∈ trimBoth p l) : a ∈ l :=
  (List.dropWhile_sublist p).subset (mem_of_mem_dropEndWhile h)

/-- What is left begins with a member that fails the test. -/
theorem head?_trimBoth {α : Type} {p : α → Bool} {l : List α} {a : α}
    (h : (trimBoth p l).head? = some a) : p a = false := by
  rw [trimBoth] at h
  cases hd : l.dropWhile p with
  | nil => rw [hd] at h; simp [dropEndWhile_nil] at h
  | cons x rest =>
    have hx := List.head?_dropWhile_not p l
    rw [hd] at h hx
    rw [dropEndWhile_cons] at h
    split at h
    · simp at h
    · cases Option.some.inj h
      simpa using hx

/-! ## §3 Options of text -/

def nonEmpty? (s : String) : Option String := if s.isEmpty then none else some s

theorem nonEmpty?_eq_some_iff {s t : String} : nonEmpty? s = some t ↔ s = t ∧ t ≠ "" := by
  unfold nonEmpty?
  by_cases h : s = ""
  · subst h
    simp
  · have hempty : s.isEmpty = false := by simpa using h
    rw [hempty]
    constructor
    · intro heq
      obtain rfl := Option.some.inj heq
      exact ⟨rfl, h⟩
    · intro heq
      exact congrArg some heq.1

def startsWith (s start : String) : Bool := start.toList.isPrefixOf s.toList

def endsWith (s ending : String) : Bool := ending.toList.isSuffixOf s.toList

/-- Whether a text occurs in a list of characters. -/
def occursIn (part : List Char) : List Char → Bool
  | [] => part.isEmpty
  | c :: rest => part.isPrefixOf (c :: rest) || occursIn part rest

def contains (s part : String) : Bool := occursIn part.toList s.toList

end CatalogSync.Text
