import CatalogSync.Fault
import CatalogSync.Json.Decoder
import CatalogSync.Naming.Name
import CatalogSync.Order.SortedMap
import CatalogSync.Text.Split
/-!
# Import keys

An import key names one record of the storage tier. Its text holds name characters only, and at
least one underscore with something on both sides: the key of a registry record is made of the
model's and the version's name, the key of a cluster-only record of the namespace and the
deployment's name, both sanitized. Keys are ordered as their texts are.
-/

namespace CatalogSync

namespace ImportKey

/-! ## §1 Well-formed texts -/

/-- What joins the two segments of a key. -/
def separator : Char := '_'

/-- Why a text is no import key. -/
inductive Error where
  | empty
  | noSeparator
  -- Nothing stands before or after the first separator.
  | emptySegment
  -- A character cannot stand in a name.
  | illegalCharacter
  -- A segment has no usable character.
  | nothingLeft
  deriving DecidableEq, Repr

def Error.message : Error → String
  | .empty => "import key is empty"
  | .noSeparator => "bad key format: missing '_'"
  | .emptySegment => "bad key format: empty segment"
  | .illegalCharacter => "bad key format: illegal character"
  | .nothingLeft => "import key segment is empty after sanitization"

/-- The first rule of keys that a text breaks. -/
def fault? (text : List Char) : Option Error :=
  if text.isEmpty then some .empty
  else
    match Text.cut separator text with
    | none => some .noSeparator
    | some (head, tail) =>
      if head.isEmpty || tail.isEmpty then some .emptySegment
      -- The rest of the text may hold further separators.
      else if text.all Name.isNameChar then none
      else some .illegalCharacter

/-- The first separator of a text that has one before a nonempty end leaves something behind it. -/
theorem cut_append (c : Char) (a b : List Char) :
    ∃ x y, Text.cut c (a ++ c :: b) = some (x, y) ∧ b.length ≤ y.length ∧
      (a.head?.all (· != c) = true → a ≠ [] → x ≠ []) := by
  induction a with
  | nil => exact ⟨[], b, by simp [Text.cut], Nat.le_refl _, fun _ h => absurd rfl h⟩
  | cons d rest ih =>
    by_cases h : d = c
    · exact ⟨[], rest ++ c :: b, by simp [Text.cut, h], by simp; omega,
        fun hh => absurd hh (by simp [h])⟩
    · obtain ⟨x, y, hc, hl, _⟩ := ih
      exact ⟨d :: x, y, by simp [Text.cut, h, hc], hl, fun _ _ => by simp⟩

/-- Two sanitized segments that are not empty make a key. -/
theorem fault?_sanitizeChars {a b : List Char} (ha : Name.sanitizeChars a ≠ [])
    (hb : Name.sanitizeChars b ≠ []) :
    fault? (Name.sanitizeChars a ++ separator :: Name.sanitizeChars b) = none := by
  obtain ⟨x, y, hc, hl, hx⟩ := cut_append separator (Name.sanitizeChars a) (Name.sanitizeChars b)
  have hhead : (Name.sanitizeChars a).head?.all (· != separator) = true := by
    cases h : (Name.sanitizeChars a).head? with
    | none => rfl
    | some c =>
      have := Name.isSeparator_head?_sanitizeChars h
      by_cases hs : c = separator
      · subst hs; simp [Name.isSeparator, separator] at this
      · simpa using hs
  have hy : y ≠ [] := by
    intro hy
    rw [hy] at hl
    exact hb (List.length_eq_zero_iff.1 (Nat.le_zero.1 hl))
  have hall : (Name.sanitizeChars a ++ separator :: Name.sanitizeChars b).all Name.isNameChar =
      true := by
    rw [List.all_eq_true]
    intro c hm
    rcases List.mem_append.1 hm with hm | hm
    · exact Name.isNameChar_of_mem_sanitizeChars hm
    · rcases List.mem_cons.1 hm with rfl | hm
      · decide
      · exact Name.isNameChar_of_mem_sanitizeChars hm
  have hne : (Name.sanitizeChars a ++ separator :: Name.sanitizeChars b).isEmpty = false := by
    cases Name.sanitizeChars a <;> rfl
  have hx' : x.isEmpty = false := by simpa using hx hhead ha
  have hy' : y.isEmpty = false := by simpa using hy
  simp only [fault?, hne, hc, hx', hy', hall]
  rfl

end ImportKey

/-! ## §2 Keys -/

/-- The name of a stored record. -/
structure ImportKey where
  text : String
  wellFormed : ImportKey.fault? text.toList = none
  deriving DecidableEq

namespace ImportKey

instance : Repr ImportKey := ⟨fun k _ => repr k.text⟩

/-- Keys with one text are one key. -/
theorem ext_text {a b : ImportKey} (h : a.text = b.text) : a = b := by
  cases a; cases b; cases h; rfl

/-- Read a key, or say which rule it breaks first. -/
def parse (raw : String) : Except Error ImportKey :=
  match h : fault? raw.toList with
  | none => .ok ⟨raw, h⟩
  | some e => .error e

def read (raw : String) : Except Fault ImportKey :=
  (parse raw).mapError fun e => .validation raw e.message

/-- The key of two segments, which are sanitized. -/
def ofSegments (first second : String) : Except Error ImportKey :=
  if h : Name.sanitizeChars first.toList ≠ [] ∧ Name.sanitizeChars second.toList ≠ [] then
    .ok ⟨String.ofList (Name.sanitizeChars first.toList ++ separator ::
      Name.sanitizeChars second.toList), by
        rw [String.toList_ofList]; exact fault?_sanitizeChars h.1 h.2⟩
  else .error .nothingLeft

def join (first second : String) : Except Fault ImportKey :=
  (ofSegments first second).mapError fun e => .validation (first ++ "/" ++ second) e.message

/-- The key of the record of a registered version. -/
def forModelVersion (model version : String) : Except Fault ImportKey := join model version

/-- The key of the record of a deployment that no registry knows. -/
def forDeployment (ns name : String) : Except Fault ImportKey := join ns name

instance : Json.Decodable ImportKey where
  decode v := do
    match parse (← Json.decode v) with
    | .ok key => .ok key
    | .error e => .error (.refused e.message)

def toJson (k : ImportKey) : Json := .str k.text

/-! ## §3 Order -/

instance : LT ImportKey := ⟨fun a b => a.text < b.text⟩

instance : LE ImportKey := ⟨fun a b => a.text ≤ b.text⟩

instance : DecidableLT ImportKey := fun a b => inferInstanceAs (Decidable (a.text < b.text))

instance : DecidableLE ImportKey := fun a b => inferInstanceAs (Decidable (a.text ≤ b.text))

instance : Std.LawfulOrderLT ImportKey where
  lt_iff a b := Std.LawfulOrderLT.lt_iff a.text b.text

instance : Std.IsLinearOrder ImportKey where
  le_refl a := Std.le_refl (a := a.text)
  le_trans _ _ _ h h' := Std.le_trans (α := String) h h'
  le_antisymm _ _ h h' := ext_text (Std.le_antisymm (α := String) h h')
  le_total a b := Std.le_total (a := a.text) (b := b.text)

end ImportKey

/-! ## §4 Key sets -/

namespace KeySet

/-- Read a list of keys joined by commas. Blanks around a key and empty entries are skipped; the
first entry that is no key fails the whole list. -/
def parse (raw : String) : Except Fault (List ImportKey) :=
  ((Text.split ',' raw).filterMap Text.trimmed?).mapM ImportKey.read

def join (keys : List ImportKey) : String := Text.join "," (keys.map ImportKey.text)

end KeySet

end CatalogSync
