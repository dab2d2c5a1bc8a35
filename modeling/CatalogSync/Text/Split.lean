/-!
# Splitting texts

`pieces` cuts a text at every separator, `cut` at the first one only. Joining the pieces with the
separator gives the text back (`joinChars_pieces`).
-/

namespace CatalogSync.Text

/-! ## §1 Cutting -/

/-- The parts of a text between its separators; a text without a separator is its one part. -/
def pieces (separator : Char) : List Char → List (List Char)
  | [] => [[]]
  | c :: rest =>
    if c = separator then [] :: pieces separator rest
    else
      match pieces separator rest with
      | [] => [[c]]
      | piece :: more => (c :: piece) :: more

/-- What stands before and after the first separator. -/
def cut (separator : Char) : List Char → Option (List Char × List Char)
  | [] => none
  | c :: rest =>
    if c = separator then some ([], rest)
    else (cut separator rest).map fun (before, after) => (c :: before, after)

/-- The parts of a text between its separators. -/
def split (separator : Char) (s : String) : List String :=
  (pieces separator s.toList).map String.ofList

def splitOnce (separator : Char) (s : String) : Option (String × String) :=
  (cut separator s.toList).map fun (before, after) => (String.ofList before, String.ofList after)

/-! ## §2 Joining -/

/-- The texts one after another, with a separator between any two. -/
def joinChars (separator : List Char) : List (List Char) → List Char
  | [] => []
  | [piece] => piece
  | piece :: next :: more => piece ++ separator ++ joinChars separator (next :: more)

def join (separator : String) (parts : List String) : String :=
  String.ofList (joinChars separator.toList (parts.map String.toList))

theorem pieces_ne_nil (separator : Char) (l : List Char) : pieces separator l ≠ [] := by
  cases l with
  | nil => simp [pieces]
  | cons c rest =>
    rw [pieces]
    split
    · simp
    · split <;> simp

/-- Joining the parts of a text gives the text back. -/
theorem joinChars_pieces (separator : Char) (l : List Char) :
    joinChars [separator] (pieces separator l) = l := by
  induction l with
  | nil => rfl
  | cons c rest ih =>
    rw [pieces]
    split
    · rename_i h
      cases hp : pieces separator rest with
      | nil => exact absurd hp (pieces_ne_nil separator rest)
      | cons piece more => rw [hp] at ih; simp [joinChars, ih, h]
    · split
      · rename_i hp
        exact absurd hp (pieces_ne_nil separator rest)
      · rename_i piece more hp
        rw [hp] at ih
        cases more with
        | nil => simpa [joinChars] using ih
        | cons next more => simp [joinChars] at ih ⊢; exact ih

end CatalogSync.Text
