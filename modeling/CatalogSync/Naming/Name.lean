import CatalogSync.Text.Class
/-!
# Names

A catalog name is a sequence of runs of letters and digits, joined by single separators `.`, `_` or
`-`, of at most 63 characters. `Name.sanitize` turns any text into such a name, or into the empty
text when it holds no letter or digit.
-/

namespace CatalogSync.Name

def maxLength : Nat := 63

def isSeparator (c : Char) : Bool := c == '.' || c == '_' || c == '-'

/-- Whether a character may stand in a name. -/
def isNameChar (c : Char) : Bool := Text.isAlphanumeric c || isSeparator c

/-- The text without its runs of two or more separators. `afterSeparator` says whether the
character before was a separator, which is then part of such a run. -/
def dropRuns (afterSeparator : Bool) : List Char → List Char
  | [] => []
  | c :: rest =>
    if isSeparator c then
      -- A run is dropped as a whole, its first separator included.
      if afterSeparator || (rest.head?.map isSeparator).getD false then dropRuns true rest
      else c :: dropRuns true rest
    else c :: dropRuns false rest

/-- The name that is left of a list of characters: others than name characters and runs of
separators are removed, the rest is cut to the maximal length, and separators at the ends go. -/
def sanitizeChars (l : List Char) : List Char :=
  Text.trimBoth isSeparator ((dropRuns false (l.filter isNameChar)).take maxLength)

def sanitize (s : String) : String := String.ofList (sanitizeChars s.toList)

/-- The sanitized text, unless nothing is left of it. -/
def sanitize? (s : String) : Option String := Text.nonEmpty? (sanitize s)

/-- The text without line breaks, as settings are read. -/
def stripLineBreaks (s : String) : String :=
  String.ofList (s.toList.filter fun c => c != '\r' && c != '\n')

/-! ## §1 Small laws -/

theorem mem_of_mem_dropRuns {b : Bool} {c : Char} {l : List Char}
    (h : c ∈ dropRuns b l) : c ∈ l := by
  induction l generalizing b with
  | nil => simp [dropRuns] at h
  | cons x rest ih =>
    rw [dropRuns] at h
    split at h
    · split at h
      · exact List.mem_cons_of_mem _ (ih h)
      · rcases List.mem_cons.1 h with rfl | h
        · exact List.mem_cons_self
        · exact List.mem_cons_of_mem _ (ih h)
    · rcases List.mem_cons.1 h with rfl | h
      · exact List.mem_cons_self
      · exact List.mem_cons_of_mem _ (ih h)

/-- A sanitized text holds name characters only. -/
theorem isNameChar_of_mem_sanitizeChars {c : Char} {l : List Char} (h : c ∈ sanitizeChars l) :
    isNameChar c = true := by
  have h1 := List.mem_of_mem_take (Text.mem_of_mem_trimBoth h)
  exact (List.mem_filter.1 (mem_of_mem_dropRuns h1)).2

/-- A sanitized text does not begin with a separator. -/
theorem isSeparator_head?_sanitizeChars {c : Char} {l : List Char}
    (h : (sanitizeChars l).head? = some c) : isSeparator c = false :=
  Text.head?_trimBoth h

end CatalogSync.Name
