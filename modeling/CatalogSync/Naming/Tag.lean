import CatalogSync.Naming.Name
import CatalogSync.Text.Split
/-!
# Tags

A tag is at most 63 characters long and consists of nonempty segments of lower-case letters,
digits and `:`, `+`, `#`, joined by single dashes. A candidate that is no tag after trimming and
lowering is dropped, never repaired.
-/

namespace CatalogSync.Tag

def isSegmentChar (c : Char) : Bool :=
  ('a' ≤ c && c ≤ 'z') || Text.isDigit c || c == ':' || c == '+' || c == '#'

def isSegment (segment : List Char) : Bool := !segment.isEmpty && segment.all isSegmentChar

def isValid (tag : String) : Bool :=
  tag.length ≤ Name.maxLength && (Text.pieces '-' tag.toList).all isSegment

/-- The tag that a candidate stands for. -/
def normalize? (candidate : String) : Option String :=
  let lowered := Text.lower (Text.trim candidate)
  if isValid lowered then some lowered else none

end CatalogSync.Tag
