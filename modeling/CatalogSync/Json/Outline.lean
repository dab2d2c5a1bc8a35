import CatalogSync.Json.Basic
/-!
# Outlines

A reader of a document knows which parts of it matter. An outline names them: the members that are
kept, each with an outline of its own, and what becomes of all others. A part that does not matter
is passed over, and nothing is asked of it but that it is well formed.

The items of a list stand for the members in their order. Where all others are passed over, a list
ends with the last member.
-/

namespace CatalogSync.Json

inductive Outline where
  | whole
  -- The known members, and the others if there is an outline for them.
  | parts (known : List (String × Outline)) (others : Option Outline)

namespace Outline

/-- The outline of a list or a map all of whose values are alike. -/
def each (o : Outline) : Outline := .parts [] (some o)

/-- Members that are kept as they are. -/
def plain (names : List String) : List (String × Outline) := names.map fun name => (name, .whole)

/-- The outline of a member; a member without one is passed over. -/
def member? (name : String) : Outline → Option Outline
  | .whole => some .whole
  | .parts known others =>
    match known.find? fun m => m.1 == name with
    | some m => some m.2
    | none => others

/-- The outlines of the first item of a list and of the items behind it, if there may be one. -/
def next? : Outline → Option (Outline × Outline)
  | .whole => some (.whole, .whole)
  | .parts ((_, o) :: known) others => some (o, .parts known others)
  | .parts [] (some o) => some (o, .parts [] (some o))
  | .parts [] none => none

end Outline

end CatalogSync.Json
