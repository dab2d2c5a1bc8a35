import CatalogSync.Yaml.Scalar
/-!
# Writing YAML documents

A node is a text, a list of nodes or a map from texts to nodes. Nodes are written in block style: a
member of a map is a line `key: value`, the items of a list in a map stand at the indentation of
the map, and the members of a map in a list stand behind the dash. A key that is long or holds
several lines is written behind a question mark.
-/

namespace CatalogSync

inductive Yaml where
  | text (s : String)
  | list (items : List Yaml)
  -- A map, in the order in which its members are written.
  | map (members : List (String × Yaml))
  deriving Repr, Inhabited

namespace Yaml

/-- End a line, unless it has been ended by a break of the text in it. -/
def endLine (l : List Char) : List Char :=
  match l.getLast? with
  | some c => if isBreak c then l else l ++ ['\n']
  | none => l

/-- Whether a text can be a key in front of a colon. -/
def isSimpleKey (s : String) : Bool := !isMultiline s.toList && s.utf8ByteSize ≤ 128

/-- What stands on a line in front of the value of a member, the indentation included. -/
def keyPart (indent : Nat) (key : String) : List Char :=
  if isSimpleKey key then pad indent ++ scalar (indent + 2) key ++ [':']
  else
    endLine (pad indent ++ '?' :: ' ' :: scalar (indent + 2) key) ++ pad indent ++ [':']

mutual

/-- The value of a member, after its colon. -/
def memberValue (indent : Nat) : Yaml → List Char
  | .text s => endLine (' ' :: scalar (indent + 2) s)
  | .list [] => [' ', '[', ']', '\n']
  -- A list stands under its name without further indentation, a map with it.
  | .list (item :: items) => '\n' :: listLines indent (item :: items)
  | .map [] => [' ', '\x7b', '\x7d', '\n']
  | .map (m :: members) => '\n' :: mapLines (indent + 2) (m :: members)

/-- The members of a map, each beginning a line. -/
def mapLines (indent : Nat) : List (String × Yaml) → List Char
  | [] => []
  | (key, value) :: members =>
    keyPart indent key ++ memberValue indent value ++ mapLines indent members

/-- An item of a list, after its dash. -/
def itemValue (indent : Nat) : Yaml → List Char
  | .text s => endLine (' ' :: scalar (indent + 2) s)
  | .list [] => [' ', '[', ']', '\n']
  -- The first line goes on behind the dash, so its own indentation is dropped.
  | .list (item :: items) => ' ' :: (listLines (indent + 2) (item :: items)).drop (indent + 2)
  | .map [] => [' ', '\x7b', '\x7d', '\n']
  | .map (m :: members) => ' ' :: (mapLines (indent + 2) (m :: members)).drop (indent + 2)

/-- The items of a list, each beginning a line. -/
def listLines (indent : Nat) : List Yaml → List Char
  | [] => []
  | item :: items => pad indent ++ '-' :: (itemValue indent item ++ listLines indent items)

end

/-- A document whose root is a map. -/
def document (members : List (String × Yaml)) : String := String.ofList (mapLines 0 members)

end Yaml

end CatalogSync
