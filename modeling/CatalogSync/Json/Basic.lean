import CatalogSync.Number.Shortest
/-!
# JSON values

A value of a JSON document. Objects keep their members in order, repeated names included, so that
what a reader saw can be judged later. Numbers are whole numbers of 64 bits, negative whole numbers
of 64 bits, or doubles.
-/

namespace CatalogSync

inductive JsonNumber where
  -- A whole number below `2 ^ 64`.
  | nat (n : Nat)
  -- The negative of a positive whole number up to `2 ^ 63`.
  | neg (n : Nat)
  -- Any other finite number.
  | double (x : Binary64)
  deriving DecidableEq, Repr

inductive Json where
  | null
  | bool (b : Bool)
  | num (n : JsonNumber)
  | str (s : String)
  | arr (items : List Json)
  -- Named values in the order in which they were given.
  | obj (members : List (String × Json))
  deriving Repr, Inhabited

/-- A number as a double; whole numbers are rounded. -/
def JsonNumber.toDouble : JsonNumber → Binary64
  | .nat n => .ofNat n
  | .neg n => (Binary64.ofNat n).withSign true
  | .double x => x

namespace Json

def nat (n : Nat) : Json := .num (.nat n)

/-- A text, or `null` where there is none. -/
def optionalStr : Option String → Json
  | some s => .str s
  | none => .null

def strs (l : List String) : Json := .arr (l.map .str)

/-- The value of the last member with a name. -/
def member? (name : String) : Json → Option Json
  | .obj members => (members.reverse.find? fun m => m.1 == name).map (·.2)
  | _ => none

/-- A member that is written only when there is a value. -/
def optionalMember (name : String) (value : Option Json) : List (String × Json) :=
  match value with
  | some v => [(name, v)]
  | none => []

end Json

end CatalogSync
