import CatalogSync.Json.Reader
import CatalogSync.Order.SortedMap
/-!
# Reading domain values from JSON

A record names its members: unknown members are ignored, a known member given twice is an error,
and a record may also be given as the list of its members in order. A required member must be
there; an optional one may be missing or null; one with a default may be missing only. Members of
cluster objects follow a milder rule: no list form, and of repeated members the last counts.

A domain value can be read from a document directly. Then only the parts that it is made of are
kept, so that the others need not stand for anything.
-/

namespace CatalogSync.Json

/-! ## §1 Errors and readers -/

/-- Why a JSON value does not describe a domain value. -/
inductive DecodeError where
  -- The value is of another kind.
  | kind (expected : String)
  -- A required member is missing.
  | missing (member : String)
  -- A member is given twice.
  | repeated (member : String)
  -- A record in list form has the wrong number of members.
  | length
  -- The value is of the right kind but not allowed.
  | refused (reason : String)
  deriving DecidableEq, Repr

def DecodeError.message : DecodeError → String
  | .kind expected => s!"invalid type, expected {expected}"
  | .missing member => s!"missing field {member}"
  | .repeated member => s!"duplicate field {member}"
  | .length => "invalid length"
  | .refused reason => reason

/-- A value read from JSON, or why there is none. -/
abbrev Decoded (α : Type) := Except DecodeError α

/-- Types with a JSON form that can be read. -/
class Decodable (α : Type) where
  -- The parts of a document that matter for a value.
  outline : Outline := .whole
  decode : Json → Decoded α

export Decodable (outline decode)

instance : Decodable Json where
  decode := .ok

instance : Decodable String where
  decode
    | .str s => .ok s
    | _ => .error (.kind "a string")

instance : Decodable Bool where
  decode
    | .bool b => .ok b
    | _ => .error (.kind "a boolean")

instance : Decodable Nat where
  decode
    | .num (.nat n) => .ok n
    | _ => .error (.kind "a number of 64 bits")

instance : Decodable Binary64 where
  decode
    | .num n => .ok n.toDouble
    | _ => .error (.kind "a number")

instance {α : Type} [Decodable α] : Decodable (List α) where
  outline := .each (outline α)
  decode
    | .arr items => items.mapM decode
    | _ => .error (.kind "a sequence")

instance {α : Type} [Decodable α] : Decodable (Option α) where
  outline := outline α
  decode
    | .null => .ok none
    | v => (decode v).map some

/-- The members of an object in order. -/
def members : Json → Decoded (List (String × Json))
  | .obj members => .ok members
  | _ => .error (.kind "a map")

/-- A map from names; of repeated names the last counts. -/
instance {α : Type} [Decodable α] : Decodable (SortedMap String α) where
  outline := .each (outline α)
  decode v := do
    let entries ← (← members v).mapM fun (name, value) => do
      return (name, ← (decode value : Decoded α))
    return .ofList entries

/-- The name of a unit state: a text, or an object with that one name whose value is null. -/
def stateName : Json → Decoded String
  | .str s => .ok s
  | .obj [(name, .null)] => .ok name
  | _ => .error (.kind "a state name")

/-! ## §2 Records -/

/-- The members of a record that were given. -/
abbrev Record := List (String × Json)

/-- Keep the known members of an object, each at most once. -/
def knownMembers (names : List String) : Record → List (String × Json) → Decoded Record
  | found, [] => .ok found
  | found, (name, v) :: rest =>
    if names.contains name then
      if found.any (fun m => m.1 == name) then .error (.repeated name)
      else knownMembers names (found ++ [(name, v)]) rest
    else knownMembers names found rest

/-- The members of a record with the given names, in either of its forms. -/
def record (names : List String) : Json → Decoded Record
  | .obj members => knownMembers names [] members
  | .arr items => if items.length ≤ names.length then .ok (names.zip items) else .error .length
  | _ => .error (.kind "a record")

/-- The members of a record whose list form leaves nothing out. -/
def fullRecord (names : List String) : Json → Decoded Record
  | .arr items => if items.length = names.length then .ok (names.zip items) else .error .length
  | v => record names v

/-- The members of a cluster object. -/
def object : Json → Decoded Record
  | .obj members => .ok members.reverse
  | _ => .error (.kind "an object")

def Record.find? (r : Record) (name : String) : Option Json :=
  (List.find? (fun m => m.1 == name) r).map (·.2)

/-- A member that must be there. -/
def Record.required {α : Type} [Decodable α] (r : Record) (name : String) : Decoded α :=
  match r.find? name with
  | some v => decode v
  | none => .error (.missing name)

/-- A member that may be missing or null. -/
def Record.optional {α : Type} [Decodable α] (r : Record) (name : String) : Decoded (Option α) :=
  match r.find? name with
  | some v => decode v
  | none => .ok none

/-- A member that has a default when it is missing. -/
def Record.withDefault {α : Type} [Decodable α] (r : Record) (name : String) (fallback : α) :
    Decoded α :=
  match r.find? name with
  | some v => decode v
  | none => .ok fallback

/-- A member that has a default when it is missing or null. -/
def Record.orElse {α : Type} [Decodable α] (r : Record) (name : String) (fallback : α) :
    Decoded α :=
  (r.optional name).map fun v => v.getD fallback

/-- Reading a record by its members: those that are known, in order, and what they make. -/
@[reducible, noinline] def Decodable.ofRecord {α : Type} (known : List (String × Outline))
    (make : Record → Decoded α) : Decodable α where
  outline := .parts known none
  decode v := do make (← record (known.map (·.1)) v)

/-! ## §3 Documents -/

/-- The value that a document describes, if it is a document at all. -/
def ofChars? (α : Type) [Decodable α] (l : List Char) : Option (Decoded α) :=
  (parseAs? (outline α) l).map decode

/-- The value that a document of bytes describes, if it is a document at all. -/
def ofBytes? (α : Type) [Decodable α] (b : Bytes) : Option (Decoded α) :=
  ofChars? α (documentChars b)

end CatalogSync.Json
