import CatalogSync.Json.Decoder
import CatalogSync.Text.Base64
import CatalogSync.Time.Relaxed
/-!
# Kinds of members

Objects of the cluster come with the kinds of their members laid down. A member that is null counts
as absent, a member that is given twice must be of its kind both times, and a member that is not
laid down may be anything. Members that the bridge does not use must be of their kind all the same.
-/

namespace CatalogSync.Cluster

open Json (Decoded)

/-- A kind of value: which values are of the kind, and which parts of a document they are made of.
-/
structure Kind where
  accepts : Json → Bool
  -- The parts that matter.
  outline : Json.Outline := .whole

namespace Kind

/-! ## §1 Scalars -/

def any : Kind where
  accepts _ := true

def text : Kind where
  accepts
    | .str _ => true
    | _ => false

def integer : Kind where
  accepts
    | .num (.nat n) => n < 9223372036854775808
    | .num (.neg _) => true
    | _ => false

/-- The value of a whole number of 32 bits. -/
def int32? : Json → Option Int
  | .num (.nat n) => if n ≤ 2147483647 then some n else none
  | .num (.neg n) => if n ≤ 2147483648 then some (-(n : Int)) else none
  | _ => none

def number : Kind where
  accepts v := (int32? v).isSome

/-- The number of a port, or its name. -/
def port : Kind where
  accepts v := text.accepts v || number.accepts v

def flag : Kind where
  accepts
    | .bool _ => true
    | _ => false

def time : Kind where
  accepts
    | .str s => (Instant.relaxed? s).isSome
    | _ => false

def bytes : Kind where
  accepts
    | .str s => (Text.Base64.decode? s).isSome
    | _ => false

def exactly (s : String) : Kind where
  accepts
    | .str t => t == s
    | _ => false

/-! ## §2 Containers -/

def list (k : Kind) : Kind where
  accepts
    | .arr items => items.all k.accepts
    | _ => false
  outline := .each k.outline

def map (k : Kind) : Kind where
  accepts
    | .obj members => members.all fun m => k.accepts m.2
    | _ => false
  outline := .each k.outline

def orNull (k : Kind) : Kind where
  accepts
    | .null => true
    | v => k.accepts v
  outline := k.outline

/-- An object whose members must be of the given kinds, not even null. -/
def strict (known : List (String × Kind)) : Kind where
  accepts
    | .obj members =>
      members.all fun (name, v) => known.all fun (name', k) => name' != name || k.accepts v
    | _ => false
  outline := .parts (known.map fun (name, k) => (name, k.outline)) none

/-- An object with members of the given kinds. -/
def object (known : List (String × Kind)) : Kind :=
  strict (known.map fun (name, k) => (name, k.orNull))

/-- An object that names its own version and kind, if it names any. -/
def core (kind : String) (known : List (String × Kind)) : Kind :=
  strict ([("apiVersion", exactly "v1"), ("kind", exactly kind)] ++
    known.map fun (name, k) => (name, k.orNull))

/-- An object with a member that must be there. -/
def requiring (name : String) (k : Kind) : Kind where
  accepts v :=
    k.accepts v &&
      match v.member? name with
      | none => false
      | some .null => false
      | some _ => true
  outline := k.outline

/-- The members of an object of a kind. -/
def read (k : Kind) (v : Json) : Decoded Json.Record :=
  if k.accepts v then Json.object v else .error (.kind "an object of the cluster")

end Kind

end CatalogSync.Cluster
