import CatalogSync.Json.Decoder
import CatalogSync.Order.SortedMap
/-!
# Custom properties

Every entity of a registry carries named properties. A property is a text, a whole number given as
text, a double, a flag, or something that the catalog has no use for. A text property without text
is a label: its name is what counts.
-/

namespace CatalogSync.Registry

open Json (Decoded Decodable DecodeError decode)

/-- The value of a custom property. -/
inductive PropertyValue where
  | text (s : String)
  -- A whole number, as it was written.
  | int (digits : String)
  | double (x : Binary64)
  | flag (b : Bool)
  -- A value of another type.
  | unsupported
  deriving DecidableEq, Repr

namespace PropertyValue

def asText? : PropertyValue → Option String
  | text s => some s
  | int digits => some digits
  | double x => some x.render
  | flag true => some "true"
  | flag false => some "false"
  | unsupported => none

/-- Whether the value marks a label. -/
def isLabel : PropertyValue → Bool
  | text s => s.isEmpty
  | _ => false

/-! ## §1 The JSON form -/

/-- The member that names the type of a value. -/
def typeMember : String := "metadataType"

/-- Split a value into its type name and the rest. -/
def splitType : Json → Decoded (String × Json)
  | .obj members =>
    match members.filter fun m => m.1 == typeMember with
    | [] => .error (.missing typeMember)
    | [(_, type)] => do
      return (← decode type, .obj (members.filter fun m => m.1 != typeMember))
    | _ => .error (.repeated typeMember)
  | .arr (type :: rest) => do return (← decode type, .arr rest)
  | .arr [] => .error (.missing typeMember)
  | _ => .error (.kind "a property value")

/-- The payload of a value under its member name. -/
def payload (α : Type) [Decodable α] (name : String) (v : Json) : Decoded α := do
  (← Json.record [name] v).required name

instance : Decodable PropertyValue where
  decode v := do
    let (type, rest) ← splitType v
    if type = "MetadataStringValue" then return text (← payload String "string_value" rest)
    else if type = "MetadataIntValue" then return int (← payload String "int_value" rest)
    else if type = "MetadataDoubleValue" then return double (← payload Binary64 "double_value" rest)
    else if type = "MetadataBoolValue" then return flag (← payload Bool "bool_value" rest)
    else
      match rest with
      | .arr (_ :: _) => throw .length
      | _ => return unsupported

def toJson : PropertyValue → Json
  | text s => .obj [(typeMember, .str "MetadataStringValue"), ("string_value", .str s)]
  | int digits => .obj [(typeMember, .str "MetadataIntValue"), ("int_value", .str digits)]
  | double x => .obj [(typeMember, .str "MetadataDoubleValue"), ("double_value", .num (.double x))]
  | flag b => .obj [(typeMember, .str "MetadataBoolValue"), ("bool_value", .bool b)]
  | unsupported => .obj [(typeMember, .str "Unsupported")]

end PropertyValue

/-- The custom properties of an entity by name. -/
abbrev Properties := SortedMap String PropertyValue

namespace Properties

/-- The trimmed text of a property, unless it is empty. -/
def text? (p : Properties) (name : String) : Option String :=
  ((p.get? name).bind PropertyValue.asText?).bind Text.trimmed?

def labels (p : Properties) : List String :=
  p.entries.filterMap fun e => if e.2.isLabel then some e.1 else none

/-- The properties with one more text property. -/
def withText (p : Properties) (name value : String) : Properties := p.insert name (.text value)

def toJson (p : Properties) : Json := .obj (p.entries.map fun e => (e.1, e.2.toJson))

end Properties

end CatalogSync.Registry
