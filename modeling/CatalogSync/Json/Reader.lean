import CatalogSync.Json.Outline
import CatalogSync.Json.Skip
import CatalogSync.Text.Utf8
/-!
# Reading JSON

`Json.readAs` reads the parts of a text that an outline keeps, and passes over the others. It reads
as much as is well formed: a text that breaks off inside a list or an object still yields what was
read of it, so that a caller can tell a document of the wrong kind from one that is no document.
`Json.parse?` accepts whole documents only and keeps everything.

Containers that are kept nest at most 127 deep.
-/

namespace CatalogSync.Json

/-! ## §1 Readings -/

/-- What was read at the front of a text. -/
inductive Reading where
  -- A value, and what follows it.
  | whole (value : Json) (rest : List Char)
  -- No value. Of a list or an object that breaks off, what was read of it, and the name of a member
  -- of whose value nothing was read.
  | broken (part : Option Json) (pending : Option String)
  deriving Repr, Inhabited

/-- A value that holds no other. -/
def readScalar (l : List Char) : Reading :=
  match l with
  | '"' :: rest =>
    match readString rest with
    | some (s, after) => .whole (.str (String.ofList s)) after
    | none => .broken none none
  | _ =>
    match readWord l with
    | some (v, rest) => .whole v rest
    | none =>
      match readNumeral l with
      | none => .broken none none
      | some (x, rest) =>
        match x.value? with
        | some n => .whole (.num n) rest
        | none => .broken none none

/-! ## §2 Values -/

/-- The members of an object that breaks off inside the value of a member. -/
def brokenMember (members : List (String × Json)) (name : String) : Option Json → Reading
  | some v => .broken (some (.obj (members.reverse ++ [(name, v)]))) none
  | none => .broken (some (.obj members.reverse)) (some name)

mutual

/-- A value at the front of a text; `depth` containers may still be opened. -/
def readValue : Nat → Nat → Outline → List Char → Reading
  | 0, _, _, _ => .broken none none
  | fuel + 1, depth, o, l =>
    match skipSpace l with
    | '[' :: rest =>
      if depth = 0 then .broken none none
      else
        match skipSpace rest with
        | ']' :: after => .whole (.arr []) after
        | rest => readItems fuel (depth - 1) o [] rest
    | '\x7b' :: rest =>
      if depth = 0 then .broken none none
      else
        match skipSpace rest with
        | '\x7d' :: after => .whole (.obj []) after
        | rest => readMembers fuel (depth - 1) o [] rest
    | l => readScalar l

/-- The items of a list, given those already read in reverse. -/
def readItems : Nat → Nat → Outline → List Json → List Char → Reading
  | 0, _, _, items, _ => .broken (some (.arr items.reverse)) none
  | fuel + 1, depth, o, items, l =>
    match o.next? with
    -- No item may follow the last known one, whatever stands there.
    | none => .broken (some (.arr items.reverse)) none
    | some (first, o) =>
      match readValue fuel depth first l with
      -- What was read of the item is kept with the items before it.
      | .broken part _ => .broken (some (.arr (items.reverse ++ part.toList))) none
      | .whole v rest =>
        match skipSpace rest with
        | ']' :: after => .whole (.arr (v :: items).reverse) after
        | ',' :: after => readItems fuel depth o (v :: items) after
        | _ => .broken (some (.arr (v :: items).reverse)) none

/-- The members of an object, given those already read in reverse. -/
def readMembers : Nat → Nat → Outline → List (String × Json) → List Char → Reading
  | 0, _, _, members, _ => .broken (some (.obj members.reverse)) none
  | fuel + 1, depth, o, members, l =>
    match skipSpace l with
    | '"' :: rest =>
      match readString rest with
      | none => .broken (some (.obj members.reverse)) none
      | some (chars, after) =>
        let name := String.ofList chars
        match skipSpace after with
        | ':' :: after =>
          -- A member that is passed over is not listed, but its value must be well formed.
          let entry : Except Reading (List (String × Json) × List Char) :=
            match o.member? name with
            | none =>
              match skipValue fuel after with
              | none => .error (brokenMember members name none)
              | some rest => .ok (members, rest)
            | some o =>
              match readValue fuel depth o after with
              | .broken part _ => .error (brokenMember members name part)
              | .whole v rest => .ok ((name, v) :: members, rest)
          match entry with
          | .error broken => broken
          | .ok (members, rest) =>
            match skipSpace rest with
            | '\x7d' :: after => .whole (.obj members.reverse) after
            | ',' :: after => readMembers fuel depth o members after
            | _ => .broken (some (.obj members.reverse)) none
        -- The name was read, so it counts although no value follows.
        | _ => brokenMember members name none
    | _ => .broken (some (.obj members.reverse)) none

end

/-! ## §3 Documents -/

/-- How many containers may be open at once. -/
def maxDepth : Nat := 127

/-- What is read at the front of a text; every step of the reader takes a character. -/
def readAs (o : Outline) (l : List Char) : Reading := readValue (2 * l.length + 2) maxDepth o l

/-- The value of a whole document, as far as its parts are kept. -/
def parseAs? (o : Outline) (l : List Char) : Option Json :=
  match readAs o l with
  | .whole v rest => if (skipSpace rest).isEmpty then some v else none
  | .broken _ _ => none

def parse? (text : String) : Option Json := parseAs? .whole text.toList

/-- What stands for a piece of bytes that is no character. It can be part of a quoted text only, and
only of one that is passed over, because it ends in half of a surrogate pair. -/
def blemish : List Char := ['?', '\\', 'u', 'd', 'c', '0', '0']

/-- The characters of a document given as bytes. -/
def documentChars (b : Bytes) : List Char :=
  (Text.Utf8.read .start b).flatMap fun c => (c.map ([·])).getD blemish

theorem documentChars_encode (s : String) : documentChars (Text.Utf8.encode s) = s.toList := by
  rw [documentChars, Text.Utf8.encode, Text.Utf8.read_encodeChars, List.flatMap_map]
  simp

end CatalogSync.Json
