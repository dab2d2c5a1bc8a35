import CatalogSync.Json.Basic
/-!
# Writing JSON

Two layouts: `compact` without blanks, `pretty` with one item a line and two blanks of indentation
for each container. In a text only the quote, the backslash and the characters below U+0020 are
escaped.
-/

namespace CatalogSync.Json

/-! ## §1 Scalars -/

def hexDigit (n : Nat) : Char := if n < 10 then Char.ofNat (48 + n) else Char.ofNat (87 + n)

/-- A character as it stands in a quoted text. -/
def escapeChar (c : Char) : List Char :=
  if c = '"' then ['\\', '"']
  else if c = '\\' then ['\\', '\\']
  else if 0x20 ≤ c.toNat then [c]
  else if c.toNat = 8 then ['\\', 'b']
  else if c.toNat = 9 then ['\\', 't']
  else if c.toNat = 10 then ['\\', 'n']
  else if c.toNat = 12 then ['\\', 'f']
  else if c.toNat = 13 then ['\\', 'r']
  else ['\\', 'u', '0', '0', hexDigit (c.toNat / 16), hexDigit (c.toNat % 16)]

def quote (s : String) : List Char := '"' :: (s.toList.flatMap escapeChar ++ ['"'])

/-- The text of a number; a double always shows a point. -/
def printNumber : JsonNumber → List Char
  | .nat n => Natural.digitsOf n
  | .neg n => '-' :: Natural.digitsOf n
  | .double x =>
    let text := x.renderChars
    if text.contains '.' then text else text ++ ['.', '0']

/-! ## §2 Layouts -/

structure Layout where
  -- What stands before an item at a depth of nesting.
  before : Nat → List Char
  -- What stands between a name and its value.
  colon : List Char

/-- No blanks at all. -/
def Layout.compact : Layout := ⟨fun _ => [], [':']⟩

/-- One item a line, indented by two blanks for each container. -/
def Layout.pretty : Layout := ⟨fun depth => '\n' :: List.replicate (2 * depth) ' ', [':', ' ']⟩

mutual

def printValue (layout : Layout) (depth : Nat) : Json → List Char
  | .null => ['n', 'u', 'l', 'l']
  | .bool true => ['t', 'r', 'u', 'e']
  | .bool false => ['f', 'a', 'l', 's', 'e']
  | .num n => printNumber n
  | .str s => quote s
  | .arr [] => ['[', ']']
  | .arr (v :: items) =>
    '[' :: (layout.before (depth + 1) ++ printValue layout (depth + 1) v ++
      printItems layout (depth + 1) items ++ layout.before depth ++ [']'])
  | .obj [] => ['\x7b', '\x7d']
  | .obj ((name, v) :: members) =>
    '\x7b' :: (layout.before (depth + 1) ++ quote name ++ layout.colon ++
      printValue layout (depth + 1) v ++ printMembers layout (depth + 1) members ++
      layout.before depth ++ ['\x7d'])

/-- The items after the first of a list. -/
def printItems (layout : Layout) (depth : Nat) : List Json → List Char
  | [] => []
  | v :: items =>
    ',' :: (layout.before depth ++ printValue layout depth v ++ printItems layout depth items)

def printMembers (layout : Layout) (depth : Nat) : List (String × Json) → List Char
  | [] => []
  | (name, v) :: members =>
    ',' :: (layout.before depth ++ quote name ++ layout.colon ++ printValue layout depth v ++
      printMembers layout depth members)

end

def compact (v : Json) : String := String.ofList (printValue .compact 0 v)

def pretty (v : Json) : String := String.ofList (printValue .pretty 0 v)

end CatalogSync.Json
