import CatalogSync.Text.Class
import CatalogSync.Text.Split
import CatalogSync.Text.Utf8
/-!
# Form-encoded queries

The query of a URL as a list of named values. In a component a space is written `+` and every
other byte outside the safe characters is written `%` with two hexadecimal digits. Reading accepts
any text: a `%` without two digits stands for itself, and bytes that are not UTF-8 become U+FFFD.
-/

namespace CatalogSync.Text.Form

/-! ## §1 Reading -/

/-- The bytes of a component: `+` is a space, `%` with two digits is one byte. -/
def componentBytes : List Char → Bytes
  | [] => []
  | '+' :: rest => 0x20 :: componentBytes rest
  | '%' :: a :: b :: rest =>
    match hexValue? a, hexValue? b with
    | some x, some y => UInt8.ofNat (x * 16 + y) :: componentBytes rest
    | _, _ => 0x25 :: componentBytes (a :: b :: rest)
  | c :: rest => Utf8.encodeChar c ++ componentBytes rest

def decodeComponent (l : List Char) : String := Utf8.decodeLossy (componentBytes l)

/-- One `name=value`; without `=` the value is empty. -/
def decodePair (l : List Char) : String × String :=
  match cut '=' l with
  | some (name, value) => (decodeComponent name, decodeComponent value)
  | none => (decodeComponent l, "")

/-- The named values of a query, in order; empty parts between `&` are skipped. -/
def decode (query : String) : List (String × String) :=
  ((pieces '&' query.toList).filter (fun p => !p.isEmpty)).map decodePair

/-! ## §2 Writing -/

/-- The upper-case hexadecimal digit of a value below 16. -/
def hexDigit (n : Nat) : Char := if n < 10 then Char.ofNat (48 + n) else Char.ofNat (55 + n)

/-- Whether a byte stands for itself in a component. -/
def isSafe (b : UInt8) : Bool :=
  let c := Char.ofNat b.toNat
  (b.toNat < 0x80) && (c.isAlphanum || c == '*' || c == '-' || c == '.' || c == '_')

/-- One byte of a component. -/
def encodeByte (b : UInt8) : List Char :=
  if isSafe b then [Char.ofNat b.toNat]
  else if b = 0x20 then ['+']
  else ['%', hexDigit (b.toNat / 16), hexDigit (b.toNat % 16)]

/-- A component in its written form. -/
def encodeComponent (s : String) : List Char := (Utf8.encode s).flatMap encodeByte

/-- The query with the given named values. -/
def encode (pairs : List (String × String)) : String :=
  String.ofList (joinChars ['&'] (pairs.map fun p =>
    encodeComponent p.1 ++ '=' :: encodeComponent p.2))

end CatalogSync.Text.Form
