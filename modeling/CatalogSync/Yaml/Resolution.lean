import CatalogSync.Number.Binary64
import CatalogSync.Number.Natural
/-!
# What a plain scalar reads as

A YAML reader takes some plain texts for null, a truth value or a number. A text that reads as one
of these must be quoted to stay a text.
-/

namespace CatalogSync.Yaml

/-! ## §1 Null and truth values -/

/-- The texts that read as null. -/
def nullWords : List String := ["", "~", "null", "Null", "NULL"]

def booleanWords : List String := ["true", "True", "TRUE", "false", "False", "FALSE"]

/-! ## §2 Numbers -/

/-- The value of a list of digits in a base, unless one is no digit of it or there is none. -/
def digitsIn? (base : Nat) (l : List Char) : Option Nat :=
  if l.isEmpty then none
  else
    l.foldlM (fun n c => do
      let d ← Text.hexValue? c
      if d < base then some (n * base + d) else none) 0

/-- Whether a text is a whole number of at most 128 bits in base 16, 8 or 2. -/
def isBased (l : List Char) : Bool :=
  let (limit, magnitude) := match l with
    | '-' :: rest => (Nat.pow 2 127, rest)
    | '+' :: rest => (Nat.pow 2 128 - 1, rest)
    | _ => (Nat.pow 2 128 - 1, l)
  let value := match magnitude with
    | '0' :: 'x' :: digits => digitsIn? 16 digits
    | '0' :: 'o' :: digits => digitsIn? 8 digits
    | '0' :: 'b' :: digits => digitsIn? 2 digits
    | _ => none
  value.any (· ≤ limit)

/-- Whether a text is a sign, if any, a zero and at least one more digit. -/
def isZeroLed (l : List Char) : Bool :=
  let digits := match l with
    | '-' :: rest => rest
    | '+' :: rest => rest
    | _ => l
  match digits with
  | '0' :: d :: rest => (d :: rest).all Text.isDigit
  | _ => false

/-- Whether digits with a decimal exponent round to a finite double. -/
def isFinite (digits : List Char) (exponent : Int) : Bool :=
  let n := Natural.ofDigits 0 digits
  let magnitude := (Natural.digitsOf n).length + exponent
  if n = 0 ∨ magnitude < -400 then true
  else if 400 < magnitude then false
  else if 0 ≤ exponent then (Binary64.nearest? false (n * Nat.pow 10 exponent.toNat) 1).isSome
  else (Binary64.nearest? false n (Nat.pow 10 (-exponent).toNat)).isSome

/-- The value of the exponent part of a decimal number; nothing at all counts as 0. -/
def exponent? : List Char → Option Int
  | [] => some 0
  | e :: rest =>
    if e = 'e' ∨ e = 'E' then
      match rest with
      | '-' :: digits => (Natural.digits? digits).map fun n => -(n : Int)
      | '+' :: digits => (Natural.digits? digits).map fun n => (n : Int)
      | digits => (Natural.digits? digits).map fun n => (n : Int)
    else none

/-- Whether a text without a sign is a decimal number that is a finite double. -/
def isDecimal (l : List Char) : Bool :=
  let whole := l.takeWhile Text.isDigit
  let rest := l.dropWhile Text.isDigit
  let (fraction, rest) := match rest with
    | '.' :: more => (more.takeWhile Text.isDigit, more.dropWhile Text.isDigit)
    | _ => ([], rest)
  if (whole ++ fraction).isEmpty then false
  else
    match exponent? rest with
    | none => false
    | some e => isFinite (whole ++ fraction) (e - fraction.length)

/-- The texts that read as the infinite doubles. -/
def infiniteWords : List String :=
  [".inf", ".Inf", ".INF", "+.inf", "+.Inf", "+.INF", "-.inf", "-.Inf", "-.INF"]

/-- The texts that read as no number. -/
def nanWords : List String := [".nan", ".NaN", ".NAN"]

/-- Whether a text is a decimal number with an optional sign. -/
def isSignedDecimal : List Char → Bool
  | '-' :: rest => isDecimal rest
  | '+' :: rest => isDecimal rest
  | l => isDecimal l

/-- Whether a plain text would not read as a text, or looks like a number without being one. -/
def needsQuotes (s : String) : Bool :=
  nullWords.contains s || booleanWords.contains s || infiniteWords.contains s ||
    nanWords.contains s || isBased s.toList || isZeroLed s.toList || isSignedDecimal s.toList

end CatalogSync.Yaml
