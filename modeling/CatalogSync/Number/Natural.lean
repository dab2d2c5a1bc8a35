import CatalogSync.Text.Class
/-!
# Natural numbers in decimal

Markers and seconds are whole numbers of 64 bits. A reader takes an optional `+` and at least one
digit, and refuses a value above the limit.
-/

namespace CatalogSync.Natural

def max64 : Nat := 18446744073709551615

/-- The value of decimal digits, given the value of those already read. -/
def ofDigits (start : Nat) (digits : List Char) : Nat :=
  digits.foldl (fun n c => n * 10 + Text.digitValue c) start

def digits? (l : List Char) : Option Nat :=
  if l.isEmpty then none
  else if l.all Text.isDigit then some (ofDigits 0 l)
  else none

/-- A number of 64 bits: an optional `+` and digits. -/
def read64? (l : List Char) : Option Nat :=
  let digits := match l with
    | '+' :: rest => rest
    | _ => l
  match digits? digits with
  | some n => if n ≤ max64 then some n else none
  | none => none

/-- The number that a millisecond timestamp holds; anything unreadable counts as 0. -/
def millis (text : Option String) : Nat :=
  match text with
  | none => 0
  | some s => (read64? (Text.trimChars s.toList)).getD 0

/-- The decimal digits of a number, given enough fuel. -/
def digitsWith : Nat → Nat → List Char → List Char
  | 0, _, tail => tail
  | fuel + 1, n, tail =>
    let tail := Char.ofNat (48 + n % 10) :: tail
    if n / 10 = 0 then tail else digitsWith fuel (n / 10) tail

def digitsOf (n : Nat) : List Char := digitsWith (n + 1) n []

def render (n : Nat) : String := String.ofList (digitsOf n)

end CatalogSync.Natural
