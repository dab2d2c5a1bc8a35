import CatalogSync.Json.Basic
/-!
# Numbers and texts of a document

How numbers and texts are written in a JSON document, and what they stand for. Not every numeral
stands for a number and not every quoted text for a text: a number may be out of range, and a
surrogate may lack its other half. Such a piece can be passed over but not used.

Numerals without a fraction or an exponent are whole numbers while they fit into 64 bits. In any
other numeral the digits are collected while they fit into 64 bits and are then scaled as
`Binary64.scale?` says; `-0` is a double.
-/

namespace CatalogSync.Json

/-! ## §1 Numerals -/

structure Numeral where
  -- Whether a minus sign comes first.
  negative : Bool
  whole : List Char
  fraction : List Char := []
  -- The exponent, where it is given: whether it is negative, and its size.
  exponent : Option (Bool × Nat) := none
  deriving DecidableEq, Repr

/-- The fraction that follows a whole part: its digits and what follows them. -/
def readFraction : List Char → Option (List Char × List Char)
  | '.' :: rest =>
    let digits := rest.takeWhile Text.isDigit
    if digits.isEmpty then none else some (digits, rest.dropWhile Text.isDigit)
  | l => some ([], l)

/-- The exponent that may follow a number, and what follows it. -/
def readExponent : List Char → Option (Option (Bool × Nat) × List Char)
  | c :: rest =>
    if c = 'e' ∨ c = 'E' then
      let (negative, rest) := match rest with
        | '+' :: more => (false, more)
        | '-' :: more => (true, more)
        | _ => (false, rest)
      let digits := rest.takeWhile Text.isDigit
      if digits.isEmpty then none
      else some (some (negative, Natural.ofDigits 0 digits), rest.dropWhile Text.isDigit)
    else some (none, c :: rest)
  | [] => some (none, [])

/-- A numeral without its sign at the front of a text, and what follows it. -/
def readMagnitude (negative : Bool) (l : List Char) : Option (Numeral × List Char) := do
  let whole := l.takeWhile Text.isDigit
  -- A zero in front stands alone.
  if whole.isEmpty ∨ (whole.length ≠ 1 ∧ whole.head? = some '0') then none
  let (fraction, rest) ← readFraction (l.dropWhile Text.isDigit)
  let (exponent, rest) ← readExponent rest
  some ({ negative, whole, fraction, exponent }, rest)

/-- A numeral at the front of a text, and what follows it. -/
def readNumeral : List Char → Option (Numeral × List Char)
  | '-' :: rest => readMagnitude true rest
  | l => readMagnitude false l

/-! ## §2 Numbers -/

/-- The largest exponent that is still counted; the digits beyond it decide between zero and a
value out of range. -/
def maxExponent : Nat := 2147483647

/-- Collect digits into a number of 64 bits until one does not fit; the rest are counted. -/
def collectDigits : Nat → List Char → Nat × Nat
  | n, [] => (n, 0)
  | n, c :: rest =>
    let next := n * 10 + Text.digitValue c
    -- Digits after the first that does not fit are dropped, though a later one might fit.
    if next ≤ Natural.max64 then collectDigits next rest else (n, rest.length + 1)

/-- The value of a number in parts, unless it is too large: the digits of its whole part, of its
fraction, and its exponent with a sign. -/
def scaled? (whole fraction : List Char) (negativeExponent : Bool) (exponent : Nat) :
    Option Binary64 :=
  let (n, dropped) := collectDigits 0 whole
  let (m, ignored) := collectDigits n fraction
  let kept : Int := (dropped : Int) - (fraction.length - ignored : Nat)
  if maxExponent < exponent then
    -- The exponent outweighs any number of digits.
    if m ≠ 0 ∧ negativeExponent = false then none else some .zero
  else
    Binary64.scale? m (if negativeExponent then kept - exponent else kept + exponent)

/-- A whole number with its sign. -/
def wholeNumber? (negative : Bool) (digits : List Char) : Option JsonNumber :=
  let n := Natural.ofDigits 0 digits
  if Natural.max64 < n then
    -- Numbers beyond 64 bits are doubles.
    (scaled? digits [] false 0).map fun x => .double (x.withSign negative)
  else if negative = false then some (.nat n)
  -- Minus zero is a double as well, for its sign.
  else if n = 0 ∨ 9223372036854775808 < n then
    some (.double ((Binary64.ofNat n).withSign true))
  else some (.neg n)

/-- The number that a numeral stands for, unless it is out of range. -/
def Numeral.value? (x : Numeral) : Option JsonNumber :=
  match x.exponent with
  | some (negativeExponent, exponent) =>
    (scaled? x.whole x.fraction negativeExponent exponent).map fun y =>
      .double (y.withSign x.negative)
  | none =>
    if x.fraction.isEmpty then wholeNumber? x.negative x.whole
    else (scaled? x.whole x.fraction false 0).map fun y => .double (y.withSign x.negative)

/-! ## §3 Texts -/

/-- The value of four hexadecimal digits. -/
def hexWord? (a b c d : Char) : Option Nat := do
  let high ← Text.hexValue? a
  let upper ← Text.hexValue? b
  let lower ← Text.hexValue? c
  let low ← Text.hexValue? d
  some (((high * 16 + upper) * 16 + lower) * 16 + low)

/-- The character that a one-letter escape stands for. -/
def escaped? (c : Char) : Option Char :=
  if c = '"' ∨ c = '\\' ∨ c = '/' then some c
  else if c = 'b' then some (Char.ofNat 8)
  else if c = 'f' then some (Char.ofNat 12)
  else if c = 'n' then some '\n'
  else if c = 'r' then some '\r'
  else if c = 't' then some '\t'
  else none

/-- The characters of a text up to its closing quote, and what follows it. A character below U+0020
must be escaped, and surrogates come in pairs. -/
def readString : List Char → Option (List Char × List Char)
  | [] => none
  | '"' :: rest => some ([], rest)
  | '\\' :: 'u' :: a :: b :: c :: d :: '\\' :: 'u' :: e :: f :: g :: h :: rest =>
    match hexWord? a b c d with
    | none => none
    | some high =>
      -- The first half of a pair needs the second right behind it.
      if 0xD800 ≤ high ∧ high ≤ 0xDBFF then
        match hexWord? e f g h with
        | none => none
        | some low =>
          if 0xDC00 ≤ low ∧ low ≤ 0xDFFF then
            (readString rest).map fun (s, after) =>
              (Char.ofNat (0x10000 + (high - 0xD800) * 1024 + (low - 0xDC00)) :: s, after)
          else none
      else if 0xDC00 ≤ high ∧ high ≤ 0xDFFF then none
      -- The first escape is a character by itself; the second may begin a pair of its own.
      else
        (readString ('\\' :: 'u' :: e :: f :: g :: h :: rest)).map fun (s, after) =>
          (Char.ofNat high :: s, after)
  | '\\' :: 'u' :: a :: b :: c :: d :: rest =>
    match hexWord? a b c d with
    | none => none
    | some n =>
      if 0xD800 ≤ n ∧ n ≤ 0xDFFF then none
      else (readString rest).map fun (s, after) => (Char.ofNat n :: s, after)
  | '\\' :: c :: rest =>
    match escaped? c with
    | none => none
    | some e => (readString rest).map fun (s, after) => (e :: s, after)
  | c :: rest =>
    if c.toNat < 0x20 ∨ c = '\\' then none
    else (readString rest).map fun (s, after) => (c :: s, after)

/-- What follows a quoted text that is passed over; halves of surrogate pairs are let through. -/
def skipString : List Char → Option (List Char)
  | [] => none
  | '"' :: rest => some rest
  | '\\' :: 'u' :: a :: b :: c :: d :: rest =>
    if (hexWord? a b c d).isSome then skipString rest else none
  | '\\' :: c :: rest => if (escaped? c).isSome then skipString rest else none
  | c :: rest => if c.toNat < 0x20 ∨ c = '\\' then none else skipString rest

/-! ## §4 Between the parts -/

def isSpace (c : Char) : Bool := c == ' ' || c == '\n' || c == '\t' || c == '\r'

def skipSpace (l : List Char) : List Char := l.dropWhile isSpace

/-- What follows a word that must come first. -/
def word? (w : List Char) (l : List Char) : Option (List Char) :=
  if w.isPrefixOf l then some (l.drop w.length) else none

def words : List (List Char × Json) :=
  [(['n', 'u', 'l', 'l'], .null), (['t', 'r', 'u', 'e'], .bool true),
   (['f', 'a', 'l', 's', 'e'], .bool false)]

/-- The value that is written as a word at the front of a text, and what follows it. -/
def readWord (l : List Char) : Option (Json × List Char) :=
  words.findSome? fun w => (word? w.1 l).map fun rest => (w.2, rest)

end CatalogSync.Json
