import CatalogSync.Number.Natural
/-!
# Lengths of time

A `Span` is a number of nanoseconds that is at most the largest representable one; sums saturate
there. `Span.parse` reads a sequence of number and unit pairs such as `1h30m`: after trimming there
is at least one pair, every number has 64 bits, and a unit is the longest run of letters after it.
-/

namespace CatalogSync

/-- A length of time in nanoseconds, at most `2 ^ 64 - 1` seconds and 999999999 nanoseconds. -/
structure Span where
  nanos : Nat
  -- The length can be represented.
  nanos_le : nanos ≤ 18446744073709551615999999999
  deriving DecidableEq, Repr

namespace Span

/-! ## §1 Arithmetic -/

/-- The largest length in nanoseconds. -/
def maxNanos : Nat := 18446744073709551615999999999

/-- The length of a number of nanoseconds, capped. -/
def ofNanos (n : Nat) : Span := ⟨min n maxNanos, Nat.min_le_right _ _⟩

/-- The length of a number of milliseconds, capped. -/
def ofMillis (n : Nat) : Span := ofNanos (n * 1000000)

/-- The length of a number of seconds, capped. -/
def ofSecs (n : Nat) : Span := ofNanos (n * 1000000000)

def zero : Span := ofNanos 0

def add (a b : Span) : Span := ofNanos (a.nanos + b.nanos)

instance : Add Span := ⟨add⟩

def secs (s : Span) : Nat := s.nanos / 1000000000

def subsecNanos (s : Span) : Nat := s.nanos % 1000000000

def millis (s : Span) : Nat := s.nanos / 1000000

@[simp] theorem nanos_ofNanos (n : Nat) : (ofNanos n).nanos = min n maxNanos := rfl

/-! ## §2 Reading -/

/-- Why a text is no length of time. -/
inductive ParseError where
  | blank
  -- A pair does not begin with a digit.
  | noNumber
  -- A number does not fit into 64 bits.
  | outOfRange
  -- No letter follows a number.
  | noUnit
  -- The letters after a number are no unit.
  | unknownUnit (unit : String)
  deriving DecidableEq, Repr

def ParseError.message : ParseError → String
  | .blank => "empty duration"
  | .noNumber => "expected a number"
  | .outOfRange => "number out of range"
  | .noUnit => "missing unit"
  | .unknownUnit unit => s!"unknown duration unit '{unit}'"

/-- The length of a number of units; minutes and hours are capped at 64 bits of seconds. -/
def ofUnit (value : Nat) : List Char → Except ParseError Span
  | ['m', 's'] => .ok (ofMillis value)
  | ['s'] => .ok (ofSecs value)
  | ['m'] => .ok (ofSecs (min (value * 60) Natural.max64))
  | ['h'] => .ok (ofSecs (min (value * 3600) Natural.max64))
  | [] => .error .noUnit
  | unit => .error (.unknownUnit (String.ofList unit))

/-- Read one pair from the front of a text: its length and what follows it. -/
def parsePair (l : List Char) : Except ParseError (Span × List Char) :=
  let digits := l.takeWhile Text.isDigit
  let afterDigits := l.dropWhile Text.isDigit
  if digits.isEmpty then .error .noNumber
  else
    let value := Natural.ofDigits 0 digits
    if Natural.max64 < value then .error .outOfRange
    else
      -- Only letters belong to a unit; what follows them is the next pair.
      match ofUnit value (afterDigits.takeWhile Text.isLetter) with
      | .error e => .error e
      | .ok span => .ok (span, afterDigits.dropWhile Text.isLetter)

/-- Add the pairs of a text to a sum; every pair takes at least one character of the fuel. -/
def parsePairs : Nat → Span → List Char → Except ParseError Span
  | _, total, [] => .ok total
  -- Not reached: the fuel is the length of the text.
  | 0, total, _ :: _ => .ok total
  | fuel + 1, total, c :: rest =>
    match parsePair (c :: rest) with
    | .error e => .error e
    | .ok (span, after) => parsePairs fuel (total + span) after

/-- The length of time that a text describes. -/
def parse (raw : String) : Except ParseError Span :=
  let l := Text.trimChars raw.toList
  if l.isEmpty then .error .blank else parsePairs l.length zero l

/-! ## §3 Writing -/

/-- The decimal places of a fraction with the given number of places, without zeros at the end. -/
def fractionDigits (places n : Nat) : List Char :=
  let digits := Natural.digitsOf n
  Text.dropEndWhile (· == '0') (List.replicate (places - digits.length) '0' ++ digits)

/-- A whole part and a fraction in decimal. -/
def renderParts (whole places fraction : Nat) (unit : String) : String :=
  if fraction = 0 then Natural.render whole ++ unit
  else Natural.render whole ++ "." ++ String.ofList (fractionDigits places fraction) ++ unit

/-- A length in the largest unit that is not above it. -/
def render (s : Span) : String :=
  if 1000000000 ≤ s.nanos then renderParts s.secs 9 s.subsecNanos "s"
  else if 1000000 ≤ s.nanos then renderParts (s.nanos / 1000000) 6 (s.nanos % 1000000) "ms"
  else if 1000 ≤ s.nanos then renderParts (s.nanos / 1000) 3 (s.nanos % 1000) "µs"
  else Natural.render s.nanos ++ "ns"

end Span

end CatalogSync
