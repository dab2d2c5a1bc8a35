import CatalogSync.Time.Instant
/-!
# Timestamps with room

`Instant.relaxed?` reads the timestamps that objects of the cluster carry. They may be written with
more freedom than RFC 3339 gives: blanks may stand before each number, before each `-` and `:` and
around the zone, a number may have fewer digits than usual, a year with a sign may have any number
of them, the zone may be `UTC` in any case, and colons and blanks between its hours and minutes do
not count.
-/

namespace CatalogSync.Instant

/-- The text without the blanks at its front. -/
def skipBlanks (l : List Char) : List Char := l.dropWhile Text.isBlank

/-- A number behind blanks, and what follows it: up to the given count of digits, but at least one.
-/
def upTo? (count : Nat) (l : List Char) : Option (Nat × List Char) :=
  let l := skipBlanks l
  let digits := (l.take count).takeWhile Text.isDigit
  if digits.isEmpty then none else some (Natural.ofDigits 0 digits, l.drop digits.length)

/-- A year behind blanks, and what follows it: up to four digits, or a sign and any number of them.
-/
def year? (l : List Char) : Option (Int × List Char) :=
  let signed (rest : List Char) : Option (Nat × List Char) :=
    let digits := rest.takeWhile Text.isDigit
    if digits.isEmpty then none
    else some (Natural.ofDigits 0 digits, rest.dropWhile Text.isDigit)
  match skipBlanks l with
  | '+' :: rest => (signed rest).map fun (n, rest) => ((n : Int), rest)
  | '-' :: rest => (signed rest).map fun (n, rest) => (-(n : Int), rest)
  | l => (upTo? 4 l).map fun (n, rest) => ((n : Int), rest)

/-- What follows a character behind blanks. -/
def after? (c : Char) (l : List Char) : Option (List Char) := char? c (skipBlanks l)

/-- What follows the colons and blanks between the hours and the minutes of a zone. -/
def skipColons (l : List Char) : List Char := l.dropWhile fun c => c == ':' || Text.isBlank c

/-- The offset of a zone behind blanks in minutes, and what follows it. -/
def zone? (l : List Char) : Option (Int × List Char) :=
  let l := skipBlanks l
  if (l.take 3).map Text.lowerChar = ['u', 't', 'c'] then some (0, l.drop 3)
  else offset? (fun rest => some (skipColons rest)) l

/-- The milliseconds from the epoch to a timestamp. -/
def relaxed? (text : String) : Option Int := do
  let (year, l) ← year? text.toList
  let (month, l) ← upTo? 2 (← after? '-' l)
  let (day, l) ← upTo? 2 (← after? '-' l)
  let (hour, l) ← upTo? 2 (← separator? l)
  let (minute, l) ← upTo? 2 (← after? ':' l)
  let (second, l) ← upTo? 2 (← after? ':' l)
  let (thousandths, l) ← fraction? l
  let (offset, l) ← zone? l
  if (skipBlanks l).isEmpty then
    Local.millis? { year, month, day, hour, minute, second, thousandths, offset }
  else none

example : ["2025-1-1 1:2:3Z", " 2025 - 01-01T00:00: 00 utc ", "+2025-01-01T00:00:00-01: 30"].all
    (fun s => (relaxed? s).isSome) = true := by decide +kernel

example : ["2025-01-01T00:00:00+02", "12025-01-01T00:00:00Z", "2025-01-01\t00:00:00Z"].all
    (fun s => (relaxed? s).isNone) = true := by decide +kernel

end CatalogSync.Instant
