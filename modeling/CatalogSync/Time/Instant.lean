import CatalogSync.Number.Natural
/-!
# Timestamps

`Instant.millis?` reads a timestamp of RFC 3339 and gives the milliseconds since the epoch. Date and
time may be separated by `T`, `t` or a space, the zone is `Z`, `z` or a signed offset of hours and
minutes, a fraction of a second may have any number of digits, and the second may be 60.
-/

namespace CatalogSync.Instant

/-! ## §1 The calendar -/

def isLeap (year : Int) : Bool := year % 4 == 0 && (year % 100 != 0 || year % 400 == 0)

def daysInMonth (year : Int) (month : Nat) : Nat :=
  if month = 2 then if isLeap year then 29 else 28
  else if month = 4 ∨ month = 6 ∨ month = 9 ∨ month = 11 then 30
  else 31

/-- The days from the first day of year 1 to the first day of a year; quotients are rounded down. -/
def daysBeforeYear (year : Int) : Int :=
  365 * (year - 1) + (year - 1) / 4 - (year - 1) / 100 + (year - 1) / 400

def daysBeforeMonth (year : Int) (month : Nat) : Nat :=
  (List.range (month - 1)).foldl (fun days m => days + daysInMonth year (m + 1)) 0

def daysSinceEpoch (year : Int) (month day : Nat) : Int :=
  daysBeforeYear year - daysBeforeYear 1970 + (daysBeforeMonth year month + (day - 1) : Nat)

example : daysSinceEpoch 1970 1 1 = 0 ∧ daysSinceEpoch 2000 3 1 = 11017 ∧
    daysSinceEpoch 0 12 31 + 1 = daysSinceEpoch 1 1 1 := by decide

/-! ## §2 Dates and times of day -/

/-- A date and a time of day in a zone. -/
structure Local where
  -- The year; year 0 comes before year 1.
  year : Int
  -- The month, from 1.
  month : Nat
  day : Nat
  hour : Nat
  minute : Nat
  -- The second; 60 is a leap second.
  second : Nat
  -- The thousandths of a second.
  thousandths : Nat
  -- How far the zone is ahead, in minutes.
  offset : Int
  deriving DecidableEq, Repr

namespace Local

def firstYear : Int := -262143

def lastYear : Int := 262142

/-- Whether there is such a date and such a time of day. -/
def isReal (t : Local) : Bool :=
  firstYear ≤ t.year && t.year ≤ lastYear && 1 ≤ t.month && t.month ≤ 12 && 1 ≤ t.day &&
    t.day ≤ daysInMonth t.year t.month && t.hour ≤ 23 && t.minute ≤ 59 && t.second ≤ 60 &&
    t.offset.natAbs < 1440

def minutes (t : Local) : Int :=
  (daysSinceEpoch t.year t.month t.day * 24 + t.hour) * 60 + t.minute - t.offset

/-- The milliseconds from the epoch, unless the time at no offset is in a year that is not counted.
-/
def millis? (t : Local) : Option Int :=
  if t.isReal ∧ daysSinceEpoch firstYear 1 1 * 1440 ≤ t.minutes ∧
      t.minutes < daysSinceEpoch (lastYear + 1) 1 1 * 1440 then
    some ((t.minutes * 60 + t.second) * 1000 + t.thousandths)
  else none

end Local

/-! ## §3 Reading -/

/-- A number of exactly the given count of digits, and what follows it. -/
def number? (count : Nat) (l : List Char) : Option (Nat × List Char) :=
  let digits := l.take count
  if digits.length = count ∧ digits.all Text.isDigit then
    some (Natural.ofDigits 0 digits, l.drop count)
  else none

/-- What follows a character that must come first. -/
def char? (c : Char) : List Char → Option (List Char)
  | [] => none
  | d :: rest => if d = c then some rest else none

/-- What follows the separator between a date and a time of day. -/
def separator? : List Char → Option (List Char)
  | [] => none
  | c :: rest => if c = 'T' ∨ c = 't' ∨ c = ' ' then some rest else none

/-- A fraction of a second in milliseconds, and what follows it; without a point it is 0. -/
def fraction? : List Char → Option (Nat × List Char)
  | '.' :: rest =>
    let digits := rest.takeWhile Text.isDigit
    if digits.isEmpty then none
    else
      -- Places beyond the third are cut off, missing ones count as zeros.
      some (Natural.ofDigits 0 (digits.take 3 ++ List.replicate (3 - digits.length) '0'),
        rest.dropWhile Text.isDigit)
  | l => some (0, l)

/-- The offset of a zone in minutes, and what follows it: `Z` or `z`, or a sign, two digits of hours
and two digits of minutes, between which `between` leads on. -/
def offset? (between : List Char → Option (List Char)) : List Char → Option (Int × List Char)
  | [] => none
  | c :: rest =>
    if c = 'Z' ∨ c = 'z' then some (0, rest)
    else do
      let negative ← if c = '+' then some false
        -- The minus sign proper is taken for a hyphen.
        else if c = '-' ∨ c = Char.ofNat 0x2212 then some true else none
      let (hours, rest) ← number? 2 rest
      let (minutes, rest) ← number? 2 (← between rest)
      if minutes ≤ 59 then
        let offset : Int := hours * 60 + minutes
        some (if negative then -offset else offset, rest)
      else none

/-- The milliseconds from the epoch to a timestamp. -/
def millis? (text : String) : Option Int := do
  let (year, l) ← number? 4 text.toList
  let (month, l) ← number? 2 (← char? '-' l)
  let (day, l) ← number? 2 (← char? '-' l)
  let (hour, l) ← number? 2 (← separator? l)
  let (minute, l) ← number? 2 (← char? ':' l)
  let (second, l) ← number? 2 (← char? ':' l)
  let (thousandths, l) ← fraction? l
  let (offset, l) ← offset? (char? ':') l
  if l.isEmpty then
    Local.millis? { year, month, day, hour, minute, second, thousandths, offset }
  else none

end CatalogSync.Instant
