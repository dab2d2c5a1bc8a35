import CatalogSync.Number.Binary64
import CatalogSync.Number.Natural
/-!
# The shortest decimal text of a double

The fewest decimal digits that read back as the same double, the nearest such digits to its value
when there is a choice, and the larger of two that are equally near. They are written positionally,
never with an exponent.
-/

namespace CatalogSync.Binary64

/-! ## §1 Digits -/

/-- The interval of numbers that round to a positive double, in units of `2 ^ (exponent - 2)`: the
lower end, the value, the upper end. -/
def interval (x : Binary64) : Nat × Nat × Nat :=
  let v := 4 * x.mantissa
  -- Below a power of two the doubles lie twice as close.
  let low := if x.mantissa = leastMantissa ∧ -1074 < x.exponent then v - 1 else v - 2
  (low, v, v + 2)

/-- Whether `n · 10 ^ k` rounds to a positive double. -/
def readsBackAs (x : Binary64) (n : Nat) (k : Int) : Bool :=
  let (low, _, high) := x.interval
  let two := powerOfTwo (x.exponent - 2)
  let ten := power 10 k
  let left := n * ten.1 * two.2
  let lower := low * two.1 * ten.2
  let upper := high * two.1 * ten.2
  -- A tie goes to the even mantissa, so the ends belong to its interval.
  if x.mantissa % 2 = 0 then lower ≤ left && left ≤ upper else lower < left && left < upper

def wholeOf (x : Binary64) (k : Int) : Nat × Bool :=
  let two := powerOfTwo x.exponent
  let ten := power 10 k
  let num := x.mantissa * two.1 * ten.2
  let den := two.2 * ten.1
  (num / den, den ≤ 2 * (num % den))

/-- The exponent of the leading decimal digit, found downward from a start. -/
def leadingExponent (x : Binary64) : Nat → Int → Int
  | 0, k => k
  | fuel + 1, k => if (x.wholeOf k).1 = 0 then leadingExponent x fuel (k - 1) else k

/-- Try grids of ever more digits until a point of one reads back. -/
def shortestFrom (x : Binary64) (lead : Int) : Nat → Nat → Nat × Int
  | 0, count => ((x.wholeOf (lead + 1 - count)).1, lead + 1 - count)
  | fuel + 1, count =>
    let k := lead + 1 - (count : Int)
    let (below, upper) := x.wholeOf k
    -- Both neighbours on a grid may read back; then the nearer one is taken.
    let lowHit := x.readsBackAs below k
    let highHit := x.readsBackAs (below + 1) k
    if lowHit && (!highHit || !upper) then (below, k)
    else if highHit then (below + 1, k)
    else shortestFrom x lead fuel (count + 1)

/-- The shortest digits of a positive double and the exponent of the last one. -/
def shortest (x : Binary64) : Nat × Int :=
  shortestFrom x (leadingExponent x 700 309) 17 1

/-! ## §2 Positional text -/

/-- Digits and the exponent of the last one, written without an exponent. -/
def positional (digits : List Char) (k : Int) : List Char :=
  if 0 ≤ k then digits ++ List.replicate k.toNat '0'
  else
    let places := (-k).toNat
    -- The point stands among the digits, or zeros fill the places before them.
    if places < digits.length then
      digits.take (digits.length - places) ++ '.' :: digits.drop (digits.length - places)
    else '0' :: '.' :: (List.replicate (places - digits.length) '0' ++ digits)

/-- Digits without the zeros at their end, and the exponent raised for each. -/
def stripZeros : Nat → Nat → Int → Nat × Int
  | 0, n, k => (n, k)
  | fuel + 1, n, k => if n ≠ 0 ∧ n % 10 = 0 then stripZeros fuel (n / 10) (k + 1) else (n, k)

def renderChars (x : Binary64) : List Char :=
  let sign := if x.negative then ['-'] else []
  if x.mantissa = 0 then sign ++ ['0']
  else
    let (n, k) := x.shortest
    let (n, k) := stripZeros 20 n k
    sign ++ positional (Natural.digitsOf n) k

def render (x : Binary64) : String := String.ofList x.renderChars

/-- A quarter lies half way between two tenths that read back alike; an eighth does not. -/
example : [(⟨false, 4503599627370498, -3⟩ : Binary64), ⟨false, 4503599627370497, -3⟩].map render =
    ["562949953421312.3", "562949953421312.1"] := by decide +kernel

end CatalogSync.Binary64
