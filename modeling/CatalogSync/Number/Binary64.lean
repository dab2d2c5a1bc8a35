/-!
# Doubles as exact fractions

A finite double is a sign, a mantissa and a binary exponent: its value is `mantissa · 2 ^ exponent`
with `mantissa < 2 ^ 53`. All arithmetic is exact on natural numbers and rounds once, to the
nearest double, a tie to the even mantissa; a result beyond the largest double is no double.
-/

namespace CatalogSync

/-- A finite double: `± mantissa · 2 ^ exponent`. -/
structure Binary64 where
  -- Whether the sign is negative; zero has a sign too.
  negative : Bool
  -- The mantissa, below `2 ^ 53`.
  mantissa : Nat
  -- The binary exponent, at least -1074.
  exponent : Int
  deriving DecidableEq, Repr

namespace Binary64

/-! ## §1 Rounding -/

def zero : Binary64 := ⟨false, 0, -1074⟩

/-- A power with an integer exponent as a fraction. -/
def power (base : Nat) (e : Int) : Nat × Nat :=
  if 0 ≤ e then (Nat.pow base e.toNat, 1) else (1, Nat.pow base (-e).toNat)

def powerOfTwo (e : Int) : Nat × Nat := power 2 e

/-- The smallest mantissa of 53 bits, `2 ^ 52`. -/
def leastMantissa : Nat := 4503599627370496

/-- The quotient rounded to the nearest natural number, a tie to the even one. -/
def roundDiv (num den : Nat) : Nat :=
  let q := num / den
  let r := num % den
  if 2 * r < den then q
  else if den < 2 * r then q + 1
  else if q % 2 = 0 then q
  else q + 1

/-- The exponent at which the mantissa of `num / den` has 53 bits, but at least -1074. -/
def exponentOf (num den : Nat) : Int :=
  -- The logarithms give the exponent or one too many.
  let guess : Int := (Nat.log2 num : Int) - (Nat.log2 den : Int) - 52
  let p := powerOfTwo guess
  let e := if num * p.2 < leastMantissa * (den * p.1) then guess - 1 else guess
  if e < -1074 then -1074 else e

/-- The double nearest to `num / den` for a positive denominator; none beyond the largest one. -/
def nearest? (negative : Bool) (num den : Nat) : Option Binary64 :=
  if num = 0 then some ⟨negative, 0, -1074⟩
  else
    let e := exponentOf num den
    let p := powerOfTwo e
    let m := roundDiv (num * p.2) (den * p.1)
    -- Rounding may reach the next power of two.
    let (m, e) := if m = 2 * leastMantissa then (leastMantissa, e + 1) else (m, e)
    if 971 < e then none else some ⟨negative, m, e⟩

/-! ## §2 Arithmetic on magnitudes -/

def magnitude (x : Binary64) : Nat × Nat :=
  let p := powerOfTwo x.exponent
  (x.mantissa * p.1, p.2)

def ofNat? (n : Nat) : Option Binary64 := nearest? false n 1

/-- The double nearest to a natural number; numbers of 64 bits are always in range. -/
def ofNat (n : Nat) : Binary64 := (ofNat? n).getD zero

/-- The product of two magnitudes, rounded. -/
def mul? (x y : Binary64) : Option Binary64 :=
  let a := x.magnitude
  let b := y.magnitude
  nearest? false (a.1 * b.1) (a.2 * b.2)

/-- The quotient of two magnitudes, rounded; the divisor is not zero. -/
def div? (x y : Binary64) : Option Binary64 :=
  let a := x.magnitude
  let b := y.magnitude
  nearest? false (a.1 * b.2) (a.2 * b.1)

def isZero (x : Binary64) : Bool := x.mantissa == 0

def withSign (x : Binary64) (negative : Bool) : Binary64 := { x with negative }

/-! ## §3 Decimal scaling -/

/-- Divide by powers of ten no larger than `10 ^ 308`, rounding after each division. -/
def divideByTens : Nat → Binary64 → Nat → Binary64
  | 0, x, _ => x
  | fuel + 1, x, k =>
    if x.isZero then x
    else
      -- Larger powers of ten are no finite doubles.
      let step := if k ≤ 308 then k else 308
      let y := (x.div? (ofNat (Nat.pow 10 step))).getD zero
      if k ≤ 308 then y else divideByTens fuel y (k - 308)

/-- `digits · 10 ^ exponent` for digits of 64 bits: the digits are rounded to a double, which is
then multiplied or divided by the double nearest to the power of ten. None when the value is too
large. -/
def scale? (digits : Nat) (exponent : Int) : Option Binary64 :=
  let x := ofNat digits
  if 0 ≤ exponent then
    if exponent ≤ 308 then x.mul? (ofNat (Nat.pow 10 exponent.toNat))
    else if x.isZero then some x
    else none
  else some (divideByTens ((-exponent).toNat / 308 + 1) x (-exponent).toNat)

end Binary64

end CatalogSync
