/-!
# Binary fractions with a bounded significand

Numbers with a fraction are kept as `significand · 2 ^ exponent`, with a significand below
`2 ^ 53` and an exponent of at least `-1074`: the binary fractions of 64 bits. Only those
that are not negative are kept here; a sign is the concern of who has one. All arithmetic is
exact on natural numbers; `Binary.ofRatio` then rounds to the nearest of these numbers, a
tie to the even significand, and has no result where that is beyond the greatest of them.

`Binary.ofDigits` is the value of a decimal numeral, given its digits as one number and a
power of ten. It takes one rounded multiplication or division by a rounded power of ten, and
before it, for very small numerals, divisions by the greatest such power; so the result is
not always the nearest number to the numeral.
-/

namespace Pushdown.Decimal

/-- The number `significand · 2 ^ exponent`. -/
structure Binary where
  significand : Nat
  exponent : Int
deriving DecidableEq

namespace Binary

/-- Zero. -/
def zero : Binary := ⟨0, 0⟩

/-- Whether a number is zero. -/
def isZero (b : Binary) : Bool := b.significand == 0

/-- The least significand of 53 bits. -/
def leastFull : Nat := Nat.pow 2 52

/-- The least exponent. -/
def leastExponent : Int := -1074

/-- The greatest exponent. -/
def greatestExponent : Int := 971

/-- Numerator and denominator of `num / den / 2 ^ exponent`. -/
def scaled (num den : Nat) (exponent : Int) : Nat × Nat :=
  if 0 ≤ exponent then (num, den * Nat.pow 2 exponent.toNat)
  else (num * Nat.pow 2 (-exponent).toNat, den)

/-- The exponent with which `num / den` has a significand of 53 bits, or the least one. -/
def exponentOf (num den : Nat) : Int :=
  -- The logarithms give the exponent or one more than it.
  let guess : Int := (num.log2 : Int) - (den.log2 : Int) - 52
  let (n, d) := scaled num den guess
  max leastExponent (if n < leastFull * d then guess - 1 else guess)

/-- The nearest whole number to `n / d`, a tie to the even one. -/
def nearest (n d : Nat) : Nat :=
  let q := n / d
  let twice := 2 * (n % d)
  if d < twice || (twice == d && q % 2 == 1) then q + 1 else q

/-- The number nearest to `num / den`, unless that is too great. -/
def ofRatio (num den : Nat) : Option Binary :=
  if num = 0 then some zero
  else
    let exponent := exponentOf num den
    let (n, d) := scaled num den exponent
    let q := nearest n d
    -- Rounding up may carry into one bit too many.
    let b : Binary := if q = 2 * leastFull then ⟨leastFull, exponent + 1⟩ else ⟨q, exponent⟩
    if greatestExponent < b.exponent then none else some b

/-- A number as a ratio. -/
def ratio (b : Binary) : Nat × Nat :=
  if 0 ≤ b.exponent then (b.significand * Nat.pow 2 b.exponent.toNat, 1)
  else (b.significand, Nat.pow 2 (-b.exponent).toNat)

/-- The rounded product. -/
def times (a b : Binary) : Option Binary :=
  ofRatio (a.ratio.1 * b.ratio.1) (a.ratio.2 * b.ratio.2)

/-- The rounded quotient. -/
def dividedBy (a b : Binary) : Option Binary :=
  ofRatio (a.ratio.1 * b.ratio.2) (a.ratio.2 * b.ratio.1)

/-- The greatest power of ten that is below the greatest number. -/
def greatestPower : Nat := 308

/-- A power of ten, rounded. -/
def tenTo (power : Nat) : Option Binary := ofRatio (Nat.pow 10 power) 1

/-- A number divided by the greatest power of ten, so many times over. -/
def shrink (b : Binary) : Nat → Option Binary
  | 0 => some b
  | steps + 1 =>
    if b.isZero then some b
    else ((tenTo greatestPower).bind b.dividedBy).bind fun smaller => smaller.shrink steps

/-- A number times a power of ten. -/
def scale (b : Binary) (power : Int) : Option Binary :=
  if 0 ≤ power then
    if power ≤ greatestPower then (tenTo power.toNat).bind b.times
    else if b.isZero then some b
    else none
  else
    -- So many times the greatest power, and at last by what is left of the exponent.
    let steps := (power.natAbs - 1) / greatestPower
    (b.shrink steps).bind fun smaller =>
      (tenTo (power.natAbs - steps * greatestPower)).bind smaller.dividedBy

/-- The value of a numeral whose digits make `digits`, times a power of ten. -/
def ofDigits (digits : Nat) (power : Int) : Option Binary :=
  (ofRatio digits 1).bind fun b => b.scale power

end Binary

end Pushdown.Decimal
