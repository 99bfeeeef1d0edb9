import Pushdown.Decimal.Binary

/-!
# The shortest decimal that reads back

A binary fraction is written with the fewest decimal digits that still determine it: every
number in its interval rounds to it, and the ends of the interval belong to it if its
significand is even. For one digit, two digits and so on, the two neighbours of the value on
that decimal grid are tried; the first grid that has one in the interval wins, and of two
the nearer, or the even one if the value is halfway between. Seventeen digits always do.

How the digits are then set out is the choice of a `Notation10`.
-/

namespace Pushdown.Decimal

/-- The number `digits · 10 ^ power`. -/
structure Scientific where
  digits : Nat
  power : Int
deriving DecidableEq

namespace Scientific

/-- A decimal as a ratio. -/
def ratio (s : Scientific) : Nat × Nat :=
  if 0 ≤ s.power then (s.digits * Nat.pow 10 s.power.toNat, 1)
  else (s.digits, Nat.pow 10 (-s.power).toNat)

/-- How many digits a number has. -/
def digitCount (n : Nat) : Nat := (Nat.toDigits 10 n).length

/-- The exponent of the greatest power of ten that is at most `num / den`, for a positive ratio. -/
def magnitude (num den : Nat) : Int :=
  if den ≤ num then (digitCount (num / den) : Int) - 1
  else
    let least := digitCount (den / num) - 1
    if den ≤ num * Nat.pow 10 least then -(least : Int) else -(least + 1 : Int)

end Scientific

namespace Binary

/-- The interval of numbers that round to a number: its ends, in quarters of a unit of the
last place. -/
def interval (b : Binary) : Nat × Nat :=
  let below := if b.significand = Binary.leastFull && leastExponent < b.exponent then 1 else 2
  (4 * b.significand - below, 4 * b.significand + 2)

/-- Whether a decimal lies in the interval of numbers that round to a number. -/
def claims (b : Binary) (s : Scientific) : Bool :=
  let unit : Binary := ⟨1, b.exponent - 2⟩
  let (low, high) := b.interval
  let value := s.ratio.1 * unit.ratio.2
  let one := s.ratio.2 * unit.ratio.1
  if b.significand % 2 = 0 then low * one ≤ value && value ≤ high * one
  else low * one < value && value < high * one

/-- The decimal with `count` digits that reads back as a number. If there are two it is the
nearer one, and the even one if they are equally near. -/
def shortestOf? (b : Binary) (count : Nat) : Option Scientific :=
  let (num, den) := b.ratio
  let power := Scientific.magnitude num den - ((count : Int) - 1)
  let (n, d) :=
    if 0 ≤ power then (num, den * Nat.pow 10 power.toNat)
    else (num * Nat.pow 10 (-power).toNat, den)
  -- The two neighbours on the grid; the upper one may be a power of ten, with one digit more.
  let lower : Scientific := ⟨n / d, power⟩
  let upper : Scientific :=
    if n / d + 1 = Nat.pow 10 count then ⟨Nat.pow 10 (count - 1), power + 1⟩
    else ⟨n / d + 1, power⟩
  match b.claims lower, b.claims upper with
  | true, true =>
    let twice := 2 * (n % d)
    some (if twice < d || (twice == d && n / d % 2 == 0) then lower else upper)
  | true, false => some lower
  | false, true => some upper
  | false, false => none

/-- The shortest decimal that reads back as a positive number. -/
def shortest (b : Binary) : Scientific :=
  ((List.range 17).findSome? fun count => b.shortestOf? (count + 1)).getD ⟨0, 0⟩

end Binary

/-- How the digits of a decimal are set out. -/
structure Notation10 where
  /-- The least exponent, in scientific notation, of a decimal that is written positionally. -/
  leastPositional : Int
  /-- The greatest such exponent. -/
  greatestPositional : Int

namespace Notation10

/-- Sets out a decimal. A whole number that is written positionally gets a fraction of zero. -/
def write (f : Notation10) (s : Scientific) : String :=
  let digits := Nat.toDigits 10 s.digits
  let exponent : Int := s.power + digits.length - 1
  let zeros (n : Int) : List Char := List.replicate n.toNat '0'
  String.ofList <|
    if f.leastPositional ≤ exponent && exponent ≤ f.greatestPositional then
      if exponent < 0 then '0' :: '.' :: zeros (-exponent - 1) ++ digits
      else if s.power ≥ 0 then digits ++ zeros s.power ++ ['.', '0']
      else digits.take (exponent.toNat + 1) ++ '.' :: digits.drop (exponent.toNat + 1)
    else
      let fraction := if digits.length = 1 then [] else '.' :: digits.drop 1
      digits.take 1 ++ fraction ++ ['e', if exponent < 0 then '-' else '+'] ++
        Nat.toDigits 10 exponent.natAbs

/-- Writes a binary fraction by its shortest decimal. -/
def writeBinary (f : Notation10) (b : Binary) : String :=
  if b.isZero then "0.0" else f.write b.shortest

end Notation10

end Pushdown.Decimal
