namespace ShardedLedger

-- A double-precision number: the significand times two to the exponent. The significand has
-- 53 bits, fewer only at the least exponent.
structure Binary64 where
  negative : Bool
  significand : Nat
  exponent : Int
  deriving DecidableEq

namespace Binary64

def leastExponent : Int := -1074

def greatestExponent : Int := 971

def zero (negative : Bool) : Binary64 := ⟨negative, 0, leastExponent⟩

-- Numerator and denominator of the fraction times two to the power.
def shiftRatio (num den : Nat) (power : Int) : Nat × Nat :=
  if 0 ≤ power then (num <<< power.toNat, den) else (num, den <<< (-power).toNat)

-- The quotient rounded to the nearest whole number, a tie to the even one.
def divideToEven (num den : Nat) : Nat :=
  let quotient := num / den
  let twice := 2 * (num % den)
  if twice < den ∨ (twice = den ∧ quotient % 2 = 0) then quotient else quotient + 1

-- The nearest double, a tie to the even significand; none beyond the greatest one.
def ofRatio (negative : Bool) (num den : Nat) : Option Binary64 :=
  if num = 0 then some (zero negative)
  else
    let guess : Int := (num.log2 : Int) - den.log2 - 52
    let (n, d) := shiftRatio num den (-guess)
    let exponent := max leastExponent (if n / d < 1 <<< 52 then guess - 1 else guess)
    let (n, d) := shiftRatio num den (-exponent)
    let significand := divideToEven n d
    let (significand, exponent) :=
      if significand = 1 <<< 53 then (1 <<< 52, exponent + 1) else (significand, exponent)
    if greatestExponent < exponent then none else some ⟨negative, significand, exponent⟩

def magnitude (x : Binary64) : Nat × Nat := shiftRatio x.significand 1 x.exponent

def times (x y : Binary64) : Option Binary64 :=
  let (a, b) := x.magnitude
  let (c, d) := y.magnitude
  ofRatio (x.negative != y.negative) (a * c) (b * d)

def dividedBy (x y : Binary64) : Option Binary64 :=
  let (a, b) := x.magnitude
  let (c, d) := y.magnitude
  ofRatio (x.negative != y.negative) (a * d) (b * c)

def tenTo (power : Nat) : Option Binary64 := ofRatio false (.pow 10 power) 1

-- One product or quotient with a power of ten, each operand rounded by itself. A power
-- below those that exist is divided off in steps until nothing is left.
def scaleByTens : Nat → Binary64 → Int → Option Binary64
  | 0, _, _ => none
  | steps + 1, x, power => do
      if power.natAbs ≤ 308 then
        let ten ← tenTo power.natAbs
        if 0 ≤ power then x.times ten else x.dividedBy ten
      else if x.significand = 0 then some x
      else if 0 ≤ power then none
      else scaleByTens steps (← x.dividedBy (← tenTo 308)) (power + 308)

def ofDecimal (negative : Bool) (digits : Nat) (power : Int) : Option Binary64 := do
  let x ← ofRatio false digits 1
  let x ← scaleByTens (power.natAbs / 308 + 1) x power
  return { x with negative }

end Binary64

end ShardedLedger
