import ShardedLedger.Number.Binary64

namespace ShardedLedger

-- The digits times ten to the exponent.
structure Decimal where
  digits : Nat
  exponent : Int
  deriving DecidableEq

namespace Binary64

def decimalLength (n : Nat) : Nat := (Nat.toDigits 10 n).length

-- The least power of ten above the fraction.
def powerAbove (num den : Nat) : Int :=
  if den ≤ num then decimalLength (num / den)
  else 1 - (decimalLength ((den - 1) / num) : Int)

def tensRatio (num den : Nat) (power : Int) : Nat × Nat :=
  if 0 ≤ power then (num * .pow 10 power.toNat, den) else (num, den * .pow 10 (-power).toNat)

-- The bounds of the numbers that round to `x`, with `x` itself between them, in quarters of
-- the last place. Just above a power of two the lower neighbour is only half as far away.
def quarters (x : Binary64) : Nat × Nat × Nat :=
  let low :=
    if x.significand = 1 <<< 52 ∧ leastExponent < x.exponent then 4 * x.significand - 1
    else 4 * x.significand - 2
  (low, 4 * x.significand, 4 * x.significand + 2)

-- The multiple of the power of ten that lies nearest among those that read back as `x`. Only
-- the two neighbours of `x` on that grid can be it. The bounds belong to an even significand.
def onGrid (x : Binary64) (power : Int) : Option Nat :=
  let (low, middle, high) := x.quarters
  let (unit, den) := shiftRatio 1 1 (x.exponent - 2)
  let (unit, den) := tensRatio unit den (-power)
  let within (n : Nat) : Bool :=
    if x.significand % 2 = 0 then low * unit ≤ n * den && n * den ≤ high * unit
    else low * unit < n * den && n * den < high * unit
  let below := middle * unit / den
  let fromBelow := middle * unit - below * den
  let fromAbove := (below + 1) * den - middle * unit
  let preferAbove := fromAbove < fromBelow || (fromAbove = fromBelow && below % 2 = 1)
  match within below, within (below + 1) with
  | true, true => some (if preferAbove then below + 1 else below)
  | true, false => some below
  | false, true => some (below + 1)
  | false, false => none

def firstGrid (x : Binary64) : Nat → Int → Decimal
  | 0, power => ⟨(x.onGrid power).getD 0, power⟩
  | finer + 1, power =>
      match x.onGrid power with
      | some digits => ⟨digits, power⟩
      | none => firstGrid x finer (power - 1)

-- The fewest digits that read back as `x`; seventeen always suffice.
def shortest (x : Binary64) : Decimal :=
  let (num, den) := x.magnitude
  if num = 0 then ⟨0, 0⟩ else x.firstGrid 17 (powerAbove num den - 1)

end Binary64

end ShardedLedger
