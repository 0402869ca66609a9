import ModelProvision.Number.Binary64

/-!
# The fewest digits that read back

A positive double is the nearest double to every real number of a small interval around it. The
shortest decimal of the double is the one with the fewest digits in that interval, and among those
the nearest to the double.

Decimals of at most `k` digits near a number `v` lie on a grid of width `10 ^ p`; if a point of that
grid lies in the interval, so does one of the two points next to `v`. So `shortest` tries the grids
for one digit, two digits and so on, looking only at those two points. Seventeen digits always
suffice for a double. All comparisons are between natural numbers, cross-multiplied.
-/

namespace ModelProvision

/-- The decimal `digits · 10 ^ scale`. -/
structure Decimal where
  digits : Nat
  scale : Int
  deriving DecidableEq, Repr

namespace Decimal

/-- How many decimal digits a natural number has; zero has one. -/
def digitCount (n : Nat) : Nat := (Nat.toDigits 10 n).length

/-- Move trailing zeros of the digits into the scale; `fuel` bounds how many. -/
def dropZeros : (fuel : Nat) → Decimal → Decimal
  | 0, d => d
  | fuel + 1, d =>
    if d.digits ≠ 0 ∧ d.digits % 10 = 0 then dropZeros fuel ⟨d.digits / 10, d.scale + 1⟩ else d

/-- The same number with no trailing zero among its digits. -/
def trimmed (d : Decimal) : Decimal := dropZeros (digitCount d.digits) d

/-- The place of the decimal point, counted in digits from the first one: `1` for `7.25`. -/
def point (d : Decimal) : Int := digitCount d.digits + d.scale

end Decimal

namespace Binary64

/-- The positive number `significand · 2 ^ exponent` as a fraction of natural numbers. -/
def fraction (significand : Nat) (exponent : Int) : Nat × Nat :=
  (significand * Nat.pow 2 exponent.toNat, Nat.pow 2 (-exponent).toNat)

/-- The whole number `d` with `10 ^ (d - 1) ≤ v < 10 ^ d` for a positive double `v`. Every such `v`
exceeds `10 ^ (-324)`, so scaling by `10 ^ 400` leaves a whole part with the digits to count. -/
def decimalMagnitude (significand : Nat) (exponent : Int) : Int :=
  let (num, den) := fraction significand exponent
  Decimal.digitCount (num * Nat.pow 10 400 / den) - 400

/-- Order of `d` against the number `quarters · 2 ^ (exponent - 2)`. -/
def compareQuarters (d : Decimal) (quarters : Nat) (exponent : Int) : Ordering :=
  let (num, den) := fraction quarters (exponent - 2)
  compare (d.digits * Nat.pow 10 d.scale.toNat * den) (num * Nat.pow 10 (-d.scale).toNat)

/-- Whether `d` is rounded to the double `significand · 2 ^ exponent`. The interval reaches half way
to either neighbour; the lower neighbour of a power of two is only half as far away. Ties go to the
even significand, so the ends belong to the interval of an even one. -/
def readsBack (significand : Nat) (exponent : Int) (d : Decimal) : Bool :=
  -- distances in quarters of the last place
  let below := if significand = Nat.pow 2 52 ∧ exponent ≠ -1074 then 1 else 2
  let low := compareQuarters d (4 * significand - below) exponent
  let high := compareQuarters d (4 * significand + 2) exponent
  if significand % 2 = 0 then low != .lt && high != .gt else low == .gt && high == .lt

/-- The point of the grid for `count` digits that reads back, the nearer one if both neighbours of
the double do, the even one if they are equally near. -/
def onGrid? (significand : Nat) (exponent : Int) (magnitude : Int) (count : Nat) :
    Option Decimal :=
  let scale := magnitude - count
  let (num, den) := fraction significand exponent
  -- the double lies on the grid point `lower` or between `lower` and `upper`
  let floor := num * Nat.pow 10 (-scale).toNat / (den * Nat.pow 10 scale.toNat)
  let lower : Decimal := ⟨floor, scale⟩
  let upper : Decimal := ⟨floor + 1, scale⟩
  match readsBack significand exponent lower, readsBack significand exponent upper with
  | true, false => some lower
  | false, true => some upper
  | false, false => none
  | true, true =>
    -- which one is nearer shows by where their midpoint lies
    match compareQuarters ⟨2 * floor + 1, scale⟩ (8 * significand) exponent with
    | .gt => some lower
    | .lt => some upper
    | .eq => some (if floor % 2 = 0 then lower else upper)

/-- The shortest decimal of a positive double. -/
def shortest (significand : Nat) (exponent : Int) : Decimal :=
  let magnitude := decimalMagnitude significand exponent
  let found := (List.range 17).findSome? fun k =>
    onGrid? significand exponent magnitude (k + 1)
  (found.getD ⟨significand, 0⟩).trimmed

end Binary64

end ModelProvision
