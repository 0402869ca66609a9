import ModelProvision.Number.Shortest

/-!
# The nearest double

What a decimal is read as. The bits of the doubles with a plus sign count them in ascending order: zero
comes first, and infinity comes after the largest of them (`infinityBits`). All are multiples of the
smallest positive double, `2 ^ (-1074)`, so magnitudes are fractions of natural numbers in this unit.

A magnitude cut off after 53 binary digits is the double below it, and what was cut off tells whether
this one or the next is nearer. Of two that are equally near it is the one with even bits.
-/

namespace ModelProvision

namespace Binary64

/-- The bits of positive infinity. -/
def infinityBits : Nat := 2047 * Nat.pow 2 52

/-- The bits of the double nearest to `num / den` times the smallest positive one. -/
def nearestBits (num den : Nat) : Nat :=
  -- below `2 ^ 53` doubles are one unit apart, and then the distance doubles with each power of two
  let exponent := (num / den).log2 - 52
  let gap := den * Nat.pow 2 exponent
  let lower := exponent * Nat.pow 2 52 + num / gap
  let cutOff := num % gap
  let nearest := if 2 * cutOff < gap ∨ (2 * cutOff = gap ∧ lower % 2 = 0) then lower else lower + 1
  min nearest infinityBits

end Binary64

namespace Decimal

/-- The bits of the double with a plus sign that is nearest to a decimal. -/
def nearestBits (d : Decimal) : Nat :=
  -- powers of ten are computed only where the decimal is in reach of the doubles
  if d.digits = 0 ∨ d.digits.log2 + 1076 ≤ 3 * -d.scale then 0
  else if 342 ≤ d.scale then Binary64.infinityBits
  else
    Binary64.nearestBits (d.digits * Nat.pow 10 d.scale.toNat * Nat.pow 2 1074)
      (Nat.pow 10 (-d.scale).toNat)

/-- The double nearest to a decimal, or to its negative. -/
def nearest (negative : Bool) (d : Decimal) : Float :=
  Float.ofBits (UInt64.ofNat ((if negative then Nat.pow 2 63 else 0) + d.nearestBits))

end Decimal

end ModelProvision
