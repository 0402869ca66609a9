/-!
# Double precision numbers, exactly

A finite double is `± significand · 2 ^ exponent` with natural significand and integer exponent.
`Binary64.ofFloat` reads this form off the bits of a `Float`, and everything that has to be exact
(printing with the fewest digits, comparing with a bucket bound) is computed from it.
-/

namespace ModelProvision

/-- A double by what it stands for. -/
inductive Binary64 where
  /-- The number `± significand · 2 ^ exponent`; a zero keeps its sign. -/
  | finite (negative : Bool) (significand : Nat) (exponent : Int)
  | infinite (negative : Bool)
  | notANumber
  deriving DecidableEq, Repr

namespace Binary64

/-- Read the sign bit, the eleven exponent bits and the 52 fraction bits of a double. A biased
exponent of zero marks a number without the implicit leading bit. -/
def ofFloat (x : Float) : Binary64 :=
  let bits := x.toBits.toNat
  let negative := bits / Nat.pow 2 63 == 1
  let biased : Nat := bits / Nat.pow 2 52 % Nat.pow 2 11
  let fraction := bits % Nat.pow 2 52
  if biased = 2047 then
    if fraction = 0 then .infinite negative else .notANumber
  else if biased = 0 then .finite negative fraction (-1074)
  else .finite negative (Nat.pow 2 52 + fraction) ((biased : Int) - 1075)

/-- The rational number a finite double stands for. -/
def toRat? : Binary64 → Option Rat
  | .finite negative significand exponent =>
    let magnitude : Rat :=
      if 0 ≤ exponent then (significand * Nat.pow 2 exponent.toNat : Nat)
      else mkRat significand (Nat.pow 2 (-exponent).toNat)
    some (if negative then -magnitude else magnitude)
  | _ => none

end Binary64

end ModelProvision
