import ModelProvision.Number.Shortest

/-!
# Writing numbers

Which decimals are written with the point in place and which with an exponent is a choice of the
format, not of the number: a `NumberLayout` records it, and `NumberLayout.write` follows it.
-/

namespace ModelProvision

/-- The choices of a number format. -/
structure NumberLayout where
  /-- Decimals whose first digit stands for at least this power of ten … -/
  positionalFrom : Int
  /-- … and for less than this one are written with the point in place. -/
  positionalBelow : Int
  /-- An exponent has at least this many digits. -/
  exponentDigits : Nat
  infinity : String
  negativeInfinity : String
  notANumber : String

/-- Numbers in documents, log records and messages: positional from `0.0001` to below `10 ^ 16`. -/
def NumberLayout.document : NumberLayout where
  positionalFrom := -4
  positionalBelow := 16
  exponentDigits := 2
  infinity := "inf"
  negativeInfinity := "-inf"
  notANumber := "nan"

/-- The decimal digits of a natural number. -/
def natDigits (n : Nat) : List Char := Nat.toDigits 10 n

/-- A digit string that ends with a fraction: a whole number gets the fraction `0`. -/
def withPoint (digits : List Char) (point : Nat) : List Char :=
  let padded := digits ++ List.replicate (point - digits.length) '0'
  let (whole, rest) := padded.splitAt point
  whole ++ '.' :: (if rest.isEmpty then ['0'] else rest)

namespace NumberLayout

/-- The exponent `e`, with a sign always written. -/
def exponentText (layout : NumberLayout) (e : Int) : List Char :=
  let digits := natDigits e.natAbs
  'e' :: (if e < 0 then '-' else '+') ::
    (List.replicate (layout.exponentDigits - digits.length) '0' ++ digits)

/-- A decimal whose first digit stands for `10 ^ (point - 1)`. -/
def writeDecimal (layout : NumberLayout) (d : Decimal) : List Char :=
  let digits := natDigits d.digits
  let leading := d.point - 1
  if layout.positionalFrom ≤ leading ∧ leading < layout.positionalBelow then
    if 0 < d.point then withPoint digits d.point.toNat
    else '0' :: '.' :: (List.replicate (-d.point).toNat '0' ++ digits)
  else
    match digits with
    | [] => []
    | [single] => single :: layout.exponentText leading
    | first :: rest => first :: '.' :: (rest ++ layout.exponentText leading)

/-- A double in the fewest digits that read back. -/
def write (layout : NumberLayout) (x : Float) : String :=
  match Binary64.ofFloat x with
  | .notANumber => layout.notANumber
  | .infinite negative => if negative then layout.negativeInfinity else layout.infinity
  | .finite negative significand exponent =>
    let magnitude :=
      if significand = 0 then "0.0".toList
      else layout.writeDecimal (Binary64.shortest significand exponent)
    String.ofList (if negative then '-' :: magnitude else magnitude)

end NumberLayout

end ModelProvision
