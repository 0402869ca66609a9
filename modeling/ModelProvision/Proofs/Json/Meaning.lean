import Mathlib.Tactic.FieldSimp
import ModelProvision.Proofs.Json.Characters

/-!
# What numerals and names denote

The reader computes what the grammar describes. Digits are folded from the left, where the grammar
adds up powers of ten (`Amounts.eq_digitsValue`, `amounts_digitsValue`), and a number with a point is
read as one decimal with all its digits, whose nearest double is the one that the grammar asks for
(`Decimal.nearest_iff`). So a numeral denotes one value, the one it is read as (`meaning`,
**`denotes_iff`**), and the names are those of the reader's table (**`literal_iff`**).
-/

namespace ModelProvision.Json.Grammar

/-! ## Digits -/

/-- Folding on from `n` shifts it by as many places as there are digits. -/
theorem foldl_digits (ds : Text) (n : Nat) :
    ds.foldl (fun n p => 10 * n + (p.toNat - '0'.toNat)) n = n * 10 ^ ds.length + digitsValue ds := by
  -- for every start, since the fold passes on what it has so far
  induction ds generalizing n with
  | nil => simp [digitsValue]
  | cons p ds ih =>
    have hvalue : digitsValue (p :: ds) =
        (p.toNat - '0'.toNat) * 10 ^ ds.length + digitsValue ds := by
      rw [digitsValue, List.foldl_cons, ih]
      simp
    rw [List.foldl_cons, ih, hvalue, List.length_cons]
    ring

/-- Digits that follow shift those before by their number … -/
theorem digitsValue_append (ds ds' : Text) :
    digitsValue (ds ++ ds') = digitsValue ds * 10 ^ ds'.length + digitsValue ds' := by
  rw [digitsValue, List.foldl_append, foldl_digits]
  rfl

/-- … so the first digit counts as many tens as digits follow. -/
theorem digitsValue_cons {p : CodePoint} {d : Nat} (hp : Digit p d) (ds : Text) :
    digitsValue (p :: ds) = d * 10 ^ ds.length + digitsValue ds := by
  have hd : p.toNat - '0'.toNat = d := by
    have hnumber := (digit_iff.mp hp).2
    have hzero : '0'.toNat = 0x30 := rfl
    omega
  rw [digitsValue, List.foldl_cons, foldl_digits, Nat.mul_zero, Nat.zero_add, hd]

/-- Digits amount to nothing but what they are folded to … -/
theorem Amounts.eq_digitsValue {ds : Text} {n : Nat} (h : Amounts ds n) : n = digitsValue ds := by
  induction h with
  | none => rfl
  | digit hp _ ih => rw [digitsValue_cons hp, ih]

/-- … and digits of the alphabet do amount to it. -/
theorem amounts_digitsValue {ds : Text} (h : ∀ p ∈ ds, IsDigit p) : Amounts ds (digitsValue ds) := by
  induction ds with
  | nil => exact .none
  | cons p ds ih =>
    obtain ⟨d, hp⟩ := h p List.mem_cons_self
    rw [digitsValue_cons hp]
    exact .digit hp (ih fun q hq => h q (List.mem_cons_of_mem p hq))

/-! ## Numerals -/

/-- The power of ten that an exponent is read as. -/
def power : Option (Bool × Text) → Int
  | none => 0
  | some (true, digits) => -(digitsValue digits : Int)
  | some (false, digits) => digitsValue digits

/-- What a numeral is read as, where it is converted. -/
def meaning (n : Numeral) : Json :=
  match n.fraction, n.exponent with
  | [], none =>
    .int (if n.negative then -(digitsValue n.whole : Int) else digitsValue n.whole)
  | fraction, exponent =>
    .float (Decimal.nearest n.negative
      ⟨digitsValue (n.whole ++ fraction), power exponent - fraction.length⟩)

/-- With a fraction or an exponent a numeral is read as a double. -/
theorem meaning_of_point {n : Numeral} (h : n.fraction ≠ [] ∨ n.exponent ≠ none) :
    meaning n = .float (Decimal.nearest n.negative
      ⟨digitsValue (n.whole ++ n.fraction), power n.exponent - n.fraction.length⟩) := by
  rw [meaning]
  split
  · next hfraction hexponent => exact absurd h (by simp [hfraction, hexponent])
  · rfl

/-- The digits of a numeral are digits. -/
structure Wellformed (n : Numeral) : Prop where
  whole : ∀ p ∈ n.whole, IsDigit p
  fraction : ∀ p ∈ n.fraction, IsDigit p
  exponent : ∀ negative ds, n.exponent = some (negative, ds) → ∀ p ∈ ds, IsDigit p

theorem Number.wellformed {t rest : Text} {n : Numeral} (h : Number t n rest) : Wellformed n := by
  cases h with
  | @mk _ whole fraction exponent _ _ _ _ _ _ hwhole hfraction hexponent =>
    constructor
    · cases hwhole with
      | zero =>
        intro p hp
        rw [List.mem_singleton.mp hp]
        exact ⟨0, rfl⟩
      | digits _ hdigits => exact hdigits.2.2
    · cases hfraction with
      | present hdigits => exact hdigits.2.2
      | absent => exact fun p hp => absurd hp List.not_mem_nil
    · intro negative ds hsome
      cases hexponent with
      | present _ _ hdigits =>
        obtain ⟨-, rfl⟩ := Prod.mk.inj (Option.some.inj hsome)
        exact hdigits.2.2
      | absent => exact absurd hsome (by simp)

/-- An exponent stands for the power that it is read as … -/
theorem Power.eq_power {exponent : Option (Bool × Text)} {e : Int} (h : Power exponent e) :
    e = power exponent := by
  cases h with
  | absent => rfl
  | plus hds | minus hds => rw [power, hds.eq_digitsValue]

/-- … if its digits are digits. -/
theorem Wellformed.power_exponent {n : Numeral} (h : Wellformed n) : Power n.exponent (power n.exponent) := by
  cases hexponent : n.exponent with
  | none => exact .absent
  | some e =>
    obtain ⟨negative, ds⟩ := e
    have hds := amounts_digitsValue (h.exponent negative ds hexponent)
    cases negative with
    | false => exact .plus hds
    | true => exact .minus hds

/-- All digits of a numeral together are a decimal that stands for the same number. -/
theorem value_digits (n : Numeral) (e : Int) :
    ((digitsValue n.whole : ℚ) + digitsValue n.fraction / 10 ^ n.fraction.length) * 10 ^ e =
      Decimal.value ⟨digitsValue (n.whole ++ n.fraction), e - n.fraction.length⟩ := by
  -- the whole part is shifted by the places of the fraction, and the power takes them back
  have hpos : (10 : ℚ) ^ n.fraction.length ≠ 0 := by positivity
  rw [Decimal.value, digitsValue_append, zpow_sub₀ (by norm_num), zpow_natCast]
  push_cast
  field_simp

/-- **A numeral denotes what it is read as**, and nothing else. -/
theorem denotes_iff {t rest : Text} {n : Numeral} (h : Number t n rest) {v : Json} :
    Denotes n v ↔ v = meaning n := by
  have hdigits := h.wellformed
  constructor
  · intro hv
    cases hv with
    | integer hwhole => rw [meaning, hwhole.eq_digitsValue]
    | double hpoint hwhole hfraction he hx =>
      rw [hwhole.eq_digitsValue, hfraction.eq_digitsValue, he.eq_power, value_digits,
        Decimal.nearest_iff] at hx
      rw [meaning_of_point hpoint, hx]
  -- a point decides whether it is a double or an integer
  · rintro rfl
    by_cases hpoint : n.fraction ≠ [] ∨ n.exponent ≠ none
    · rw [meaning_of_point hpoint]
      refine .double hpoint (amounts_digitsValue hdigits.whole) (amounts_digitsValue hdigits.fraction)
        hdigits.power_exponent ?_
      rw [value_digits, Decimal.nearest_iff]
    · obtain ⟨negative, whole, fraction, exponent⟩ := n
      obtain ⟨rfl, rfl⟩ : fraction = [] ∧ exponent = none := by simpa using hpoint
      exact .integer (amounts_digitsValue hdigits.whole)

/-! ## Names -/

/-- **The names are those of the reader's table.** There is one double that is no number and one of
each infinity, so the table has to give these. -/
theorem literal_iff {name : Text} {v : Json} : Literal name v ↔ (name, v) ∈ literals := by
  have hnotANumber : Binary64.ofFloat (0.0 / 0.0) = .notANumber := by decide +kernel
  have hinfinity : Binary64.ofFloat (1.0 / 0.0) = .infinite false := by decide +kernel
  have hnegative : Binary64.ofFloat (-1.0 / 0.0) = .infinite true := by decide +kernel
  have hunique : ∀ {x y : Float} {negative : Bool}, Binary64.ofFloat x = .infinite negative →
      Binary64.ofFloat y = .infinite negative → x = y := by
    intro x y negative hx hy
    obtain ⟨hsign, hrank⟩ := Binary64.rank_of_infinite hx
    obtain ⟨hsign', hrank'⟩ := Binary64.rank_of_infinite hy
    exact Binary64.eq_of_rank (hsign.trans hsign'.symm) (hrank.trans hrank'.symm)
  constructor
  · intro h
    cases h with
    | null | true | false => simp [literals]
    | notANumber hx => simp [literals, Binary64.eq_of_notANumber hx hnotANumber]
    | infinity hx => simp [literals, hunique hx hinfinity]
    | negativeInfinity hx => simp [literals, hunique hx hnegative]
  · intro h
    simp only [literals, List.mem_cons, Prod.mk.injEq, List.not_mem_nil, or_false] at h
    rcases h with ⟨rfl, rfl⟩ | ⟨rfl, rfl⟩ | ⟨rfl, rfl⟩ | ⟨rfl, rfl⟩ | ⟨rfl, rfl⟩ | ⟨rfl, rfl⟩
    · exact .null
    · exact .true
    · exact .false
    · exact .notANumber hnotANumber
    · exact .infinity hinfinity
    · exact .negativeInfinity hnegative

end ModelProvision.Json.Grammar
