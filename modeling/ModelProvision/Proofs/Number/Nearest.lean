import Mathlib.Algebra.Order.Field.Power
import Mathlib.Tactic.Positivity
import ModelProvision.Proofs.Number.Bits

/-!
# The nearest double of a decimal

What it means that a double is the nearest one is said by what doubles stand for, as
`Binary64.ofFloat` reads it, and not by how it is found: among all doubles of its sign none is nearer,
and of two that are equally near it is the one with the even significand (`Nearest`).

**`nearest_iff`**: a decimal has exactly one nearest double, and `Decimal.nearest` is that one. Both
directions go through the count of magnitudes (`nearest_iff_rank`), where existence and uniqueness are
known.
-/

namespace ModelProvision

open Binary64

/-- The double has this sign and lies so far from zero. An infinity takes the place of the double that
would come after the largest one. -/
inductive Lies (x : Float) (negative : Bool) : ℚ → Prop where
  | finite {s : Nat} {e : Int} (hx : Binary64.ofFloat x = .finite negative s e) :
      Lies x negative (s * 2 ^ e)
  | infinite (hx : Binary64.ofFloat x = .infinite negative) : Lies x negative (2 ^ 1024)

/-- The last binary digit of the double is a zero. -/
def EndsEven (x : Float) : Prop :=
  match Binary64.ofFloat x with
  | .finite _ s _ => s % 2 = 0
  | _ => True

/-- The double has this sign, no other one of the sign is nearer to `r` away from zero, and if another
one is as near then this one ends in an even digit. -/
structure Nearest (negative : Bool) (r : ℚ) (x : Float) : Prop where
  signed : ∃ m, Lies x negative m
  closest : ∀ {m}, Lies x negative m → ∀ y m', Lies y negative m' → |m - r| ≤ |m' - r|
  even : ∀ {m}, Lies x negative m → ∀ y m', Lies y negative m' → |m' - r| = |m - r| →
    y = x ∨ EndsEven x

/-! ## In the count of magnitudes -/

namespace Binary64

/-- What a count stands for, by the exponent and the significand in its bits. -/
theorem units_div (n : Nat) :
    (units n : ℚ) / 2 ^ 1074 =
      (n - (n / 2 ^ 52 - 1) * 2 ^ 52 : Nat) * 2 ^ ((n / 2 ^ 52 - 1 : Nat) - 1074 : Int) := by
  rw [units, Nat.cast_mul, Nat.cast_pow, mul_div_assoc, zpow_sub₀ two_ne_zero, zpow_natCast]
  rfl

/-- A finite double by its sign and its rank. -/
theorem ofFloat_of_lt {x : Float} (h : rank x < infinityBits) :
    ofFloat x = .finite (sign x) (rank x - (rank x / 2 ^ 52 - 1) * 2 ^ 52)
      ((rank x / 2 ^ 52 - 1 : Nat) - 1074) := by
  have hbits := infinityBits_eq
  rw [ofFloat_eq, if_neg (by omega)]
  rcases Nat.eq_zero_or_pos (rank x / 2 ^ 52) with hzero | hpos
  · rw [if_pos hzero, hzero]
    congr 1
  · rw [if_neg (by omega)]
    congr 1 <;> omega

/-- The rank behind the finite ones is that of an infinity … -/
theorem ofFloat_of_eq {x : Float} (h : rank x = infinityBits) : ofFloat x = .infinite (sign x) := by
  have hbits := infinityBits_eq
  rw [ofFloat_eq, if_pos (by omega), if_pos (by omega)]

/-- … and beyond it there are no numbers. -/
theorem ofFloat_of_gt {x : Float} (h : infinityBits < rank x) : ofFloat x = .notANumber := by
  have hbits := infinityBits_eq
  have hrange : rank x < 2 ^ 63 := Nat.mod_lt _ (by decide)
  rw [ofFloat_eq, if_pos (by omega), if_neg (by omega)]

/-- Where a double lies is told by its sign and its rank. -/
theorem lies_iff {x : Float} {negative : Bool} {m : ℚ} :
    Lies x negative m ↔
      sign x = negative ∧ rank x ≤ infinityBits ∧ m = units (rank x) / 2 ^ 1074 := by
  rcases Nat.lt_trichotomy (rank x) infinityBits with hlt | heq | hgt
  · have hvalue := ofFloat_of_lt hlt
    rw [units_div]
    constructor
    · rintro (hx | hx)
      · obtain ⟨rfl, rfl, rfl⟩ := Binary64.finite.inj (hvalue.symm.trans hx)
        exact ⟨rfl, hlt.le, rfl⟩
      · exact absurd (hvalue.symm.trans hx) (by simp)
    · rintro ⟨rfl, -, rfl⟩
      exact .finite hvalue
  · have hvalue := ofFloat_of_eq heq
    have hunits : (units (rank x) : ℚ) / 2 ^ 1074 = 2 ^ 1024 := by
      rw [heq, units_infinityBits, Nat.cast_pow, Nat.cast_ofNat,
        div_eq_iff (by positivity), ← pow_add]
    rw [hunits]
    constructor
    · rintro (hx | hx)
      · exact absurd (hvalue.symm.trans hx) (by simp)
      · exact ⟨Binary64.infinite.inj (hvalue.symm.trans hx), heq.le, rfl⟩
    · rintro ⟨rfl, -, rfl⟩
      exact .infinite hvalue
  · have hvalue := ofFloat_of_gt hgt
    constructor
    · rintro (hx | hx) <;> exact absurd (hvalue.symm.trans hx) (by simp)
    · rintro ⟨-, hle, -⟩
      omega

/-- The last digit is the same in the significand and in the bits. -/
theorem endsEven_iff {x : Float} (h : rank x ≤ infinityBits) : EndsEven x ↔ rank x % 2 = 0 := by
  rcases Nat.lt_or_eq_of_le h with hlt | heq
  · rw [EndsEven, ofFloat_of_lt hlt]
    simp only
    omega
  · rw [EndsEven, ofFloat_of_eq heq]
    simp only [true_iff]
    rw [heq]
    decide

/-- Being nearest is a matter of the ranks. -/
theorem nearest_iff_rank {x : Float} {negative : Bool} {r : ℚ} :
    Nearest negative r x ↔ sign x = negative ∧ NearestRank (r * 2 ^ 1074) (rank x) := by
  have hpos : (0 : ℚ) < 2 ^ 1074 := by positivity
  -- distances in units of the smallest double
  have hscale : ∀ n : Nat, |(units n : ℚ) / 2 ^ 1074 - r| = |units n - r * 2 ^ 1074| / 2 ^ 1074 := by
    intro n
    rw [eq_div_iff hpos.ne', ← abs_of_pos hpos, ← abs_mul, abs_of_pos hpos, sub_mul,
      div_mul_cancel₀ _ hpos.ne']
  constructor
  · intro h
    obtain ⟨m, hm⟩ := h.signed
    obtain ⟨hsign, hrange, rfl⟩ := lies_iff.mp hm
    refine ⟨hsign, hrange, fun k hk => ?_, fun k hk hsame => ?_⟩
    · obtain ⟨y, hy, rfl⟩ := exists_rank negative hk
      have hle := h.closest hm y _ (lies_iff.mpr ⟨hy, hk, rfl⟩)
      rwa [hscale, hscale, div_le_div_iff_of_pos_right hpos] at hle
    · obtain ⟨y, hy, rfl⟩ := exists_rank negative hk
      refine (h.even hm y _ (lies_iff.mpr ⟨hy, hk, rfl⟩) ?_).imp (congrArg rank)
        (endsEven_iff hrange).mp
      rw [hscale, hscale, hsame]
  · rintro ⟨rfl, h⟩
    refine ⟨⟨_, lies_iff.mpr ⟨rfl, h.inRange, rfl⟩⟩, fun hm y m' hm' => ?_, fun hm y m' hm' hsame => ?_⟩
    · obtain ⟨-, -, rfl⟩ := lies_iff.mp hm
      obtain ⟨-, hk, rfl⟩ := lies_iff.mp hm'
      rw [hscale, hscale, div_le_div_iff_of_pos_right hpos]
      exact h.closest _ hk
    · obtain ⟨-, -, rfl⟩ := lies_iff.mp hm
      obtain ⟨hsign, hk, rfl⟩ := lies_iff.mp hm'
      rw [hscale, hscale, div_left_inj' hpos.ne'] at hsame
      exact (h.even _ hk hsame).imp (eq_of_rank hsign) (endsEven_iff h.inRange).mpr

end Binary64

/-- A number that is a double is nearest to itself. -/
theorem Lies.nearest {x : Float} {negative : Bool} {r : ℚ} (h : Lies x negative r) :
    Nearest negative r x := by
  obtain ⟨hsign, hrange, rfl⟩ := lies_iff.mp h
  refine ⟨⟨_, h⟩, fun hm y m' _ => ?_, fun hm y m' hy hsame => .inl ?_⟩
  · obtain ⟨-, -, rfl⟩ := lies_iff.mp hm
    rw [sub_self, abs_zero]
    exact abs_nonneg _
  · -- a double at distance zero has the same rank
    obtain ⟨-, -, rfl⟩ := lies_iff.mp hm
    obtain ⟨hsign', -, rfl⟩ := lies_iff.mp hy
    rw [sub_self, abs_zero, abs_eq_zero, sub_eq_zero, div_left_inj' (by positivity),
      Nat.cast_inj] at hsame
    exact eq_of_rank (hsign'.trans hsign.symm) (strictMono_units.injective hsame)

/-! ## Decimals -/

namespace Decimal

/-- The number a decimal stands for. -/
def value (d : Decimal) : ℚ := d.digits * 10 ^ d.scale

/-- The power of ten as a fraction of natural numbers. -/
theorem zpow_ten (z : Int) : (10 : ℚ) ^ z = 10 ^ z.toNat / 10 ^ (-z).toNat := by
  conv_lhs => rw [← Int.toNat_sub_toNat_neg z]
  rw [zpow_sub₀ (by norm_num), zpow_natCast, zpow_natCast]

/-- Eight is a power of two that is less than ten. -/
theorem two_pow_le_ten_pow (k : Nat) : 2 ^ (3 * k) ≤ 10 ^ k :=
  calc 2 ^ (3 * k) = 8 ^ k := Nat.pow_mul ..
    _ ≤ 10 ^ k := Nat.pow_le_pow_left (by decide) k

/-- A decimal this small is less than half of the smallest double … -/
theorem value_lt_half {d : Decimal} (h : d.digits = 0 ∨ d.digits.log2 + 1076 ≤ 3 * -d.scale) :
    d.value * 2 ^ 1074 < 1 / 2 := by
  rcases h with hdigits | hscale
  · rw [value, hdigits, Nat.cast_zero, zero_mul, zero_mul]
    norm_num
  · obtain ⟨k, hk⟩ : ∃ k : Nat, d.scale = -k := ⟨(-d.scale).toNat, by omega⟩
    have hlog : d.digits.log2 + 1076 ≤ 3 * k := by omega
    have hdigits : d.digits * 2 ^ 1075 < 10 ^ k := by
      calc d.digits * 2 ^ 1075 < 2 ^ (d.digits.log2 + 1) * 2 ^ 1075 :=
            Nat.mul_lt_mul_of_pos_right Nat.lt_log2_self (Nat.two_pow_pos _)
        _ = 2 ^ (d.digits.log2 + 1076) := by rw [← Nat.pow_add]
        _ ≤ 2 ^ (3 * k) := Nat.pow_le_pow_right (by decide) hlog
        _ ≤ 10 ^ k := two_pow_le_ten_pow k
    have hdigitsQ : (d.digits : ℚ) * 2 ^ 1075 < 10 ^ k := by exact_mod_cast hdigits
    -- the half brings in one more factor of two
    have hdouble : (2 : ℚ) ^ 1075 = 2 ^ 1074 * 2 := pow_succ ..
    rw [value, hk, zpow_neg, zpow_natCast, ← div_eq_mul_inv, div_mul_eq_mul_div,
      div_lt_div_iff₀ (by positivity) two_pos, one_mul, mul_assoc, ← hdouble]
    exact hdigitsQ

/-- … so it is nearest to zero. -/
theorem nearestRank_of_small {d : Decimal}
    (h : d.digits = 0 ∨ d.digits.log2 + 1076 ≤ 3 * -d.scale) :
    NearestRank (d.value * 2 ^ 1074) 0 := by
  have hzero : (units 0 : ℚ) = 0 := by norm_num [units]
  have hone : (units 1 : ℚ) = 1 := by norm_num [units]
  have hnonneg : 0 ≤ d.value * 2 ^ 1074 := by
    rw [value]
    positivity
  have hhalf := value_lt_half h
  generalize d.value * 2 ^ 1074 = a at hnonneg hhalf ⊢
  refine nearestRank_lower ?_ ?_ (Nat.zero_le _) (.inl ?_)
  · rw [hzero]
    exact hnonneg
  · rw [hone]
    linarith
  · rw [hzero, hone]
    linarith

/-- A decimal this large is beyond the doubles. -/
theorem nearestRank_of_large {d : Decimal} (hdigits : d.digits ≠ 0) (h : 342 ≤ d.scale) :
    NearestRank (d.value * 2 ^ 1074) infinityBits := by
  obtain ⟨k, hk⟩ : ∃ k : Nat, d.scale = k := ⟨d.scale.toNat, by omega⟩
  have hscale : 1024 ≤ 3 * k := by omega
  have hdecimal : 2 ^ 1024 ≤ d.digits * 10 ^ k := by
    calc 2 ^ 1024 ≤ 2 ^ (3 * k) := Nat.pow_le_pow_right (by decide) hscale
      _ ≤ 10 ^ k := two_pow_le_ten_pow k
      _ ≤ d.digits * 10 ^ k := Nat.le_mul_of_pos_left _ (Nat.pos_of_ne_zero hdigits)
  have hdecimalQ : (2 : ℚ) ^ 1024 ≤ d.digits * 10 ^ k := by exact_mod_cast hdecimal
  refine nearestRank_infinityBits ?_
  have hsplit : (2 : ℚ) ^ 2098 = 2 ^ 1024 * 2 ^ 1074 := by rw [← pow_add]
  rw [units_infinityBits, Nat.cast_pow, Nat.cast_ofNat, value, hk, zpow_natCast, hsplit]
  exact mul_le_mul_of_nonneg_right hdecimalQ (by positivity)

/-- The bits that are computed are those of the nearest double. -/
theorem nearestRank_nearestBits (d : Decimal) :
    NearestRank (d.value * 2 ^ 1074) d.nearestBits := by
  rw [nearestBits]
  split
  · next hsmall => exact nearestRank_of_small hsmall
  · next hsmall =>
    split
    · next hlarge => exact nearestRank_of_large (fun h => hsmall (.inl h)) hlarge
    · have hvalue : d.value * 2 ^ 1074 =
          ((d.digits * 10 ^ d.scale.toNat * 2 ^ 1074 : Nat) : ℚ) / (10 ^ (-d.scale).toNat : Nat) := by
        rw [value, zpow_ten, ← mul_div_assoc, div_mul_eq_mul_div, Nat.cast_mul, Nat.cast_mul,
          Nat.cast_pow, Nat.cast_pow, Nat.cast_pow, Nat.cast_ofNat, Nat.cast_ofNat]
      rw [hvalue]
      exact Binary64.nearestRank_nearestBits _ (Nat.pow_pos (by decide))

/-- The nearest double is made of the sign and the bits that were found. -/
theorem nearest_eq (negative : Bool) (d : Decimal) :
    d.nearest negative =
      Float.ofBits (UInt64.ofNat ((if negative then 2 ^ 63 else 0) + d.nearestBits)) := rfl

/-- **A decimal has one nearest double of each sign, the one that is computed.** -/
theorem nearest_iff {negative : Bool} {d : Decimal} {x : Float} :
    Nearest negative d.value x ↔ x = d.nearest negative := by
  have hcomputed := d.nearestRank_nearestBits
  obtain ⟨hsign, hrank⟩ := sign_rank_ofBits negative hcomputed.inRange
  rw [nearest_iff_rank, nearest_eq]
  constructor
  · rintro ⟨hx, h⟩
    exact eq_of_rank (hx.trans hsign.symm) ((h.unique hcomputed).trans hrank.symm)
  · rintro rfl
    refine ⟨hsign, ?_⟩
    rw [hrank]
    exact hcomputed

end Decimal

end ModelProvision
