import Mathlib.Algebra.Order.Field.Rat
import Mathlib.Order.Monotone.Basic
import Mathlib.Tactic.Linarith
import Mathlib.Tactic.NormNum
import Mathlib.Tactic.Ring
import ModelProvision.Number.Nearest

/-!
# Doubles in ascending order

The bits of the doubles with a plus sign count them from zero up to infinity. The magnitude that
belongs to a number of this count, in units of the smallest positive double, is `units`. Nothing below
knows of signs, of `Float` or of decimals:

* **`strictMono_units`**: magnitudes ascend with the bits, so two neighbours enclose every number
  between zero and infinity.
* **`NearestRank`** says which double is nearest to a rational number, with the rule for two that are
  equally near. There is one at most (`NearestRank.unique`), since only neighbours can be equally near
  and one of two neighbours is odd.
* **`nearestRank_nearestBits`**: `nearestBits` finds it.
-/

namespace ModelProvision.Binary64

/-! ## Magnitudes

Bits are an exponent and 52 digits of a significand whose leading digit is implied, except for the
lowest exponent. Written as `e * 2 ^ 52 + s` they stand for `s * 2 ^ e` with that leading digit in
place, also where `s` has just overflowed into the next exponent. -/

/-- The magnitude of the double with bits `n`, in units of the smallest positive one. -/
def units (n : Nat) : Nat := (n - (n / 2 ^ 52 - 1) * 2 ^ 52) * 2 ^ (n / 2 ^ 52 - 1)

/-- The magnitude by exponent and significand. -/
theorem units_add {e s : Nat} (hs : s ≤ 2 ^ 53) (hnormal : e = 0 ∨ 2 ^ 52 ≤ s) :
    units (e * 2 ^ 52 + s) = s * 2 ^ e := by
  rcases Nat.lt_or_eq_of_le hs with hlt | rfl
  · have hexponent : (e * 2 ^ 52 + s) / 2 ^ 52 - 1 = e := by omega
    rw [units, hexponent, Nat.add_sub_cancel_left]
  · -- the significand is a power of two, and the exponent is the next one
    have hexponent : (e * 2 ^ 52 + 2 ^ 53) / 2 ^ 52 - 1 = e + 1 := by omega
    have hrest : e * 2 ^ 52 + 2 ^ 53 - (e + 1) * 2 ^ 52 = 2 ^ 52 := by omega
    rw [units, hexponent, hrest, Nat.pow_succ]
    omega

/-- Every count has an exponent and a significand whose leading digit is in place. -/
theorem exists_exponent (n : Nat) :
    ∃ e s, n = e * 2 ^ 52 + s ∧ s < 2 ^ 53 ∧ (e = 0 ∨ 2 ^ 52 ≤ s) :=
  ⟨n / 2 ^ 52 - 1, n - (n / 2 ^ 52 - 1) * 2 ^ 52, by omega, by omega, by omega⟩

/-- Of two neighbours the significand of the second is one more. -/
theorem strictMono_units : StrictMono units := by
  refine strictMono_nat_of_lt_succ fun n => ?_
  obtain ⟨e, s, rfl, hs, hnormal⟩ := exists_exponent n
  rw [Nat.add_assoc, units_add hs.le hnormal, units_add hs (hnormal.imp_right Nat.le_succ_of_le)]
  exact Nat.mul_lt_mul_of_pos_right (Nat.lt_succ_self s) (Nat.two_pow_pos e)

theorem infinityBits_eq : infinityBits = 2047 * 2 ^ 52 := rfl

/-- Infinity stands where the double after the largest one would. -/
theorem units_infinityBits : units infinityBits = 2 ^ 2098 := by
  have hcut : infinityBits = 2046 * 2 ^ 52 + 2 ^ 52 := infinityBits_eq.trans (by norm_num)
  rw [hcut, units_add (by omega) (.inr le_rfl), ← pow_add]

/-! ## The nearest one -/

/-- No double is nearer to `a` than the one with bits `n`, and if another one is as near then those
bits are even. Infinity takes part like any other, at the place that comes next. -/
structure NearestRank (a : ℚ) (n : Nat) : Prop where
  inRange : n ≤ infinityBits
  closest : ∀ k ≤ infinityBits, |(units n : ℚ) - a| ≤ |(units k : ℚ) - a|
  even : ∀ k ≤ infinityBits, |(units k : ℚ) - a| = |(units n : ℚ) - a| → k = n ∨ n % 2 = 0

section Distances

variable {a : ℚ} {n k : Nat}

theorem units_le_units (h : k ≤ n) : (units k : ℚ) ≤ units n :=
  Nat.cast_le.mpr (strictMono_units.monotone h)

theorem units_lt_units (h : k < n) : (units k : ℚ) < units n :=
  Nat.cast_lt.mpr (strictMono_units h)

/-- Going down from below `a` makes the distance longer. -/
theorem distance_of_le (hn : (units n : ℚ) ≤ a) (hk : k ≤ n) :
    |(units k : ℚ) - a| = a - units k := by
  have hle := units_le_units hk
  rw [abs_of_nonpos (by linarith), neg_sub]

/-- Going up from above `a` makes the distance longer. -/
theorem distance_of_ge (hn : a ≤ (units n : ℚ)) (hk : n ≤ k) :
    |(units k : ℚ) - a| = units k - a := by
  have hle := units_le_units hk
  exact abs_of_nonneg (by linarith)

end Distances

/-- A number beyond the doubles is nearest to infinity. -/
theorem nearestRank_infinityBits {a : ℚ} (h : (units infinityBits : ℚ) ≤ a) :
    NearestRank a infinityBits where
  inRange := le_rfl
  closest := by
    intro k hk
    have hle := units_le_units hk
    rw [distance_of_le h le_rfl, distance_of_le h hk]
    linarith
  even := fun _ _ _ => .inr rfl

section Between

variable {a : ℚ} {n : Nat} (hlow : (units n : ℚ) ≤ a) (hhigh : a ≤ (units (n + 1) : ℚ))
include hlow hhigh

/-- Every double lies on one side of the two neighbours that enclose `a`, so these are the only ones to
look at. Below their middle the lower one is nearest … -/
theorem nearestRank_lower (hn : n ≤ infinityBits)
    (hnearer : 2 * a < units n + units (n + 1) ∨
      2 * a = units n + units (n + 1) ∧ n % 2 = 0) : NearestRank a n where
  inRange := hn
  closest := by
    intro k _
    rw [distance_of_le hlow le_rfl]
    rcases Nat.lt_or_ge n k with hk | hk
    · have hle := units_le_units hk
      rw [distance_of_ge hhigh hk]
      rcases hnearer with h | ⟨h, -⟩ <;> linarith
    · have hle := units_le_units hk
      rw [distance_of_le hlow hk]
      linarith
  even := by
    intro k _ hsame
    rw [distance_of_le hlow le_rfl] at hsame
    rcases hnearer with h | ⟨-, heven⟩
    · rcases Nat.lt_trichotomy k n with hk | rfl | hk
      · have hlt := units_lt_units hk
        rw [distance_of_le hlow hk.le] at hsame
        linarith
      · exact .inl rfl
      · have hle := units_le_units hk
        rw [distance_of_ge hhigh hk] at hsame
        linarith
    · exact .inr heven

/-- … and above it the upper one. -/
theorem nearestRank_upper (hn : n + 1 ≤ infinityBits)
    (hnearer : (units n : ℚ) + units (n + 1) < 2 * a ∨
      (units n : ℚ) + units (n + 1) = 2 * a ∧ (n + 1) % 2 = 0) : NearestRank a (n + 1) where
  inRange := hn
  closest := by
    intro k _
    rw [distance_of_ge hhigh le_rfl]
    rcases Nat.lt_or_ge n k with hk | hk
    · have hle := units_le_units hk
      rw [distance_of_ge hhigh hk]
      linarith
    · have hle := units_le_units hk
      rw [distance_of_le hlow hk]
      rcases hnearer with h | ⟨h, -⟩ <;> linarith
  even := by
    intro k _ hsame
    rw [distance_of_ge hhigh le_rfl] at hsame
    rcases hnearer with h | ⟨-, heven⟩
    · rcases Nat.lt_trichotomy k (n + 1) with hk | rfl | hk
      · have hle := units_le_units (Nat.le_of_lt_succ hk)
        rw [distance_of_le hlow (Nat.le_of_lt_succ hk)] at hsame
        linarith
      · exact .inl rfl
      · have hlt := units_lt_units hk
        rw [distance_of_ge hhigh hk.le] at hsame
        linarith
    · exact .inr heven

end Between

/-- **There is one nearest double.** Two that are equally near enclose the number and have no third one
between them, so their bits are not both even. -/
theorem NearestRank.unique {a : ℚ} {n n' : Nat} (h : NearestRank a n) (h' : NearestRank a n') :
    n = n' := by
  wlog hle : n ≤ n' generalizing n n'
  · exact (this h' h (Nat.le_of_not_le hle)).symm
  by_contra hne
  have hsame : |(units n : ℚ) - a| = |(units n' : ℚ) - a| :=
    le_antisymm (h.closest n' h'.inRange) (h'.closest n h.inRange)
  have hlt : (units n : ℚ) < units n' := units_lt_units (Nat.lt_of_le_of_ne hle hne)
  -- the number is the one in the middle
  have hmiddle : 2 * a = units n + units n' := by
    rcases abs_eq_abs.mp hsame with heq | heq <;> linarith
  have hnext : n' = n + 1 := by
    by_contra hgap
    have hbetween : n + 1 < n' := by omega
    have hafter := units_lt_units (Nat.lt_succ_self n)
    have hbefore := units_lt_units hbetween
    have hcloser := h'.closest (n + 1) (by have := h'.inRange; omega)
    rw [abs_of_pos (by linarith)] at hcloser
    rcases abs_cases ((units (n + 1) : ℚ) - a) with ⟨heq, -⟩ | ⟨heq, -⟩ <;> linarith
  have heven := (h.even n' h'.inRange hsame.symm).resolve_left (Ne.symm hne)
  have heven' := (h'.even n h.inRange hsame).resolve_left hne
  omega

/-! ## The one that is computed -/

/-- Cutting a magnitude off after 53 digits leaves the significand of a double. -/
theorem units_cutOff (num den : Nat) :
    let exponent := (num / den).log2 - 52
    let significand := num / (den * 2 ^ exponent)
    units (exponent * 2 ^ 52 + significand) = significand * 2 ^ exponent ∧
      units (exponent * 2 ^ 52 + significand + 1) = (significand + 1) * 2 ^ exponent := by
  intro exponent significand
  have hdiv : significand = num / den / 2 ^ exponent := (Nat.div_div_eq_div_mul ..).symm
  have hupper : significand < 2 ^ 53 := by
    rw [hdiv, Nat.div_lt_iff_lt_mul (Nat.two_pow_pos _), ← Nat.pow_add]
    calc num / den < 2 ^ ((num / den).log2 + 1) := Nat.lt_log2_self
      _ ≤ 2 ^ (53 + exponent) := Nat.pow_le_pow_right (by omega) (by omega)
  have hnormal : exponent = 0 ∨ 2 ^ 52 ≤ significand := by
    rcases Nat.eq_zero_or_pos exponent with hzero | hpos
    · exact .inl hzero
    · right
      have hlog : (num / den).log2 = 52 + exponent := by omega
      have hwhole : num / den ≠ 0 := by
        intro h
        rw [h, Nat.log2_zero] at hlog
        omega
      rw [hdiv, Nat.le_div_iff_mul_le (Nat.two_pow_pos _), ← Nat.pow_add, ← hlog]
      exact Nat.log2_self_le hwhole
  refine ⟨units_add hupper.le hnormal, ?_⟩
  rw [Nat.add_assoc]
  exact units_add hupper (hnormal.imp_right Nat.le_succ_of_le)

/-- That double and the next one enclose the magnitude, and where it lies between them shows by how
much was cut off. -/
theorem enclosed_cutOff (num : Nat) {den : Nat} (hden : 0 < den) :
    let exponent := (num / den).log2 - 52
    let gap := den * 2 ^ exponent
    let lower := exponent * 2 ^ 52 + num / gap
    (units lower : ℚ) ≤ num / den ∧ (num / den : ℚ) ≤ units (lower + 1) ∧
      ((units lower : ℚ) + units (lower + 1) - 2 * (num / den)) * den =
        gap - 2 * (num % gap : Nat) := by
  intro exponent gap lower
  obtain ⟨hlower, hupper⟩ := units_cutOff num den
  have hdenQ : (0 : ℚ) < den := Nat.cast_pos.mpr hden
  -- everything in units of `1 / den`
  have hlowerGap : den * units lower = num / gap * gap := by
    show den * units (exponent * 2 ^ 52 + num / (den * 2 ^ exponent)) = _
    rw [hlower]
    ring
  have hupperGap : den * units (lower + 1) = num / gap * gap + gap := by
    show den * units (exponent * 2 ^ 52 + num / (den * 2 ^ exponent) + 1) = _
    rw [hupper]
    ring
  have hcut : num / gap * gap + num % gap = num := Nat.div_add_mod' num gap
  have hrest : num % gap < gap := Nat.mod_lt _ (Nat.mul_pos hden (Nat.two_pow_pos _))
  refine ⟨?_, ?_, ?_⟩
  · rw [le_div_iff₀' hdenQ]
    exact_mod_cast (by omega : den * units lower ≤ num)
  · rw [div_le_iff₀' hdenQ]
    exact_mod_cast (by omega : num ≤ den * units (lower + 1))
  · have hlowerQ : (den : ℚ) * units lower = num - (num % gap : Nat) := by
      have hsum : den * units lower + num % gap = num := by omega
      have hsumQ : (den : ℚ) * units lower + (num % gap : Nat) = num := by exact_mod_cast hsum
      linarith
    have hupperQ : (den : ℚ) * units (lower + 1) = num - (num % gap : Nat) + gap := by
      have hsum : den * units (lower + 1) + num % gap = num + gap := by omega
      have hsumQ : (den : ℚ) * units (lower + 1) + (num % gap : Nat) = num + gap := by
        exact_mod_cast hsum
      linarith
    have hnum : (num : ℚ) / den * den = num := div_mul_cancel₀ _ hdenQ.ne'
    linarith

/-- Of the two neighbours the nearer one is picked, and infinity stands for all that is beyond. -/
theorem nearestRank_of_cutOff {a den : ℚ} (hden : 0 < den) {lower gap cutOff : Nat}
    (hlow : (units lower : ℚ) ≤ a) (hhigh : a ≤ (units (lower + 1) : ℚ))
    (hmiddle : ((units lower : ℚ) + units (lower + 1) - 2 * a) * den = gap - 2 * cutOff) :
    NearestRank a (min (if 2 * cutOff < gap ∨ (2 * cutOff = gap ∧ lower % 2 = 0) then lower
      else lower + 1) infinityBits) := by
  rcases Nat.lt_or_ge lower infinityBits with hrange | hrange
  · split
    · next hnearer =>
      rw [Nat.min_eq_left hrange.le]
      refine nearestRank_lower hlow hhigh hrange.le (hnearer.imp (fun hlt => ?_) ?_)
      · have hltQ : (2 * cutOff : ℚ) < gap := by exact_mod_cast hlt
        nlinarith
      · rintro ⟨heq, heven⟩
        have heqQ : (2 * cutOff : ℚ) = gap := by exact_mod_cast heq
        rw [heqQ, sub_self] at hmiddle
        exact ⟨by linarith [(mul_eq_zero.mp hmiddle).resolve_right hden.ne'], heven⟩
    · next hnearer =>
      rw [Nat.min_eq_left hrange]
      obtain ⟨hge, hodd⟩ := not_or.mp hnearer
      refine nearestRank_upper hlow hhigh hrange ?_
      rcases Nat.lt_or_eq_of_le (Nat.le_of_not_lt hge) with hlt | heq
      · have hltQ : (gap : ℚ) < 2 * cutOff := by exact_mod_cast hlt
        left
        nlinarith
      · have heqQ : (2 * cutOff : ℚ) = gap := by exact_mod_cast heq.symm
        have hlowerOdd : ¬ lower % 2 = 0 := fun h => hodd ⟨heq.symm, h⟩
        rw [heqQ, sub_self] at hmiddle
        exact .inr ⟨by linarith [(mul_eq_zero.mp hmiddle).resolve_right hden.ne'], by omega⟩
  · have hinfinity : NearestRank a infinityBits :=
      nearestRank_infinityBits ((units_le_units hrange).trans hlow)
    split
    · rwa [Nat.min_eq_right hrange]
    · rwa [Nat.min_eq_right (Nat.le_succ_of_le hrange)]

/-- **The nearest double is computed.** -/
theorem nearestRank_nearestBits (num : Nat) {den : Nat} (hden : 0 < den) :
    NearestRank ((num : ℚ) / den) (nearestBits num den) := by
  obtain ⟨hlow, hhigh, hmiddle⟩ := enclosed_cutOff num hden
  exact nearestRank_of_cutOff (Nat.cast_pos.mpr hden) hlow hhigh hmiddle

end ModelProvision.Binary64
