import Mathlib
import ModelProvision.Proofs.Number.Ascending

/-!
# Doubles and their bits

A `Float` is known by its 64 bits (`Float.toBits_inj`): a sign and, below it, the place in the ascending
count of magnitudes (`sign`, `rank`). Every such pair up to infinity is the sign and the rank of one
double (`exists_rank`, `eq_of_rank`), and what `Binary64.ofFloat` reads off the bits is told by the
two (`ofFloat_eq`).

That bits make the double which has them (`toBits_ofBits`) is the library's `pack_unpack`: taking bits
apart into sign, significand and exponent and packing them again is the identity, except that all bit
patterns of no number become one.
-/

namespace ModelProvision.Binary64

open Float.Model Float.Model.UnpackedFloat

/-! ## Two fields of a bit pattern -/

section Fields

variable (v : BitVec 64)

theorem toNat_unpackMantissa : (@unpackMantissa .binary64 v).toNat = v.toNat % 2 ^ 52 := by
  simp [unpackMantissa, BitVec.extractLsb, BitVec.extractLsb']

theorem toNat_unpackExponent :
    (@unpackExponent .binary64 v).toNat = v.toNat / 2 ^ 52 % 2 ^ 11 := by
  simp [unpackExponent, BitVec.extractLsb, BitVec.extractLsb', Nat.shiftRight_eq_div_pow]

end Fields

/-! ## Sign and rank -/

/-- Bits make the double that has them, unless they are one of the patterns of no number, all of which
make the same double. -/
theorem toBits_ofBits {bits : UInt64} (h : bits.toNat % 2 ^ 63 ≤ infinityBits) :
    (Float.ofBits bits).toBits = bits := by
  have hnumber : ¬ @isNaNBits .binary64 bits.toBitVec := by
    intro hnan
    obtain ⟨hones, hfraction⟩ := of_decide_eq_true hnan
    -- a pattern of no number has all ones for an exponent and a fraction after them, so it is
    -- beyond infinity
    have hexponent := congrArg BitVec.toNat hones
    rw [toNat_unpackExponent] at hexponent
    refine hfraction (BitVec.eq_of_toNat_eq ?_)
    rw [toNat_unpackMantissa]
    have hnat : bits.toBitVec.toNat = bits.toNat := rfl
    have hfield : (-1#11).toNat = 2047 := rfl
    rw [hnat, hfield] at hexponent
    rw [hnat]
    show bits.toNat % 2 ^ 52 = 0
    have := infinityBits_eq
    omega
  -- packing what was unpacked is the identity on all other patterns
  apply UInt64.toBitVec_inj.mp
  show UnpackedFloat.pack .binary64 (UnpackedFloat.unpack .binary64 bits.toBitVec) = bits.toBitVec
  rw [pack_unpack, if_neg hnumber]

/-- Whether the sign bit of a double is set. -/
def sign (x : Float) : Bool := x.toBits.toNat / 2 ^ 63 == 1

/-- The bits of a double without its sign. -/
def rank (x : Float) : Nat := x.toBits.toNat % 2 ^ 63

/-- Sign and rank are all that the bits are made of. -/
theorem toBits_eq (x : Float) : x.toBits.toNat = (if sign x then 2 ^ 63 else 0) + rank x := by
  have hlt : x.toBits.toNat < 2 ^ 64 := UInt64.toNat_lt _
  rw [sign, rank]
  split
  · next h =>
    have := eq_of_beq h
    omega
  · next h =>
    have : x.toBits.toNat / 2 ^ 63 ≠ 1 := fun heq => h (beq_iff_eq.mpr heq)
    omega

/-- A double is its sign and its rank. -/
theorem eq_of_rank {x y : Float} (hsign : sign x = sign y) (hrank : rank x = rank y) : x = y := by
  apply Float.toBits_inj.mp
  apply UInt64.toNat_inj.mp
  rw [toBits_eq, toBits_eq, hsign, hrank]

/-- The bits of a sign and a rank make the double with these two. -/
theorem sign_rank_ofBits (negative : Bool) {n : Nat} (hn : n ≤ infinityBits) :
    sign (Float.ofBits (UInt64.ofNat ((if negative then 2 ^ 63 else 0) + n))) = negative ∧
      rank (Float.ofBits (UInt64.ofNat ((if negative then 2 ^ 63 else 0) + n))) = n := by
  have hbits := infinityBits_eq
  -- the sum is less than `2 ^ 64`, so the bits are these
  have hnat : (UInt64.ofNat ((if negative then 2 ^ 63 else 0) + n)).toNat =
      (if negative then 2 ^ 63 else 0) + n := by
    refine UInt64.toNat_ofNat_of_lt' ?_
    show _ < 2 ^ 64
    split <;> omega
  have hsame : (Float.ofBits (UInt64.ofNat ((if negative then 2 ^ 63 else 0) + n))).toBits =
      UInt64.ofNat ((if negative then 2 ^ 63 else 0) + n) := by
    refine toBits_ofBits ?_
    rw [hnat]
    split <;> omega
  rw [sign, rank, hsame, hnat]
  cases negative
  · have hzero : n / 2 ^ 63 = 0 := by omega
    simp only [Bool.false_eq_true, if_false, Nat.zero_add, hzero]
    exact ⟨rfl, by omega⟩
  · have hone : (2 ^ 63 + n) / 2 ^ 63 = 1 := by omega
    simp only [if_true, hone]
    exact ⟨rfl, by omega⟩

/-- Every sign goes with every count up to infinity. -/
theorem exists_rank (negative : Bool) {n : Nat} (hn : n ≤ infinityBits) :
    ∃ x, sign x = negative ∧ rank x = n :=
  ⟨_, sign_rank_ofBits negative hn⟩

/-! ## What is read off the bits -/

/-- A double by its sign and its rank. -/
theorem ofFloat_eq (x : Float) :
    ofFloat x =
      if rank x / 2 ^ 52 = 2047 then
        if rank x % 2 ^ 52 = 0 then .infinite (sign x) else .notANumber
      else if rank x / 2 ^ 52 = 0 then .finite (sign x) (rank x) (-1074)
      else .finite (sign x) (2 ^ 52 + rank x % 2 ^ 52) ((rank x / 2 ^ 52 : Nat) - 1075) := by
  have hexponent : x.toBits.toNat / Nat.pow 2 52 % Nat.pow 2 11 = rank x / 2 ^ 52 := by
    show x.toBits.toNat / 2 ^ 52 % 2 ^ 11 = x.toBits.toNat % 2 ^ 63 / 2 ^ 52
    omega
  have hfraction : x.toBits.toNat % Nat.pow 2 52 = rank x % 2 ^ 52 := by
    show x.toBits.toNat % 2 ^ 52 = x.toBits.toNat % 2 ^ 63 % 2 ^ 52
    omega
  simp only [ofFloat, hexponent, hfraction]
  split
  · rfl
  · split
    · next hzero =>
      have hsmall : rank x % 2 ^ 52 = rank x := by omega
      rw [hsmall]
      rfl
    · rfl

/-- There is only one double of each infinity … -/
theorem rank_of_infinite {x : Float} {negative : Bool} (h : ofFloat x = .infinite negative) :
    sign x = negative ∧ rank x = infinityBits := by
  have hbits := infinityBits_eq
  rw [ofFloat_eq] at h
  split at h
  · split at h
    · exact ⟨Binary64.infinite.inj h, by omega⟩
    · exact absurd h (by simp)
  · split at h <;> exact absurd h (by simp)

/-- … and only one that is no number, whatever its bits were when it was made. -/
theorem eq_of_notANumber {x y : Float} (hx : ofFloat x = .notANumber)
    (hy : ofFloat y = .notANumber) : x = y := by
  -- a double that is no number has the one pattern that is left to it
  have hpattern : ∀ z : Float, ofFloat z = .notANumber →
      z.toBits.toBitVec = packedNaN .binary64 := by
    intro z hz
    rw [ofFloat_eq] at hz
    split at hz
    · next hexponent =>
      split at hz
      · exact absurd hz (by simp)
      · next hfraction =>
        rw [rank] at hexponent hfraction
        have hnat : z.toBits.toBitVec.toNat = z.toBits.toNat := rfl
        refine z.toModel.valid.eq_packedNaN ?_ fun hzero => hfraction ?_
        · apply BitVec.eq_of_toNat_eq
          show (@unpackExponent .binary64 z.toBits.toBitVec).toNat = 2047
          rw [toNat_unpackExponent, hnat]
          omega
        · have hfield : (@unpackMantissa .binary64 z.toBits.toBitVec).toNat = 0 :=
            congrArg BitVec.toNat hzero
          rw [toNat_unpackMantissa, hnat] at hfield
          omega
    · split at hz <;> exact absurd hz (by simp)
  apply Float.toBits_inj.mp
  exact UInt64.toBitVec_inj.mp ((hpattern x hx).trans (hpattern y hy).symm)

end ModelProvision.Binary64
