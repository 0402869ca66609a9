import ModelProvision.Proofs.Json.Grammar
import ModelProvision.Proofs.Text

/-!
# Classes of characters

The reader tells classes of characters by comparing numbers, the grammar by alphabets written out.
Both come down to the number of a code point: an alphabet is a run of numbers (`digit_iff`,
`hexDigit_iff`), and no two code points have the same one (`CodePoint.toNat_inj`). The same goes for
what `\u` spells: a code unit is the number of one code point (`eq_ofUnit_iff`), and two of them are
halves of a character exactly when the reader joins them (`joined?_ofUnit_eq_some_iff`).
-/

namespace ModelProvision

/-- A code point is told by a number below `0x10000`. -/
theorem CodePoint.eq_ofUnit_iff {p : CodePoint} {n : Nat} (h : n < 0x10000) :
    p = ofUnit n ↔ p.toNat = n := by
  rw [← toNat_inj, toNat_ofUnit h]

namespace Json.Grammar

open CodePoint

theorem isSpace_iff {p : CodePoint} : isSpace p ↔ Space p := by
  have halphabet : (" \t\n\r" : Text) = [.char ' ', .char '\t', .char '\n', .char '\r'] := rfl
  rw [Space, halphabet]
  simp [isSpace, or_assoc]

/-! ## Digits -/

/-- The ten digits have consecutive numbers. -/
theorem digit_iff {p : CodePoint} {d : Nat} : Digit p d ↔ d < 10 ∧ p.toNat = 0x30 + d := by
  -- the alphabet by its numbers, digit by digit
  have halphabet : ∀ d < 10, ("0123456789" : Text)[d]? = some (ofUnit (0x30 + d)) := by decide
  by_cases hd : d < 10
  · rw [Digit, halphabet d hd, Option.some_inj, eq_comm, eq_ofUnit_iff (by omega)]
    exact (and_iff_right hd).symm
  · rw [Digit, List.getElem?_eq_none (Nat.le_of_not_lt hd)]
    simp [hd]

/-- A range of numbers is compared where the grammar writes the alphabet out. -/
theorem isDigit_iff {p : CodePoint} : isDigit p ↔ IsDigit p := by
  have hrange : isDigit p ↔ 0x30 ≤ p.toNat ∧ p.toNat ≤ 0x39 := by
    rw [isDigit, Bool.and_eq_true, decide_eq_true_iff, decide_eq_true_iff]
    rfl
  rw [hrange, IsDigit]
  constructor
  · rintro ⟨hlow, hhigh⟩
    exact ⟨p.toNat - 0x30, digit_iff.mpr ⟨by omega, by omega⟩⟩
  · rintro ⟨d, hd⟩
    obtain ⟨hlt, hp⟩ := digit_iff.mp hd
    omega

/-- A hexadecimal digit is a decimal one or a letter of either case, counted from ten. -/
theorem hexDigit_iff {p : CodePoint} {n : Nat} :
    HexDigit p n ↔ n < 16 ∧
      (p.toNat = (if n < 10 then 0x30 else 0x57) + n ∨
        p.toNat = (if n < 10 then 0x30 else 0x37) + n) := by
  -- both alphabets by their numbers: letters go on where the digits end
  have hlower : ∀ n < 16, ("0123456789abcdef" : Text)[n]? =
      some (ofUnit ((if n < 10 then 0x30 else 0x57) + n)) := by decide
  have hupper : ∀ n < 16, ("0123456789ABCDEF" : Text)[n]? =
      some (ofUnit ((if n < 10 then 0x30 else 0x37) + n)) := by decide
  by_cases hn : n < 16
  · have hunit : ∀ letter < 0x60, (if n < 10 then 0x30 else letter) + n < 0x10000 := by
      intro letter hletter
      split <;> omega
    rw [HexDigit, hlower n hn, hupper n hn, Option.some_inj, Option.some_inj, eq_comm,
      eq_ofUnit_iff (hunit _ (by decide)), eq_comm (b := p), eq_ofUnit_iff (hunit _ (by decide))]
    exact (and_iff_right hn).symm
  · have hlength := Nat.le_of_not_lt hn
    rw [HexDigit, List.getElem?_eq_none hlength, List.getElem?_eq_none hlength]
    simp [hn]

/-- The three ranges of numbers are the two alphabets. -/
theorem hexDigit?_eq_some_iff {p : CodePoint} {n : Nat} : hexDigit? p = some n ↔ HexDigit p n := by
  rw [hexDigit_iff]
  -- a digit below ten and a letter are described by one number each
  have hsplit : ∀ m, (m = (if n < 10 then 0x30 else 0x57) + n ∨
      m = (if n < 10 then 0x30 else 0x37) + n) ↔
      n < 10 ∧ m = 0x30 + n ∨ 10 ≤ n ∧ (m = 0x57 + n ∨ m = 0x37 + n) := by
    intro m
    split <;> omega
  rw [hsplit]
  cases p with
  | char c =>
    have hle : ∀ d d' : Char, d ≤ d' ↔ d.toNat ≤ d'.toNat := fun _ _ => UInt32.le_iff_toNat_le
    have hbounds : '0'.toNat = 0x30 ∧ '9'.toNat = 0x39 ∧ 'a'.toNat = 0x61 ∧ 'f'.toNat = 0x66 ∧
        'A'.toNat = 0x41 ∧ 'F'.toNat = 0x46 := by decide
    obtain ⟨h0, h9, ha, hf, hA, hF⟩ := hbounds
    -- in numbers the ranges of the reader are disjoint, and each is a question of arithmetic
    simp only [hexDigit?, hle, CodePoint.toNat, h0, h9, ha, hf, hA, hF]
    split
    · rw [Option.some_inj]
      omega
    · split
      · rw [Option.some_inj]
        omega
      · split
        · rw [Option.some_inj]
          omega
        · refine iff_of_false (by simp) ?_
          omega
  | surrogate m =>
    simp only [hexDigit?, CodePoint.toNat]
    refine iff_of_false (by simp) ?_
    omega

/-! ## Escapes -/

/-- Each short escape of the reader is a rule of the grammar. -/
theorem shortEscape?_eq_some_iff {p : CodePoint} {c : Char} :
    shortEscape? p = some c ↔ ∃ letter, p = .char letter ∧ ShortEscape letter c := by
  constructor
  · intro h
    unfold shortEscape? at h
    split at h
    case h_9 => exact absurd h (by simp)
    all_goals
      obtain rfl := Option.some.inj h
      exact ⟨_, rfl, by constructor⟩
  · rintro ⟨letter, rfl, h⟩
    cases h <;> rfl

theorem CodeUnit.lt {t rest : Text} {unit : Nat} (h : CodeUnit t unit rest) : unit < 0x10000 := by
  cases h with
  | mk ha hb hc hd =>
    have := (hexDigit_iff.mp ha).1
    have := (hexDigit_iff.mp hb).1
    have := (hexDigit_iff.mp hc).1
    have := (hexDigit_iff.mp hd).1
    omega

/-- The reader joins exactly the halves of one character. -/
theorem joined?_ofUnit_eq_some_iff {high low : Nat} {c : Char} :
    (ofUnit high).joined? (ofUnit low) = some c ↔ Halves high low c := by
  by_cases hsurrogates : (0xd800 ≤ high ∧ high < 0xe000) ∧ 0xd800 ≤ low ∧ low < 0xe000
  · obtain ⟨hhigh, hlow⟩ := hsurrogates
    rw [ofUnit, ofUnit, dif_pos hhigh, dif_pos hlow, joined?]
    dsimp only
    split
    · next hhalves =>
      -- the number is the one of a character
      have hnumber : 0x10000 + (high - 0xd800) * 0x400 + (low - 0xd800 - 0x400) =
          0x10000 + (high - 0xd800) * 0x400 + (low - 0xdc00) := by omega
      have hvalid : (0x10000 + (high - 0xd800) * 0x400 + (low - 0xdc00)).isValidChar := by
        simp only [Nat.isValidChar]
        omega
      have htoNat : (Char.ofNat (0x10000 + (high - 0xd800) * 0x400 + (low - 0xdc00))).toNat =
          0x10000 + (high - 0xd800) * 0x400 + (low - 0xdc00) := by
        rw [Char.ofNat, dif_pos hvalid]
        rfl
      rw [hnumber, Option.some_inj]
      constructor
      · rintro rfl
        exact ⟨by omega, by omega, htoNat⟩
      · intro h
        exact Char.toNat_inj.mp (htoNat.trans h.number.symm)
    · next hhalves =>
      refine iff_of_false (by simp) fun h => hhalves ?_
      have := h.isHigh
      have := h.isLow
      omega
  -- no surrogate on one side, and the reader joins nothing
  · have hnone : (ofUnit high).joined? (ofUnit low) = none := by
      rw [ofUnit, ofUnit]
      by_cases hhigh : 0xd800 ≤ high ∧ high < 0xe000
      · rw [dif_pos hhigh, dif_neg fun hlow => hsurrogates ⟨hhigh, hlow⟩]
        rfl
      · rw [dif_neg hhigh]
        rfl
    rw [hnone]
    refine iff_of_false (by simp) fun h => hsurrogates ?_
    have := h.isHigh
    have := h.isLow
    omega

end Json.Grammar

end ModelProvision
