import ModelProvision.Proofs.Json.Meaning

/-!
# Scanning strings, numbers and names

The pieces of the reader against the rules of the grammar. Each rule relates a text to every way it
can be cut, while a scanner makes one cut, so the two directions differ: what a scanner finds is an
instance of the rule, and what the rule allows is found where nothing follows that the scanner would
take as well (`Stops` for numbers; strings end at their quote).

* **`readString_eq_ok_iff`** for strings, with `CodeUnit` and `Alone` behind its escapes;
* **`number_of_scanNumeral?`** and **`scanNumeral?_of_number`** for numbers;
* **`readScalar_of_literal`** and **`readScalar_of_number`** for what stands alone, with what becomes
  of an integer that is too long.
-/

namespace ModelProvision.Json.Grammar

/-! ## Blanks -/

theorem Blanks.refl (t : Text) : Blanks t t := ⟨[], rfl, by simp⟩

theorem Blanks.trans {t u rest : Text} (h : Blanks t u) (h' : Blanks u rest) : Blanks t rest := by
  obtain ⟨s, rfl, hs⟩ := h
  obtain ⟨s', rfl, hs'⟩ := h'
  refine ⟨s ++ s', by rw [List.append_assoc], fun p hp => ?_⟩
  rcases List.mem_append.mp hp with hp | hp
  · exact hs p hp
  · exact hs' p hp

/-- What the reader skips are blanks … -/
theorem blanks_skipSpace (t : Text) : Blanks t (skipSpace t) :=
  ⟨t.takeWhile isSpace, List.takeWhile_append_dropWhile.symm, fun p hp =>
    isSpace_iff.mp (List.all_eq_true.mp List.all_takeWhile p hp)⟩

/-- … and all that come first, so it makes no difference to skip some of them before. -/
theorem Blanks.skipSpace_eq {t rest : Text} (h : Blanks t rest) :
    skipSpace t = skipSpace rest := by
  obtain ⟨s, rfl, hs⟩ := h
  exact List.dropWhile_append_of_pos fun p hp => isSpace_iff.mpr (hs p hp)

theorem skipSpace_cons {p : CodePoint} (hp : isSpace p = false) (t : Text) :
    skipSpace (p :: t) = p :: t :=
  List.dropWhile_cons_of_neg (by simp [hp])

theorem Blanks.suffix {t rest : Text} (h : Blanks t rest) : rest <:+ t := by
  obtain ⟨s, rfl, -⟩ := h
  exact List.suffix_append s rest

/-! ## Strings -/

/-- A hexadecimal digit has one value … -/
theorem HexDigit.unique {p : CodePoint} {i j : Nat} (h : HexDigit p i) (h' : HexDigit p j) :
    i = j := by
  rw [← hexDigit?_eq_some_iff] at h h'
  exact Option.some.inj (h.symm.trans h')

/-- … so four of them spell one code unit. -/
theorem CodeUnit.unique {t r r' : Text} {unit unit' : Nat} (h : CodeUnit t unit r)
    (h' : CodeUnit t unit' r') : unit = unit' ∧ r = r' := by
  cases h with
  | mk ha hb hc hd =>
    cases h' with
    | mk ha' hb' hc' hd' =>
      rw [ha.unique ha', hb.unique hb', hc.unique hc', hd.unique hd']
      exact ⟨rfl, rfl⟩

/-- The reader takes the digits of the rule, but it wants to see what follows them. -/
theorem fourHex?_eq_some_iff {t rest : Text} {p : CodePoint} :
    fourHex? t = some (p, rest) ↔ ∃ unit, p = .ofUnit unit ∧ CodeUnit t unit rest ∧ rest ≠ [] := by
  -- the reader folds the digits, the rule weighs each by its place
  have hweights : ∀ i j k l : Nat,
      ((i * 16 + j) * 16 + k) * 16 + l = 0x1000 * i + 0x100 * j + 0x10 * k + l := by
    intro i j k l
    omega
  constructor
  · intro h
    unfold fourHex? at h
    split at h
    · simp only [Option.bind_eq_bind, Option.bind_eq_some_iff, Option.some.injEq,
        Prod.mk.injEq] at h
      obtain ⟨i, hi, j, hj, k, hk, l, hl, rfl, rfl⟩ := h
      rw [hexDigit?_eq_some_iff] at hi hj hk hl
      rw [hweights]
      exact ⟨_, rfl, .mk hi hj hk hl, by simp⟩
    · exact absurd h (by simp)
  · rintro ⟨unit, rfl, h, hrest⟩
    cases h with
    | mk ha hb hc hd =>
      obtain ⟨next, more, rfl⟩ := List.exists_cons_of_ne_nil hrest
      rw [← hexDigit?_eq_some_iff] at ha hb hc hd
      simp [fourHex?, ha, hb, hc, hd, hweights]

theorem fourHex?_of_codeUnit {t rest : Text} {unit : Nat} (h : CodeUnit t unit rest)
    (hrest : rest ≠ []) : fourHex? t = some (.ofUnit unit, rest) :=
  fourHex?_eq_some_iff.mpr ⟨unit, rfl, h, hrest⟩

/-- The second of two escapes is taken where the two are the halves of one character. -/
theorem secondHalf?_eq_some_iff {first : Nat} {t rest : Text} {c : Char} :
    secondHalf? (.ofUnit first) t = some (c, rest) ↔
      ∃ digits second, t = .char '\\' :: .char 'u' :: digits ∧ CodeUnit digits second rest ∧
        rest ≠ [] ∧ Halves first second c := by
  constructor
  · intro h
    unfold secondHalf? at h
    split at h
    · next digits =>
      simp only [Option.bind_eq_bind, Option.bind_eq_some_iff, Option.some.injEq,
        Prod.mk.injEq] at h
      obtain ⟨⟨spelled, after⟩, hhex, joined, hjoined, rfl, rfl⟩ := h
      obtain ⟨second, rfl, hunit, hafter⟩ := fourHex?_eq_some_iff.mp hhex
      exact ⟨digits, second, rfl, hunit, hafter, joined?_ofUnit_eq_some_iff.mp hjoined⟩
    · exact absurd h (by simp)
  · rintro ⟨digits, second, rfl, hunit, hrest, hhalves⟩
    have hhex := fourHex?_of_codeUnit hunit hrest
    have hjoined := joined?_ofUnit_eq_some_iff.mpr hhalves
    simp [secondHalf?, hhex, hjoined]

theorem Content.ne_nil {t ps rest : Text} (h : Content t ps rest) : t ≠ [] := by
  cases h <;> simp

/-- No short escape is written with the letter of the long one. -/
theorem ShortEscape.ne_u {letter c : Char} (h : ShortEscape letter c) :
    CodePoint.char letter ≠ .char 'u' := by
  cases h <;> decide

/-- A string does not end right after an escape. -/
theorem Content.ne_nil_of_unit {digits ps rest after : Text} {unit : Nat}
    (h : Content (.char '\\' :: .char 'u' :: digits) ps rest)
    (hunit : CodeUnit digits unit after) : after ≠ [] := by
  cases h with
  | plain _ hbackslash => exact absurd rfl hbackslash
  | short hletter => exact absurd rfl hletter.ne_u
  | unit hunit' _ _ hrest =>
    obtain ⟨-, rfl⟩ := hunit.unique hunit'
    exact hrest.ne_nil
  | pair hhigh =>
    obtain ⟨-, rfl⟩ := hunit.unique hhigh
    simp

/-- An escape that is no first half is read on its own … -/
theorem unicodeEscape?_of_alone {digits t : Text} {unit : Nat} (hunit : CodeUnit digits unit t)
    (ht : t ≠ []) (halone : Alone unit t) : unicodeEscape? digits = some (.ofUnit unit, t) := by
  -- a second half that the reader found would be one by the rule
  have hhalf : secondHalf? (.ofUnit unit) t = none := by
    rw [Option.eq_none_iff_forall_ne_some]
    rintro ⟨c, rest⟩ hsome
    obtain ⟨digits', second, rfl, hsecond, -, hhalves⟩ := secondHalf?_eq_some_iff.mp hsome
    exact halone digits' second rest rfl hsecond c hhalves
  simp [unicodeEscape?, fourHex?_of_codeUnit hunit ht, hhalf]

/-- … and two that are halves of one character are read together. -/
theorem unicodeEscape?_of_pair {digits digits' t : Text} {high low : Nat} {c : Char}
    (hhigh : CodeUnit digits high (.char '\\' :: .char 'u' :: digits'))
    (hlow : CodeUnit digits' low t) (ht : t ≠ []) (hhalves : Halves high low c) :
    unicodeEscape? digits = some (.char c, t) := by
  have hhalf : secondHalf? (.ofUnit high) (.char '\\' :: .char 'u' :: digits') = some (c, t) :=
    secondHalf?_eq_some_iff.mpr ⟨digits', low, rfl, hlow, ht, hhalves⟩
  simp [unicodeEscape?, fourHex?_of_codeUnit hhigh (by simp), hhalf]

/-- The reader puts each piece before what it makes of the rest. -/
theorem readString_of_piece {opening t rest : Text} {p : CodePoint} (h : piece t = .point p rest) :
    readString opening t = (readString opening rest).map fun found => (p :: found.1, found.2) := by
  rw [readString]
  split
  · next hpiece => exact absurd (h.symm.trans hpiece) (by simp)
  · next hpiece =>
    obtain ⟨rfl, rfl⟩ := Piece.point.inj (h.symm.trans hpiece)
    cases readString opening rest <;> rfl
  · next hpiece => exact absurd (h.symm.trans hpiece) (by simp)
  · next hpiece => exact absurd (h.symm.trans hpiece) (by simp)

theorem piece_escape (t : Text) : piece (.char '\\' :: t) = escape t := by
  rw [piece, if_neg (by decide), if_pos rfl]

/-- **Whatever the grammar has as content of a string is read as it.** -/
theorem readString_of_content {opening t ps rest : Text} (h : Content t ps rest) :
    readString opening t = .ok (ps, rest) := by
  -- along the rules: each says which piece comes next
  induction h with
  | @close rest =>
    have hpiece : piece (.char '"' :: rest) = .close rest := by rw [piece, if_pos rfl]
    rw [readString]
    split <;> simp_all
  | @plain p t _ _ hquote hbackslash hcontrol hrest ih =>
    have hpiece : piece (p :: t) = .point p t := by
      rw [piece, if_neg hquote, if_neg hbackslash, if_neg (by omega)]
    rw [readString_of_piece hpiece, ih]
    rfl
  | @short letter c t _ _ hletter hrest ih =>
    have hpiece : piece (.char '\\' :: .char letter :: t) = .point c t := by
      rw [piece_escape, escape, if_neg hletter.ne_u,
        shortEscape?_eq_some_iff.mpr ⟨letter, rfl, hletter⟩]
    rw [readString_of_piece hpiece, ih]
    rfl
  | @unit unit p digits t _ _ hunit halone hp hrest ih =>
    obtain rfl := (CodePoint.eq_ofUnit_iff hunit.lt).mpr hp
    have hpiece : piece (.char '\\' :: .char 'u' :: digits) = .point (.ofUnit unit) t := by
      rw [piece_escape, escape, if_pos rfl, unicodeEscape?_of_alone hunit hrest.ne_nil halone]
    rw [readString_of_piece hpiece, ih]
    rfl
  | @pair high low c digits digits' t _ _ hhigh hlow hhalves hrest ih =>
    have hpiece : piece (.char '\\' :: .char 'u' :: digits) = .point c t := by
      rw [piece_escape, escape, if_pos rfl,
        unicodeEscape?_of_pair hhigh hlow hrest.ne_nil hhalves]
    rw [readString_of_piece hpiece, ih]
    rfl

/-- A long escape that is read follows one of the two rules, with a second half or without. -/
theorem content_of_unicodeEscape {digits after ps rest : Text} {p : CodePoint}
    (h : unicodeEscape? digits = some (p, after)) (hafter : Content after ps rest) :
    Content (.char '\\' :: .char 'u' :: digits) (p :: ps) rest := by
  obtain ⟨⟨spelled, t⟩, hhex, h⟩ := Option.bind_eq_some_iff.mp h
  obtain ⟨first, rfl, hunit, -⟩ := fourHex?_eq_some_iff.mp hhex
  dsimp only at h
  split at h
  · next c t' hhalf =>
    obtain ⟨rfl, rfl⟩ := Prod.mk.inj (Option.some.inj h)
    obtain ⟨digits', second, rfl, hsecond, -, hhalves⟩ := secondHalf?_eq_some_iff.mp hhalf
    exact .pair hunit hsecond hhalves hafter
  · next hhalf =>
    obtain ⟨rfl, rfl⟩ := Prod.mk.inj (Option.some.inj h)
    refine .unit hunit ?_ (CodePoint.toNat_ofUnit hunit.lt) hafter
    -- an escape that made one character together with this one would have been taken
    rintro digits' second rest' rfl hsecond c hhalves
    have htaken := secondHalf?_eq_some_iff.mpr
      ⟨digits', second, rfl, hsecond, hafter.ne_nil_of_unit hsecond, hhalves⟩
    rw [hhalf] at htaken
    exact absurd htaken (by simp)

/-- An escape that is read follows the rule for its letter. -/
theorem content_of_escape {t after ps rest : Text} {p : CodePoint}
    (hescape : escape t = .point p after) (hafter : Content after ps rest) :
    Content (.char '\\' :: t) (p :: ps) rest := by
  cases t with
  | nil => exact absurd hescape (by simp [escape])
  | cons letter t =>
    rw [escape] at hescape
    split at hescape
    · next hu =>
      subst hu
      split at hescape
      · next spelled rest' hspelled =>
        obtain ⟨rfl, rfl⟩ := Piece.point.inj hescape
        exact content_of_unicodeEscape hspelled hafter
      · exact absurd hescape (by simp)
    · split at hescape
      · next c hletter =>
        obtain ⟨rfl, rfl⟩ := Piece.point.inj hescape
        obtain ⟨letter, rfl, hshort⟩ := shortEscape?_eq_some_iff.mp hletter
        exact .short hshort hafter
      · exact absurd hescape (by simp)

/-- Whatever the next piece of a string stands for, the grammar has a rule that adds it to the
content that follows. -/
theorem content_of_piece {t after ps rest : Text} {p : CodePoint} (hpiece : piece t = .point p after)
    (hafter : Content after ps rest) : Content t (p :: ps) rest := by
  cases t with
  | nil => exact absurd hpiece (by simp [piece])
  | cons q t =>
    by_cases hquote : q = .char '"'
    · rw [piece, if_pos hquote] at hpiece
      exact absurd hpiece (by simp)
    by_cases hbackslash : q = .char '\\'
    · subst hbackslash
      rw [piece_escape] at hpiece
      exact content_of_escape hpiece hafter
    · rw [piece, if_neg hquote, if_neg hbackslash] at hpiece
      split at hpiece
      · exact absurd hpiece (by simp)
      · next hcontrol =>
        obtain ⟨rfl, rfl⟩ := Piece.point.inj hpiece
        exact .plain hquote hbackslash (by omega) hafter

/-- Only a quote closes a string; no escape does. -/
theorem eq_of_piece_close {t rest : Text} (h : piece t = .close rest) : t = .char '"' :: rest := by
  cases t with
  | nil => exact absurd h (by simp [piece])
  | cons q t =>
    rw [piece] at h
    split at h
    · next hquote => rw [hquote, Piece.close.inj h]
    · split at h
      · cases t with
        | nil => exact absurd h (by simp [escape])
        | cons letter t =>
          rw [escape] at h
          split at h <;> split at h <;> exact absurd h (by simp)
      · split at h <;> exact absurd h (by simp)

/-- **What is read is content by the grammar.** -/
theorem content_of_readString {opening t ps rest : Text}
    (h : readString opening t = .ok (ps, rest)) : Content t ps rest := by
  -- along the calls of the reader, which end at a quote or at a refusal
  fun_induction readString opening t generalizing ps rest with
  | case1 t after hpiece =>
    obtain ⟨rfl, rfl⟩ := Prod.mk.inj (Except.ok.inj h)
    rw [eq_of_piece_close hpiece]
    exact .close
  | case2 t p after hpiece qs more hmore ih =>
    obtain ⟨rfl, rfl⟩ := Prod.mk.inj (Except.ok.inj h)
    exact content_of_piece hpiece (ih hmore)
  | case3 => exact absurd h (by simp)
  | case4 => exact absurd h (by simp)
  | case5 => exact absurd h (by simp)

/-- **Strings are read as the grammar has them.** -/
theorem readString_eq_ok_iff {opening t ps rest : Text} :
    readString opening t = .ok (ps, rest) ↔ Content t ps rest :=
  ⟨content_of_readString, readString_of_content⟩

/-- A string that is refused is malformed. -/
theorem readString_eq_error {opening t : Text} {refusal : Refusal}
    (h : readString opening t = .error refusal) :
    ∃ complaint rest, refusal = .malformed complaint rest := by
  fun_induction readString opening t with
  | case1 => exact absurd h (by simp)
  | case2 => exact absurd h (by simp)
  | case3 t p after hpiece refusal' hafter ih =>
    rw [Except.error.injEq] at h
    subst h
    exact ih hafter
  | case4 t complaint after hpiece => exact ⟨complaint, after, (Except.error.inj h).symm⟩
  | case5 => exact ⟨.unterminatedString, opening, (Except.error.inj h).symm⟩

/-! ## Numbers -/

/-- The digits that a text starts with follow the rule, if there are any. -/
theorem digits_takeWhile {t : Text} (h : ¬ (t.takeWhile isDigit).isEmpty) :
    Digits t (t.takeWhile isDigit) (t.dropWhile isDigit) :=
  ⟨List.takeWhile_append_dropWhile.symm, by simpa using h, fun p hp =>
    isDigit_iff.mp (List.all_eq_true.mp List.all_takeWhile p hp)⟩

/-- No digit is left in front of what follows. -/
theorem not_isDigit_of_dropWhile {t more : Text} {p : CodePoint}
    (h : t.dropWhile isDigit = p :: more) : ¬ IsDigit p := by
  have hhead := List.head?_dropWhile_not isDigit t
  rw [h] at hhead
  rw [← isDigit_iff]
  simpa using hhead

/-- Where no digit follows them, the scanner takes exactly the digits of the rule. -/
theorem Digits.takeWhile_eq {t ds rest : Text} (h : Digits t ds rest)
    (hrest : ∀ p more, rest = p :: more → ¬ IsDigit p) :
    t.takeWhile isDigit = ds ∧ t.dropWhile isDigit = rest := by
  obtain ⟨rfl, -, hdigits⟩ := h
  have hds : ∀ p ∈ ds, isDigit p := fun p hp => isDigit_iff.mpr (hdigits p hp)
  -- nothing is taken of what follows
  have hnone : rest.takeWhile isDigit = [] ∧ rest.dropWhile isDigit = rest := by
    cases rest with
    | nil => exact ⟨rfl, rfl⟩
    | cons p more =>
      have hp : ¬ isDigit p := mt isDigit_iff.mp (hrest p more rfl)
      exact ⟨List.takeWhile_cons_of_neg hp, List.dropWhile_cons_of_neg hp⟩
  rw [List.takeWhile_append_of_pos hds, List.dropWhile_append_of_pos hds, hnone.1, hnone.2]
  exact ⟨List.append_nil ds, rfl⟩

theorem Digits.head {t ds rest : Text} (h : Digits t ds rest) :
    ∃ p more, t = p :: more ∧ isDigit p := by
  obtain ⟨rfl, hne, hds⟩ := h
  obtain ⟨p, ds, rfl⟩ := List.exists_cons_of_ne_nil hne
  exact ⟨p, ds ++ rest, rfl, isDigit_iff.mpr (hds p List.mem_cons_self)⟩

theorem Whole.head {t w rest : Text} (h : Whole t w rest) : ∃ p more, t = p :: more ∧ isDigit p := by
  cases h with
  | zero => exact ⟨_, _, rfl, by decide⟩
  | digits _ hdigits => exact hdigits.head

/-- Only a zero may be followed by a digit. -/
theorem whole_of_scanWhole? {t w rest : Text} (h : scanWhole? t = some (w, rest)) :
    Whole t w rest ∧ (1 < w.length → ∀ p more, rest = p :: more → ¬ IsDigit p) := by
  cases t with
  | nil => exact absurd h (by simp [scanWhole?])
  | cons p t =>
    rw [scanWhole?] at h
    split at h
    · next hzero =>
      obtain ⟨rfl, rfl⟩ := Prod.mk.inj (Option.some.inj h)
      subst hzero
      exact ⟨.zero, by simp⟩
    · next hzero =>
      split at h
      · next hdigit =>
        obtain ⟨rfl, rfl⟩ := Prod.mk.inj (Option.some.inj h)
        refine ⟨.digits hzero ⟨?_, by simp, ?_⟩, fun _ q more hrest => ?_⟩
        · rw [List.cons_append, List.takeWhile_append_dropWhile]
        · intro q hq
          rw [← isDigit_iff]
          rcases List.mem_cons.mp hq with rfl | hq
          · exact hdigit
          · exact List.all_eq_true.mp List.all_takeWhile q hq
        · exact not_isDigit_of_dropWhile hrest
      · exact absurd h (by simp)

/-- A whole part that no digit follows is found as it is. -/
theorem scanWhole?_of_whole {t w rest : Text} (h : Whole t w rest)
    (hrest : ∀ p more, rest = p :: more → ¬ IsDigit p) : scanWhole? t = some (w, rest) := by
  cases h with
  | zero => rw [scanWhole?, if_pos rfl]
  | @digits t rest ds p hp hdigits =>
    obtain ⟨q, more, rfl, hq⟩ := hdigits.head
    obtain ⟨htake, hdrop⟩ := hdigits.takeWhile_eq hrest
    rw [List.takeWhile_cons_of_pos hq] at htake
    rw [List.dropWhile_cons_of_pos hq] at hdrop
    obtain ⟨rfl, rfl⟩ := List.cons.inj htake
    rw [scanWhole?, if_neg hp, if_pos hq, hdrop]

/-- A fraction is found by its rule, and none is found only where the rule has none. -/
theorem fraction_scanFraction (t : Text) :
    Fraction t (scanFraction t).1 (scanFraction t).2 ∧
      ((scanFraction t).1 = [] →
        (scanFraction t).2 = t ∧ ∀ ds more, Fraction t ds more → ds = []) := by
  unfold scanFraction
  split
  · next rest =>
    split
    · next hempty =>
      refine ⟨.absent, fun _ => ⟨rfl, fun ds more h => ?_⟩⟩
      cases h with
      | absent => rfl
      | present hdigits =>
        -- then a digit would follow the point
        obtain ⟨p, more, rfl, hp⟩ := hdigits.head
        rw [List.takeWhile_cons_of_pos hp] at hempty
        exact absurd hempty (by simp)
    · next hdigits =>
      exact ⟨.present (digits_takeWhile hdigits), fun hempty => absurd hempty (by simpa using hdigits)⟩
  · next hpoint =>
    refine ⟨.absent, fun _ => ⟨rfl, fun ds more h => ?_⟩⟩
    cases h with
    | absent => rfl
    | present => exact absurd rfl (hpoint _)

/-- A fraction that neither a digit nor another fraction follows is found as it is. -/
theorem scanFraction_of_fraction {t ds rest : Text} (h : Fraction t ds rest)
    (hdigit : ∀ p more, rest = p :: more → ¬ IsDigit p)
    (hnone : ∀ ds more, Fraction rest ds more → ds = []) : scanFraction t = (ds, rest) := by
  cases h with
  | @present t ds rest hdigits =>
    obtain ⟨htake, hdrop⟩ := hdigits.takeWhile_eq hdigit
    have hne : ¬ ds.isEmpty := by simpa using hdigits.2.1
    simp only [scanFraction, htake, hdrop, if_neg hne]
  -- what the scanner finds here follows a rule, so it has found nothing
  | absent =>
    obtain ⟨hfound, -⟩ := fraction_scanFraction t
    have hempty := hnone _ _ hfound
    exact Prod.ext hempty ((fraction_scanFraction t).2 hempty).1

/-- The sign of an exponent is found by its rule … -/
theorem exponentSign_scanSign (t : Text) : ExponentSign t (scanSign t).1 (scanSign t).2 := by
  unfold scanSign
  split
  · exact .minus
  · exact .plus
  · exact .absent

/-- … and is the only one that the rule has in front of digits. -/
theorem scanSign_of_exponentSign {t digits ds rest : Text} {negative : Bool}
    (h : ExponentSign t negative digits) (hdigits : Digits digits ds rest) :
    scanSign t = (negative, digits) := by
  cases h with
  | minus => rfl
  | plus => rfl
  -- a digit is no sign
  | absent =>
    obtain ⟨p, more, rfl, hp⟩ := hdigits.head
    unfold scanSign
    split
    · next heq =>
      rw [(List.cons.inj heq).1] at hp
      exact absurd hp (by decide)
    · next heq =>
      rw [(List.cons.inj heq).1] at hp
      exact absurd hp (by decide)
    · rfl

/-- An exponent is found by its rule, and none is found only where the rule has none. -/
theorem exponent_scanExponent (t : Text) :
    Exponent t (scanExponent t).1 (scanExponent t).2 ∧
      ((scanExponent t).1 = none →
        (scanExponent t).2 = t ∧ ∀ e more, Exponent t e more → e = none) := by
  unfold scanExponent
  split
  · next p t =>
    split
    · next hmark =>
      dsimp only
      split
      · next hempty =>
        refine ⟨.absent, fun _ => ⟨rfl, fun e more h => ?_⟩⟩
        cases h with
        | absent => rfl
        -- then digits would follow the sign, and the scanner stands in front of the same ones
        | present _ hsign hdigits =>
          rw [scanSign_of_exponentSign hsign hdigits] at hempty
          obtain ⟨q, more, rfl, hq⟩ := hdigits.head
          rw [List.takeWhile_cons_of_pos hq] at hempty
          exact absurd hempty (by simp)
      · next hdigits =>
        exact ⟨.present hmark (exponentSign_scanSign t) (digits_takeWhile hdigits),
          fun hnone => absurd hnone (by simp)⟩
    · next hmark =>
      refine ⟨.absent, fun _ => ⟨rfl, fun e more h => ?_⟩⟩
      cases h with
      | absent => rfl
      | present hmark' => exact absurd hmark' hmark
  · refine ⟨.absent, fun _ => ⟨rfl, fun e more h => ?_⟩⟩
    cases h
    rfl

/-- An exponent that neither a digit nor another exponent follows is found as it is. -/
theorem scanExponent_of_exponent {t rest : Text} {e : Option (Bool × Text)} (h : Exponent t e rest)
    (hdigit : ∀ p more, rest = p :: more → ¬ IsDigit p)
    (hnone : ∀ e more, Exponent rest e more → e = none) : scanExponent t = (e, rest) := by
  cases h with
  | @present mark negative t digits ds rest hmark hsign hdigits =>
    obtain ⟨htake, hdrop⟩ := hdigits.takeWhile_eq hdigit
    have hne : ¬ ds.isEmpty := by simpa using hdigits.2.1
    simp only [scanExponent, if_pos hmark, scanSign_of_exponentSign hsign hdigits, htake, hdrop,
      if_neg hne]
  | absent =>
    obtain ⟨hfound, -⟩ := exponent_scanExponent t
    have hempty := hnone _ _ hfound
    exact Prod.ext hempty ((exponent_scanExponent t).2 hempty).1

/-- The numeral with a whole part, and what follows it. -/
def continued (negative : Bool) (found : Text × Text) : Numeral × Text :=
  (⟨negative, found.1, (scanFraction found.2).1, (scanExponent (scanFraction found.2).2).1⟩,
    (scanExponent (scanFraction found.2).2).2)

theorem scanNumeral?_minus (t : Text) :
    scanNumeral? (.char '-' :: t) = (scanWhole? t).map (continued true) := by
  simp only [scanNumeral?]
  cases scanWhole? t <;> rfl

theorem scanNumeral?_of_ne_minus {t : Text} (h : ∀ more, t ≠ .char '-' :: more) :
    scanNumeral? t = (scanWhole? t).map (continued false) := by
  simp only [scanNumeral?]
  cases scanWhole? t <;> rfl

theorem scanNumeral?_of_minus {t start w rest : Text} {negative : Bool} (h : Minus t negative start)
    (hwhole : Whole start w rest) :
    scanNumeral? t = (scanWhole? start).map (continued negative) := by
  cases h with
  | present => exact scanNumeral?_minus start
  | absent =>
    obtain ⟨p, more, rfl, hp⟩ := hwhole.head
    refine scanNumeral?_of_ne_minus fun more' heq => ?_
    rw [(List.cons.inj heq).1] at hp
    exact absurd hp (by decide)

/-- Every text has or lacks the minus in one way. -/
theorem exists_minus (t : Text) : ∃ negative start, Minus t negative start ∧
    scanNumeral? t = (scanWhole? start).map (continued negative) := by
  by_cases h : ∃ more, t = .char '-' :: more
  · obtain ⟨more, rfl⟩ := h
    exact ⟨true, more, .present, scanNumeral?_minus more⟩
  · exact ⟨false, t, .absent, scanNumeral?_of_ne_minus (not_exists.mp h)⟩

/-- **What is found is a number by the grammar**, and an integer of more than one digit that is
found ends where the grammar says that integers end. -/
theorem number_of_scanNumeral? {t rest : Text} {n : Numeral}
    (h : scanNumeral? t = some (n, rest)) :
    Number t n rest ∧
      (n.fraction = [] → n.exponent = none → 1 < n.whole.length → IntegerAt t n.whole.length) := by
  obtain ⟨negative, start, hminus, hscan⟩ := exists_minus t
  rw [hscan, Option.map_eq_some_iff] at h
  obtain ⟨⟨w, after⟩, hw, heq⟩ := h
  obtain ⟨rfl, rfl⟩ := Prod.mk.inj heq
  obtain ⟨hwhole, hdigit⟩ := whole_of_scanWhole? hw
  obtain ⟨hfraction, hnoFraction⟩ := fraction_scanFraction after
  obtain ⟨hexponent, hnoExponent⟩ := exponent_scanExponent (scanFraction after).2
  -- with neither fraction nor exponent found, none follows by the rules
  refine ⟨.mk hminus hwhole hfraction hexponent, fun hempty hnone hlength => ?_⟩
  dsimp only at hempty hnone hlength ⊢
  obtain ⟨hafter, hfractions⟩ := hnoFraction hempty
  obtain ⟨-, hexponents⟩ := hnoExponent hnone
  rw [hafter] at hexponents
  exact ⟨negative, start, w, after, hminus, hwhole, ⟨hdigit hlength, hfractions, hexponents⟩, rfl⟩

/-- What comes first in an exponent is neither a digit nor a point. -/
theorem Exponent.stops_before {t rest : Text} {e : Option (Bool × Text)} (h : Exponent t e rest)
    (hstops : Stops rest) :
    (∀ p more, t = p :: more → ¬ IsDigit p) ∧ ∀ ds more, Fraction t ds more → ds = [] := by
  cases h with
  | absent => exact ⟨hstops.1, hstops.2.1⟩
  | present hmark =>
    constructor
    · intro p more heq
      obtain ⟨rfl, rfl⟩ := List.cons.inj heq
      rw [← isDigit_iff]
      rcases hmark with rfl | rfl <;> decide
    · intro ds more h
      cases h with
      | absent => rfl
      | present => rcases hmark with h | h <;> exact absurd h (by decide)

/-- **A number that nothing of a number follows is found as it is.** -/
theorem scanNumeral?_of_number {t rest : Text} {n : Numeral} (h : Number t n rest)
    (hstops : Stops rest) : scanNumeral? t = some (n, rest) := by
  cases h with
  | @mk negative whole fraction exponent _ start afterWhole afterFraction _ hminus hwhole hfraction
      hexponent =>
    obtain ⟨hdigit, hpoint⟩ := hexponent.stops_before hstops
    have hscanFraction := scanFraction_of_fraction hfraction hdigit hpoint
    have hscanExponent := scanExponent_of_exponent hexponent hstops.1 hstops.2.2
    -- a fraction begins with its point
    have hafterWhole : ∀ p more, afterWhole = p :: more → ¬ IsDigit p := by
      cases hfraction with
      | absent => exact hdigit
      | present =>
        intro p more heq
        obtain ⟨rfl, rfl⟩ := List.cons.inj heq
        rw [← isDigit_iff]
        decide
    rw [scanNumeral?_of_minus hminus hwhole, scanWhole?_of_whole hwhole hafterWhole, Option.map_some]
    simp only [continued, hscanFraction, hscanExponent]

/-! ## Scalars -/

/-- A number starts with a digit, or with a minus and a digit. -/
theorem Number.head {t rest : Text} {n : Numeral} (h : Number t n rest) :
    ∃ p more, t = p :: more ∧
      (isDigit p ∨ p = .char '-' ∧ ∃ q more', more = q :: more' ∧ isDigit q) := by
  cases h with
  | mk hminus hwhole =>
    obtain ⟨p, more, rfl, hp⟩ := hwhole.head
    cases hminus with
    | present => exact ⟨_, _, rfl, .inr ⟨rfl, p, more, rfl, hp⟩⟩
    | absent => exact ⟨p, more, rfl, .inl hp⟩

/-- A name is found with its value … -/
theorem literal?_of_literal {name : Text} {v : Json} (h : Literal name v) (rest : Text) :
    literal? (name ++ rest) = some (v, rest) := by
  rw [literal_iff] at h
  simp only [literals, List.mem_cons, Prod.mk.injEq, List.not_mem_nil, or_false] at h
  rcases h with ⟨rfl, rfl⟩ | ⟨rfl, rfl⟩ | ⟨rfl, rfl⟩ | ⟨rfl, rfl⟩ | ⟨rfl, rfl⟩ | ⟨rfl, rfl⟩ <;> rfl

/-- … and nothing else is found as one. -/
theorem literal_of_literal? {t rest : Text} {v : Json} (h : literal? t = some (v, rest)) :
    ∃ name, Literal name v ∧ t = name ++ rest := by
  obtain ⟨⟨name, v'⟩, hmem, hfound⟩ := List.exists_of_findSome?_eq_some h
  obtain ⟨after, hafter, heq⟩ := Option.map_eq_some_iff.mp hfound
  obtain ⟨rfl, rfl⟩ := Prod.mk.inj heq
  exact ⟨name, literal_iff.mpr hmem, (List.isPrefixOf?_eq_some_iff_append_eq.mp hafter).symm⟩

/-- What the names start with. -/
def initials : Text := "ntfNI-"

/-- A name starts with one of the initials, and its second letter is no digit. -/
theorem Literal.head {name : Text} {v : Json} (h : Literal name v) :
    ∃ p q more, name = p :: q :: more ∧ p ∈ initials ∧ ¬ isDigit q := by
  cases h <;> exact ⟨_, _, _, rfl, by decide, by decide⟩

/-- A name may start with a minus, but then no digit follows. -/
theorem literal?_of_number {t rest : Text} {n : Numeral} (h : Number t n rest) :
    literal? t = none := by
  rw [Option.eq_none_iff_forall_ne_some]
  rintro ⟨v, after⟩ hfound
  obtain ⟨name, hname, rfl⟩ := literal_of_literal? hfound
  obtain ⟨p, q, more, rfl, hp, hq⟩ := hname.head
  obtain ⟨p', more', heq, hhead⟩ := h.head
  obtain ⟨rfl, rfl⟩ := List.cons.inj heq
  rcases hhead with hdigit | ⟨-, q', more', heq, hdigit⟩
  · have hinitials : ∀ p ∈ initials, ¬ isDigit p := by decide
    exact hinitials p hp hdigit
  · obtain ⟨rfl, rfl⟩ := List.cons.inj heq
    exact hq hdigit

/-- A numeral is converted to what it means, unless it is an integer literal that is too long. -/
theorem value_eq (n : Numeral) :
    n.value = if n.fraction = [] ∧ n.exponent = none ∧ maxIntegerDigits < n.whole.length
      then .error (.oversizedInteger n.whole.length) else .ok (meaning n) := by
  obtain ⟨negative, whole, fraction, exponent⟩ := n
  -- by the parts that the numeral has
  cases fraction with
  | nil =>
    cases exponent with
    | none => simp [Numeral.value, meaning]
    | some e =>
      obtain ⟨minus, digits⟩ := e
      cases minus <;> simp [Numeral.value, meaning, power]
  | cons p fraction =>
    cases exponent with
    | none => simp [Numeral.value, meaning, power]
    | some e =>
      obtain ⟨minus, digits⟩ := e
      cases minus <;> simp [Numeral.value, meaning, power]

/-- A name is read … -/
theorem readScalar_of_literal {name : Text} {v : Json} (h : Literal name v) (rest : Text) :
    readScalar (name ++ rest) = .ok (v, rest) := by
  rw [readScalar, literal?_of_literal h]

/-- … and so is a numeral, unless it is an integer literal that is too long. -/
theorem readScalar_of_number {t rest : Text} {n : Numeral} (h : Number t n rest)
    (hstops : Stops rest) :
    readScalar t = if n.fraction = [] ∧ n.exponent = none ∧ maxIntegerDigits < n.whole.length
      then .error (.oversizedInteger n.whole.length) else .ok (meaning n, rest) := by
  rw [readScalar, literal?_of_number h, scanNumeral?_of_number h hstops]
  dsimp only
  rw [value_eq]
  split
  · next hvalue =>
    split at hvalue
    · exact absurd hvalue (by simp)
    · next hfits => rw [if_neg hfits, Except.ok.inj hvalue]
  · next hvalue =>
    split at hvalue
    · next hlong => rw [if_pos hlong, Except.error.inj hvalue]
    · exact absurd hvalue (by simp)

end ModelProvision.Json.Grammar
