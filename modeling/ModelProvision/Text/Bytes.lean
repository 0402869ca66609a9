import ModelProvision.Text.CodePoint

/-!
# Bytes in texts

The environment holds bytes, and a text read from it has a code point for each of them: bytes that
spell a character together are that character, and a byte that does not belong to one is the
surrogate that stands as far after U+DC00. A text may be put there with surrogates for bytes that do
spell a character; `settled` is the text that is read back.

The bytes of a character follow UTF-8: the first one tells how many continue it, and a character is
spelled with as few bytes as possible. `length_spelled?_lt` says that spelling takes code points
away, so settling comes to an end, and `settled_ofChars` that a text without surrogates is read back
as it is.
-/

namespace ModelProvision.Text

/-- The byte that a code point stands for alone. -/
def byte? : CodePoint → Option Nat
  | .char _ => none
  | .surrogate n => if 0x480 ≤ n.val ∧ n.val < 0x500 then some (n.val - 0x400) else none

/-- The six bits that a byte adds to the number of a character. -/
def continuation? (p : CodePoint) : Option Nat :=
  match byte? p with
  | none => none
  | some byte => if byte < 0xc0 then some (byte - 0x80) else none

/-- A number continued by the next `count` bytes, and the text after them. -/
def continued : (count number : Nat) → Text → Option (Nat × Text)
  | 0, number, t => some (number, t)
  | _ + 1, _, [] => none
  | count + 1, number, p :: t =>
    match continuation? p with
    | none => none
    | some bits => continued count (number * 64 + bits) t

/-- What the first byte of a character tells: how many bytes continue it, the bits of its own, and
the least number that takes so many. -/
def opening? (p : CodePoint) : Option (Nat × Nat × Nat) :=
  match byte? p with
  | none => none
  | some byte =>
    if byte < 0xc0 then none
    else if byte < 0xe0 then some (1, byte - 0xc0, 0x80)
    else if byte < 0xf0 then some (2, byte - 0xe0, 0x800)
    else if byte < 0xf8 then some (3, byte - 0xf0, 0x10000)
    else none

/-- The character that a text starts to spell in bytes, and the text after it. -/
def spelled? : Text → Option (Char × Text)
  | [] => none
  | p :: t =>
    match opening? p with
    | none => none
    | some (count, bits, least) =>
      match continued count bits t with
      | none => none
      | some (number, rest) =>
        if least ≤ number ∧ number.isValidChar then some (Char.ofNat number, rest) else none

theorem length_continued_le {count number : Nat} {t rest : Text} {n : Nat}
    (h : continued count number t = some (n, rest)) : rest.length ≤ t.length := by
  induction count generalizing number t with
  | zero =>
    obtain ⟨_, rfl⟩ := Prod.mk.inj (Option.some.inj h)
    exact Nat.le_refl _
  | succ count ih =>
    cases t with
    | nil => simp [continued] at h
    | cons p t =>
      rw [continued] at h
      split at h
      · simp at h
      · have := ih h
        simp only [List.length_cons]
        omega

theorem length_spelled?_lt {t rest : Text} {c : Char} (h : spelled? t = some (c, rest)) :
    rest.length < t.length := by
  cases t with
  | nil => simp [spelled?] at h
  | cons p t =>
    rw [spelled?] at h
    split at h
    · simp at h
    · split at h
      · simp at h
      · next hcontinued =>
        split at h
        · obtain ⟨_, rfl⟩ := Prod.mk.inj (Option.some.inj h)
          have := length_continued_le hcontinued
          simp only [List.length_cons]
          omega
        · simp at h

/-- The text that is read back from the environment. -/
def settled : Text → Text
  | [] => []
  | p :: t =>
    match _h : spelled? (p :: t) with
    | some (c, rest) => .char c :: settled rest
    | none => p :: settled t
  termination_by t => t.length
  decreasing_by
    · exact length_spelled?_lt _h
    · simp

theorem settled_ofChars (cs : List Char) : settled (ofChars cs) = ofChars cs := by
  induction cs with
  | nil => simp [ofChars, settled]
  | cons c cs ih =>
    have hnone : spelled? (.char c :: ofChars cs) = none := rfl
    rw [ofChars, List.map_cons, settled, ← ofChars]
    split
    · next hsome => simp [hnone] at hsome
    · rw [ih]

end ModelProvision.Text
