/-!
# Texts of code points

The escapes of a document can spell a surrogate that stands alone, which no `Char` can hold, and
what a document says turns up everywhere: in names, paths, settings and messages. A `Text` is
therefore a list of code points, surrogates included; a `String` is a text without them.
-/

namespace ModelProvision

/-- A Unicode code point. -/
inductive CodePoint where
  | char (c : Char)
  /-- The surrogate that stands `n` places after U+D800. -/
  | surrogate (n : Fin 0x800)
  deriving DecidableEq, Repr

namespace CodePoint

instance : Coe Char CodePoint := ⟨char⟩

/-- The number of a code point. -/
def toNat : CodePoint → Nat
  | char c => c.toNat
  | surrogate n => 0xd800 + n.val

/-- The code point of a number below `0x10000`, which is a character or a surrogate. -/
def ofUnit (n : Nat) : CodePoint :=
  if h : 0xd800 ≤ n ∧ n < 0xe000 then surrogate ⟨n - 0xd800, by omega⟩ else char (Char.ofNat n)

/-- The character that two surrogates spell when the first is a high and the second a low one. -/
def joined? : CodePoint → CodePoint → Option Char
  | surrogate high, surrogate low =>
    if high.val < 0x400 ∧ 0x400 ≤ low.val then
      some (Char.ofNat (0x10000 + high.val * 0x400 + (low.val - 0x400)))
    else none
  | _, _ => none

theorem toNat_ofUnit {n : Nat} (h : n < 0x10000) : (ofUnit n).toNat = n := by
  rw [ofUnit]
  split
  · simp only [toNat]
    omega
  · next hscalar =>
    have hvalid : n.isValidChar := by
      simp only [Nat.isValidChar]
      omega
    rw [toNat, Char.ofNat, dif_pos hvalid]
    rfl

end CodePoint

/-- A text of code points. -/
abbrev Text := List CodePoint

namespace Text

/-- The text of some characters. -/
def ofChars (cs : List Char) : Text := cs.map .char

/-- The text of a string. -/
def ofString (s : String) : Text := ofChars s.toList

instance : Coe String Text := ⟨ofString⟩

/-- The characters of a text without surrogates. -/
def chars? : Text → Option (List Char)
  | [] => some []
  | .char c :: rest => (chars? rest).map (c :: ·)
  | .surrogate _ :: _ => none

/-- The string of a text without surrogates. -/
def toString? (t : Text) : Option String := (chars? t).map String.ofList

/-- Order by code point; a text comes before its extensions. -/
def le : Text → Text → Bool
  | [], _ => true
  | _ :: _, [] => false
  | p :: ps, q :: qs => p.toNat < q.toNat || (p == q && le ps qs)

theorem ofString_inj {s t : String} : ofString s = ofString t ↔ s = t := by
  refine ⟨fun h => ?_, congrArg ofString⟩
  have hlist : s.toList = t.toList := (List.map_inj_right fun _ _ => CodePoint.char.inj).1 h
  rw [← String.ofList_toList (s := s), hlist, String.ofList_toList]

theorem chars?_ofChars (cs : List Char) : chars? (ofChars cs) = some cs := by
  induction cs with
  | nil => rfl
  | cons c cs ih => exact congrArg (Option.map (c :: ·)) ih

theorem toString?_ofString (s : String) : toString? (ofString s) = some s := by
  rw [toString?, ofString, chars?_ofChars, Option.map_some, String.ofList_toList]

end Text

end ModelProvision
