import ModelProvision.Text.CodePoint

/-!
# Names that ignore case

Names of settings and of log levels are ASCII. A name that was written in any case is matched by
mapping each of its letters; only a letter that can map to an ASCII letter has to be mapped, since a
name that keeps any other letter matches nothing. Those are the ASCII letters of the other case and
three more: the Kelvin sign, whose small form is `k`, and the dotless i and the long s, whose
capital forms are `I` and `S`. (The capital forms of the sharp s and of the ligatures have several
letters, and no level name contains `SS`, `FF`, `FI`, `FL` or `ST`.)
-/

namespace ModelProvision.LetterCase

/-- The small form of a letter, for names in small letters. -/
def small : CodePoint → CodePoint
  | .char c => if c = '\u212a' then 'k' else c.toLower
  | lone => lone

/-- The capital form of a letter, for names in capital letters. -/
def capital : CodePoint → CodePoint
  | .char c => if c = '\u0131' then 'I' else if c = '\u017f' then 'S' else c.toUpper
  | lone => lone

/-- A name in small letters. -/
def toSmall (name : Text) : Text := name.map small

/-- A name in capital letters. -/
def toCapital (name : Text) : Text := name.map capital

end ModelProvision.LetterCase
