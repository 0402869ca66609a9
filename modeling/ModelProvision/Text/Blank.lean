import ModelProvision.Text.CodePoint

/-!
# Blank characters

The white space of the Unicode standard as far as line-oriented texts are concerned: the separators,
the ASCII control characters that move the print position, the four information separators and the
next-line control.
-/

namespace ModelProvision.Blank

/-- White space, line ends included. -/
def isBlank (p : CodePoint) : Bool :=
  let n := p.toNat
  (0x09 ≤ n && n ≤ 0x0d) || (0x1c ≤ n && n ≤ 0x20) || n == 0x85 || n == 0xa0 || n == 0x1680 ||
    (0x2000 ≤ n && n ≤ 0x200a) || n == 0x2028 || n == 0x2029 || n == 0x202f || n == 0x205f ||
    n == 0x3000

/-- White space within a line: neither a line feed nor a carriage return. -/
def isInlineBlank (p : CodePoint) : Bool := isBlank p && p != '\n' && p != '\r'

end ModelProvision.Blank
