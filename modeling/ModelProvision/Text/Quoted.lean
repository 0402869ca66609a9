import ModelProvision.Text.CodePoint
import ModelProvision.Text.Printable

/-!
# Quoted text

How a message shows a text so that its ends and its invisible characters can be seen: between
quotes, with a backslash before the quote in use and before a backslash, and with every character
that is not printable spelled by its number.
-/

namespace ModelProvision.Quoted

/-- The last `width` hexadecimal digits of `n`, in small letters. -/
def hexDigits (width n : Nat) : List Char :=
  let digits := Nat.toDigits 16 n
  List.replicate (width - digits.length) '0' ++ digits

/-- A code point spelled by its number, in the shortest of the three forms that holds it. -/
def numbered (n : Nat) : List Char :=
  if n < 0x100 then '\\' :: 'x' :: hexDigits 2 n
  else if n < 0x10000 then '\\' :: 'u' :: hexDigits 4 n
  else '\\' :: 'U' :: hexDigits 8 n

/-- One code point of a quoted text. -/
def encodePoint (quote : Char) (p : CodePoint) : Text :=
  if p = quote ∨ p = '\\' then ['\\', p]
  else if p = '\n' then ['\\', 'n']
  else if p = '\r' then ['\\', 'r']
  else if p = '\t' then ['\\', 't']
  else if Printable.isPrintable p.toNat then [p]
  else .ofChars (numbered p.toNat)

/-- Double quotes are used for a text that has a single quote and no double one. -/
def quoteFor (t : Text) : Char :=
  if .char '\'' ∈ t ∧ .char '"' ∉ t then '"' else '\''

/-- A text between quotes. -/
def encode (t : Text) : Text :=
  let quote := quoteFor t
  .char quote :: (t.flatMap (encodePoint quote) ++ [.char quote])

end ModelProvision.Quoted
