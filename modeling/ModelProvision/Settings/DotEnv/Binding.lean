import ModelProvision.Text.Blank

/-!
# Bindings of an environment file

One binding assigns a value to a key:

* a binding is a key and, after `=`, a value; `export` may stand before the key and a comment after
  the value. A key without `=` has no value;
* a quoted value reaches up to its closing quote, over line ends too; any other value is the rest of
  the line, without a comment and without the blanks at its end;
* what does not fit is skipped up to the end of the line it fails in.

Each piece is a function from the text to what it stands for and the text after it; `scanBinding`
puts them together. Lines end with line feeds.
-/

namespace ModelProvision.DotEnv

open Blank

/-! ### Pieces of a line -/

/-- The text after the end of the current line. -/
def skipLine (t : Text) : Text := (t.dropWhile (· ≠ .char '\n')).drop 1

def skipInlineBlanks (t : Text) : Text := t.dropWhile isInlineBlank

/-- The text after the word `export`, which counts only with a blank behind it. -/
def skipExport (t : Text) : Text :=
  match ("export" : Text).isPrefixOf? t with
  | some (p :: rest) => if isInlineBlank p then skipInlineBlanks rest else t
  | _ => t

/-- A code point of a key without quotes. -/
def isKeyPoint (p : CodePoint) : Bool := p != '=' && p != '#' && !isBlank p

/-- A key and the text after it. A comment stands for a binding without a key. -/
def scanKey? (t : Text) : Option (Option Text × Text) :=
  match t with
  | [] => none
  | p :: rest =>
    if p = '#' then some (none, t)
    else if p = '\'' then
      -- a key between quotes is not empty, and its quote is closed
      match rest.takeWhile (· ≠ .char '\''), rest.dropWhile (· ≠ .char '\'') with
      | k :: key, _ :: rest => some (some (k :: key), rest)
      | _, _ => none
    else if isKeyPoint p then some (some (t.takeWhile isKeyPoint), t.dropWhile isKeyPoint)
    else none

/-! ### Values -/

/-- Cut at the first quote that has no backslash directly before it. -/
def cutAtOpenQuote? (quote : CodePoint) (escaped : Bool) : Text → Option (Text × Text)
  | [] => none
  | p :: rest =>
    if p = quote ∧ !escaped then some ([], rest)
    else (cutAtOpenQuote? quote (p = '\\') rest).map fun (value, rest) => (p :: value, rest)

/-- Cut at the last quote. -/
def cutAtLastQuote? (quote : CodePoint) : Text → Option (Text × Text)
  | [] => none
  | p :: rest =>
    match cutAtLastQuote? quote rest with
    | some (value, rest) => some (p :: value, rest)
    | none => if p = quote then some ([], rest) else none

/-- A quoted value and the text after its closing quote. Where every quote has a backslash before
it, the last one closes. -/
def cutAtQuote? (quote : CodePoint) (t : Text) : Option (Text × Text) :=
  cutAtOpenQuote? quote false t <|> cutAtLastQuote? quote t

/-- The escapes between single quotes. -/
def singleQuoteEscape? : CodePoint → Option Char
  | .char '\\' => some '\\'
  | .char '\'' => some '\''
  | _ => none

/-- The escapes between double quotes. -/
def doubleQuoteEscape? : CodePoint → Option Char
  | .char '\\' => some '\\'
  | .char '\'' => some '\''
  | .char '"' => some '"'
  | .char 'a' => some '\x07'
  | .char 'b' => some '\x08'
  | .char 'f' => some '\x0c'
  | .char 'n' => some '\n'
  | .char 'r' => some '\r'
  | .char 't' => some '\t'
  | .char 'v' => some '\x0b'
  | _ => none

/-- Replace the escapes; any other backslash stays. -/
def unescape (escape? : CodePoint → Option Char) : Text → Text
  | [] => []
  | [p] => [p]
  | p :: q :: rest =>
    if p = '\\' then
      match escape? q with
      | some c => c :: unescape escape? rest
      | none => p :: unescape escape? (q :: rest)
    else p :: unescape escape? (q :: rest)

/-- A line up to the first blanks that a `#` follows. -/
def cutComment : Text → Text
  | [] => []
  | p :: t =>
    if isBlank p then
      if (t.dropWhile isBlank).head? = some '#' then []
      else p :: (t.takeWhile isBlank ++ cutComment (t.dropWhile isBlank))
    else p :: cutComment t
  termination_by t => t.length
  decreasing_by
    · have := (List.dropWhile_suffix isBlank (l := t)).length_le
      simp only [List.length_cons]
      omega
    · simp

def trimEnd (t : Text) : Text := (t.reverse.dropWhile isBlank).reverse

/-- A value and the text after it; `none` for a quote that is never closed. -/
def scanValue? (t : Text) : Option (Text × Text) :=
  match t with
  | .char '\'' :: rest =>
    (cutAtQuote? '\'' rest).map fun (value, rest) => (unescape singleQuoteEscape? value, rest)
  | .char '"' :: rest =>
    (cutAtQuote? '"' rest).map fun (value, rest) => (unescape doubleQuoteEscape? value, rest)
  | _ => some (trimEnd (cutComment (t.takeWhile (· ≠ .char '\n'))), t.dropWhile (· ≠ .char '\n'))

/-! ### Bindings -/

/-- A key and its value, if it has one. -/
structure Binding where
  key : Text
  value : Option Text
  deriving DecidableEq, Repr

/-- The text after a line that holds nothing more than blanks and a comment. -/
def finishLine? (t : Text) : Option Text :=
  match skipInlineBlanks t with
  | [] => some []
  | .char '\n' :: rest => some rest
  | .char '#' :: rest => some (skipLine rest)
  | _ => none

/-- What follows a key: its value, if it has one, and the text after that. A failure leaves the text
in which the line is to be skipped. -/
def scanAssignment (t : Text) : Except Text (Option Text × Text) :=
  match skipInlineBlanks t with
  | .char '=' :: rest =>
    let rest := skipInlineBlanks rest
    match scanValue? rest with
    | some (value, rest) => .ok (some value, rest)
    | none => .error rest
  | rest => .ok (none, rest)

/-- The binding at the start of the text, if there is one, and the text after it or after the line
that was skipped. -/
def scanBinding (t : Text) : Option Binding × Text :=
  let t := skipExport (t.dropWhile isBlank)
  match scanKey? t with
  | none => (none, skipLine t)
  | some (key?, rest) =>
    match scanAssignment rest with
    | .error rest => (none, skipLine rest)
    | .ok (value?, rest) =>
      match finishLine? rest with
      | none => (none, skipLine rest)
      | some after => (key?.map fun key => ⟨key, value?⟩, after)

end ModelProvision.DotEnv
