import ModelProvision.Json.Value
import ModelProvision.Number.Layout
import ModelProvision.Text.Quoted

/-!
# Writing JSON documents

Documents are written in ASCII, without blanks: a character outside the printable ASCII range is
spelled by one escape, or by two for a character beyond the basic plane.
-/

namespace ModelProvision.Json

/-- One UTF-16 code unit as an escape. -/
def unitEscape (n : Nat) : String := String.ofList ('\\' :: 'u' :: Quoted.hexDigits 4 n)

/-- One code point of a written string. -/
def writePoint (p : CodePoint) : String :=
  match p with
  | .surrogate _ => unitEscape p.toNat
  | .char c =>
    let n := c.toNat
    if c = '"' then "\\\""
    else if c = '\\' then "\\\\"
    else if 0x20 ≤ n ∧ n < 0x7f then String.singleton c
    else if n < 0x10000 then unitEscape n
    else unitEscape (0xd800 + (n - 0x10000) / 0x400) ++
      unitEscape (0xdc00 + (n - 0x10000) % 0x400)

/-- A string with its quotes. -/
def writeText (t : Text) : String :=
  t.foldl (fun out p => out ++ writePoint p) "\"" ++ "\""

/-- How documents write doubles. -/
def numberLayout : NumberLayout :=
  { NumberLayout.document with
    infinity := "Infinity", negativeInfinity := "-Infinity", notANumber := "NaN" }

mutual

/-- The text of a value. -/
def write : Json → String
  | .null => "null"
  | .bool b => if b then "true" else "false"
  | .int n => toString n
  | .float x => numberLayout.write x
  | .string t => writeText t
  | .array items => "[" ++ ",".intercalate (writeItems items) ++ "]"
  | .object members => "\x7b" ++ ",".intercalate (writeMembers members) ++ "\x7d"

def writeItems : List Json → List String
  | [] => []
  | item :: items => write item :: writeItems items

def writeMembers : List (Text × Json) → List String
  | [] => []
  | (name, value) :: members => (writeText name ++ ":" ++ write value) :: writeMembers members

end

end ModelProvision.Json
