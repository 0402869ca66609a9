import ModelProvision.Fault.Argument
import ModelProvision.Text.Quoted

/-!
# Faults of character codings

A text may hold characters that a coding does not have, or that a translation does not know. A fault
about them tells the text, the place where these characters begin and the one where they have ended,
and a reason. Places are words, so the last one before the end is computed as a word.

Bytes that cannot be decoded have a kind of fault as well, but no value holds bytes, so such a fault
is never raised as it should be.
-/

namespace ModelProvision

/-- A fault of a coding, or of a translation, which has no coding. -/
structure CodingFault where
  coding : Option Text
  text : Text
  start : Int64
  stop : Int64
  reason : Text
  deriving DecidableEq, Repr

namespace CodingFault

/-- A kind of a coding fault by what is done with the text. -/
def encodingKind : String := "UnicodeEncodeError"

def decodingKind : String := "UnicodeDecodeError"

def translationKind : String := "UnicodeTranslateError"

/-- The kinds of coding faults. -/
def kinds : List String := [encodingKind, decodingKind, translationKind]

/-- The kind of a coding fault. -/
def kind (f : CodingFault) : String :=
  match f.coding with
  | none => translationKind
  | some _ => encodingKind

/-- A place in a text, as an argument. -/
def placeArgument (place : Json) : Except ArgumentFault Int64 := do
  match Json.word? (← place.wholeArgument) with
  | some word => return word
  | none => throw .oversizedPlace

/-- The coding fault of a kind and the arguments it was raised with. -/
def ofArguments (kind : String) (arguments : List Json) : Except ArgumentFault CodingFault :=
  let word (position : Nat) (j : Json) := j.textArgument none position
  if kind = translationKind then
    match arguments with
    | [text, start, stop, reason] => do
      return {
        coding := none
        text := ← word 1 text
        start := ← placeArgument start
        stop := ← placeArgument stop
        reason := ← word 4 reason }
    | other => .error (.notExactly "function" 4 other.length)
  else
    match arguments with
    | [coding, text, start, stop, reason] => do
      let coding ← word 1 coding
      let encoded ← if kind = decodingKind then pure [] else word 2 text
      let fault := {
        coding := some coding
        text := encoded
        start := ← placeArgument start
        stop := ← placeArgument stop
        reason := ← word 5 reason }
      -- what was to be decoded is looked at last
      if kind = decodingKind then throw (.notBytes text.typeName) else return fault
    | other => .error (.notExactly "function" 5 other.length)

/-- The character that a fault is about, when it is about a single one in the text. -/
def single? (f : CodingFault) : Option CodePoint :=
  if 0 ≤ f.start ∧ f.stop = f.start + 1 then f.text[f.start.toInt.toNat]? else none

/-- The wording of a coding fault. -/
def message (f : CodingFault) : Text :=
  let refusal : Text := match f.coding with
    | none => "can't translate"
    | some coding => "'" ++ coding ++ "' codec can't encode"
  let place : Text := match f.single? with
    | some p =>
      " character '" ++ Text.ofChars (Quoted.numbered p.toNat) ++
        s!"' in position {f.start.toInt}: "
    | none => s!" characters in position {f.start.toInt}-{(f.stop - 1).toInt}: "
  refusal ++ place ++ f.reason

end CodingFault

end ModelProvision
