import ModelProvision.Json.Value
import ModelProvision.Number.Layout
import ModelProvision.Text.Quoted

/-!
# Values in messages

A message shows a text as it is when the text is the whole of what is shown (`display`), and quoted
when it is part of a larger value (`inspect`). All other values look the same in both places.
-/

namespace ModelProvision.Json

/-- The word that messages use for the type of a value. -/
def typeName : Json → String
  | .null => "NoneType"
  | .bool _ => "bool"
  | .int _ => "int"
  | .float _ => "float"
  | .string _ => "str"
  | .array _ => "list"
  | .object _ => "dict"

/-- Texts with a comma and a space between them. -/
def separated (texts : List Text) : Text := List.intercalate ", " texts

mutual

/-- A value as part of a larger one. -/
def inspect : Json → Text
  | .null => "None"
  | .bool b => if b then "True" else "False"
  | .int n => toString n
  | .float x => NumberLayout.document.write x
  | .string t => Quoted.encode t
  | .array items => "[" ++ separated (inspectItems items) ++ "]"
  | .object members => "\x7b" ++ separated (inspectMembers members) ++ "\x7d"

def inspectItems : List Json → List Text
  | [] => []
  | item :: items => inspect item :: inspectItems items

def inspectMembers : List (Text × Json) → List Text
  | [] => []
  | (name, value) :: members =>
    (Quoted.encode name ++ ": " ++ inspect value) :: inspectMembers members

end

/-- A value as the whole of what is shown. -/
def display : Json → Text
  | .string t => t
  | value => inspect value

/-- A list of arguments: nothing for none, a single one by itself, several in parentheses. -/
def displayArguments : List Json → Text
  | [] => ""
  | [single] => single.display
  | several => "(" ++ separated (inspectItems several) ++ ")"

end ModelProvision.Json
