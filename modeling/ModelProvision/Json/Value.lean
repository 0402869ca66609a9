import ModelProvision.Keyed
import ModelProvision.Text.CodePoint

/-!
# JSON values

What a JSON document denotes. Integers and floating point numbers are told apart, as a document
tells them apart; the members of an object are an ordered map (`Keyed.ofPairs`).
-/

namespace ModelProvision

/-- A JSON value. -/
inductive Json where
  | null
  | bool (b : Bool)
  | int (n : Int)
  | float (x : Float)
  | string (t : Text)
  | array (items : List Json)
  | object (members : List (Text × Json))
  deriving Inhabited

namespace Json

instance : Coe Text Json := ⟨string⟩

instance : Coe String Json := ⟨fun s => string s⟩

/-- The value of a text that may be absent. -/
def ofText? : Option Text → Json
  | none => .null
  | some t => string t

/-- The member called `name` of an object. -/
def member? (name : Text) : Json → Option Json
  | .object members => Keyed.lookup? name members
  | _ => none

/-- Whether a value counts as a number; a truth value does. -/
def isNumber : Json → Bool
  | .bool _ | .int _ | .float _ => true
  | _ => false

/-- Whether a value counts as given where an empty or zero one counts as left out. -/
def isGiven : Json → Bool
  | .null => false
  | .bool b => b
  | .int n => n != 0
  | .float x => x != 0
  | .string t => !t.isEmpty
  | .array items => !items.isEmpty
  | .object members => !members.isEmpty

end Json

end ModelProvision
