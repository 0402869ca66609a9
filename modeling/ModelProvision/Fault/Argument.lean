import ModelProvision.Json.Display

/-!
# Arguments of faults

A fault is raised with a list of arguments. Most kinds take any list; some take a certain number of
arguments, and some look at each of them too. Arguments that a kind does not take make a fault of
their own, an `ArgumentFault`. The number of arguments is looked at first, then one argument after
the other, and the first thing that is wrong is the one that is reported.
-/

namespace ModelProvision

/-- The arguments that a kind takes: those of these names, and some more that may be left out. -/
structure Signature where
  required : List String
  optional : Nat
  deriving DecidableEq, Repr

namespace Signature

/-- Whether a number of arguments is taken. -/
def admits (s : Signature) (given : Nat) : Bool :=
  s.required.length ≤ given && given ≤ s.required.length + s.optional

/-- Several words as an enumeration. -/
def enumerated : List String → String
  | [] => ""
  | [word] => word
  | [first, second] => first ++ " and " ++ second
  | several => ", ".intercalate several.dropLast ++ ", and " ++ several.getLastD ""

/-- What is wrong with a number of arguments. The fault itself counts as the first of them, except
where missing ones are named. -/
def complaint (s : Signature) (kind : String) (given : Nat) : String :=
  let missing := s.required.drop given
  let least := s.required.length + 1
  let expected := if s.optional = 0 then toString least
    else s!"from {least} to {least + s.optional}"
  if missing.isEmpty then
    s!"{kind}.__init__() takes {expected} positional arguments but {given + 1} were given"
  else
    s!"{kind}.__init__() missing {missing.length} required positional " ++
      (if missing.length = 1 then "argument: " else "arguments: ") ++
      enumerated (missing.map fun name => "'" ++ name ++ "'")

end Signature

/-- What is wrong with the arguments that a fault was raised with. -/
inductive ArgumentFault where
  /-- The kind has named arguments, and this is not a number of them. -/
  | mismatched (kind : String) (signature : Signature) (given : Nat)
  /-- An operation takes one number of arguments only. -/
  | notExactly (operation : String) (count given : Nat)
  | tooFew (least given : Nat)
  | tooMany (most given : Nat)
  /-- The argument at this position, counted from one, is no text but a value of this type. -/
  | notText (operation : Option String) (position : Nat) (typeName : String)
  | notWhole (typeName : String)
  /-- A place in a text that no word holds. -/
  | oversizedPlace
  /-- An amount that no word holds. -/
  | oversizedAmount
  | notBytes (typeName : String)
  | notIterable (typeName : String)
  /-- A line on which something ends without the column. -/
  | missingColumn
  /-- A group needs a list of the faults in it. -/
  | notSequence
  | emptySequence
  /-- The item at this index of a group is no fault. -/
  | notFault (index : Nat)
  deriving DecidableEq, Repr

namespace ArgumentFault

/-- The kind of an argument fault. -/
def kind : ArgumentFault → String
  | oversizedPlace => "OverflowError"
  | oversizedAmount | emptySequence | notFault _ => "ValueError"
  | _ => "TypeError"

/-- The wording of an argument fault. -/
def message : ArgumentFault → String
  | mismatched kind signature given => signature.complaint kind given
  | notExactly operation count given =>
    s!"{operation} takes exactly {count} arguments ({given} given)"
  | tooFew least given => s!"function takes at least {least} arguments ({given} given)"
  | tooMany most given => s!"function takes at most {most} arguments ({given} given)"
  | notText operation position typeName =>
    let place := s!"argument {position} must be str, not {typeName}"
    match operation with
    | none => place
    | some name => name ++ " " ++ place
  | notWhole typeName => s!"'{typeName}' object cannot be interpreted as an integer"
  | oversizedPlace => "Python int too large to convert to C ssize_t"
  | oversizedAmount => "cannot fit 'int' into an index-sized integer"
  | notBytes typeName => s!"a bytes-like object is required, not '{typeName}'"
  | notIterable typeName => s!"'{typeName}' object is not iterable"
  | missingColumn => "end_offset must be provided when end_lineno is provided"
  | notSequence => "second argument (exceptions) must be a sequence"
  | emptySequence => "second argument (exceptions) must be a non-empty sequence"
  | notFault index => s!"Item {index} of second argument (exceptions) is not an exception"

end ArgumentFault

namespace Json

/-! ### Reading one argument -/

/-- A text, given as the argument at a position, counted from one. -/
def textArgument (operation : Option String) (position : Nat) : Json → Except ArgumentFault Text
  | .string t => .ok t
  | .null => .error (.notText operation position "None")
  | other => .error (.notText operation position other.typeName)

/-- A whole number; a truth value counts as zero or one. -/
def wholeArgument : Json → Except ArgumentFault Int
  | .int n => .ok n
  | .bool b => .ok (if b then 1 else 0)
  | other => .error (.notWhole other.typeName)

/-- The word that holds a whole number, if it is in range. -/
def word? (n : Int) : Option Int64 :=
  if Int64.minValue.toInt ≤ n ∧ n ≤ Int64.maxValue.toInt then some (.ofInt n) else none

/-- The items that a value lists: those of an array, the characters of a text, the names of an
object. -/
def listedArgument : Json → Except ArgumentFault (List Json)
  | .array items => .ok items
  | .string t => .ok (t.map fun p => .string [p])
  | .object members => .ok (members.map fun m => .string m.1)
  | other => .error (.notIterable other.typeName)

end Json

end ModelProvision
