import ModelProvision.Fault.Argument

/-!
# Groups of faults

A group is raised with a text and a sequence of faults. Arguments are values, and no value is a
fault, so raising a group always ends in a fault about its arguments.
-/

namespace ModelProvision.FaultGroup

/-- The kinds of groups. -/
def kinds : List String := ["ExceptionGroup", "BaseExceptionGroup"]

/-- How messages name the operation that makes a group. -/
def operation : String := "BaseExceptionGroup.__new__()"

/-- What is wrong with the members of a group; arrays and texts are sequences. -/
def membersFault : Json → ArgumentFault
  | .array [] | .string [] => .emptySequence
  | .array _ | .string _ => .notFault 0
  | _ => .notSequence

/-- What is wrong with the arguments of a group. -/
def argumentFault : List Json → ArgumentFault
  | [text, members] =>
    match text.textArgument (some operation) 1 with
    | .error fault => fault
    | .ok _ => membersFault members
  | other => .notExactly operation 2 other.length

end ModelProvision.FaultGroup
