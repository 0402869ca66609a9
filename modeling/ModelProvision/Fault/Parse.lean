import ModelProvision.Fault.Argument
import ModelProvision.Text.Slash

/-!
# Faults of parsing

The fault of a parser has a complaint, and may tell the file and the line that it is about. It is
raised with the complaint and a list of details: file, line, column and the text that was parsed,
and perhaps the line and the column where the fault ends. Without the details, or with more
arguments than these two, only the complaint counts.
-/

namespace ModelProvision

/-- A fault of parsing. -/
structure ParseFault where
  kind : String
  complaint : Json
  /-- The name of the file, without the directories it is in. -/
  file : Option Text := none
  line : Option Int := none

namespace ParseFault

/-- The kinds of parse faults. -/
def kinds : List String := ["SyntaxError", "IndentationError", "TabError"]

/-- The file of a detail; only a text names one. -/
def file? : Json → Option Text
  | .string path => some (Slash.last path)
  | _ => none

/-- The line of a detail; only a number is one, and one that no word holds counts as minus one. -/
def line? : Json → Option Int
  | .int n => some (if (Json.word? n).isSome then n else -1)
  | _ => none

/-- The parse fault of a complaint with details. -/
def withDetails (kind : String) (complaint : Json) (details : List Json) :
    Except ArgumentFault ParseFault :=
  match details with
  | [file, line, _, _] => .ok { kind, complaint, file := file? file, line := line? line }
  | [_, _, _, _, _] => .error .missingColumn
  | [file, line, _, _, _, _] => .ok { kind, complaint, file := file? file, line := line? line }
  | other =>
    if other.length < 4 then .error (.tooFew 4 other.length)
    else .error (.tooMany 6 other.length)

/-- The parse fault of a kind and the arguments it was raised with. -/
def ofArguments (kind : String) : List Json → Except ArgumentFault ParseFault
  | [complaint, details] => details.listedArgument >>= withDetails kind complaint
  | arguments => .ok { kind, complaint := arguments.headD .null }

/-- The wording of a parse fault. -/
def message (f : ParseFault) : Text :=
  match f.file, f.line with
  | none, none => f.complaint.display
  | some file, none => f.complaint.display ++ " (" ++ file ++ ")"
  | none, some line => f.complaint.display ++ s!" (line {line})"
  | some file, some line => f.complaint.display ++ " (" ++ file ++ s!", line {line})"

end ParseFault

end ModelProvision
