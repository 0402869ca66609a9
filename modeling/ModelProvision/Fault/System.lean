import ModelProvision.Fault.Argument

/-!
# Faults of the operating system

A fault of the operating system is raised with a number, a reason and up to two paths. Some numbers
have a kind of their own, and a fault of no narrower kind that is raised with such a number is of
that kind (`SystemFault.kindOf`). The general kind has two older names.

With fewer or more arguments than these, a system fault is like any other one and shows what it was
raised with.
-/

namespace ModelProvision

/-- A fault of the operating system. -/
structure SystemFault where
  kind : String
  number : Json
  reason : Json
  /-- What the fault is about; the second path is where something was to be moved. -/
  paths : List Json

namespace SystemFault

/-- The kind of the faults that have no kind of their own. -/
def generalKind : String := "OSError"

/-- The kind of faults whose first path may be replaced by an amount, which is not shown. -/
def blockingKind : String := "BlockingIOError"

/-- The numbers that have a kind of their own. -/
def numbered : List (Int × String) :=
  [(1, "PermissionError"), (2, "FileNotFoundError"), (3, "ProcessLookupError"),
    (4, "InterruptedError"), (10, "ChildProcessError"), (11, blockingKind),
    (13, "PermissionError"), (17, "FileExistsError"), (20, "NotADirectoryError"),
    (21, "IsADirectoryError"), (32, "BrokenPipeError"), (103, "ConnectionAbortedError"),
    (104, "ConnectionResetError"), (108, "BrokenPipeError"), (110, "TimeoutError"),
    (111, "ConnectionRefusedError"), (114, blockingKind), (115, blockingKind)]

/-- The kinds of system faults. -/
def kinds : List String := generalKind :: "ConnectionError" :: numbered.map Prod.snd

/-- A kind under its present name. -/
def presentKind : String → String
  | "IOError" => generalKind
  | "EnvironmentError" => generalKind
  | kind => kind

/-- The kind of a fault that was raised as one of a kind and with a number; a truth value counts as
zero or one. -/
def kindOf (kind : String) (number : Json) : String :=
  if kind ≠ generalKind then kind
  else
    match number with
    | .int n => (Keyed.lookup? n numbered).getD generalKind
    | .bool b => (Keyed.lookup? (if b then 1 else 0) numbered).getD generalKind
    | _ => generalKind

/-- Whether the first path of a fault of a kind is an amount. -/
def isAmount (kind : String) (path : Json) : Bool := kind == blockingKind && path.isNumber

/-- An amount, which has to be a whole number that fits a word. -/
def checkAmount (amount : Json) : Except ArgumentFault Unit := do
  if (Json.word? (← amount.wholeArgument)).isNone then throw .oversizedAmount

/-- The paths among the arguments after the reason: the first and the third, the latter only with
the former. -/
def pathsOf (kind : String) : List Json → Except ArgumentFault (List Json)
  | [] => .ok []
  | .null :: _ => .ok []
  | path :: more =>
    if isAmount kind path then (checkAmount path).map fun _ => []
    else
      match more with
      | [_, .null] => .ok [path]
      | [_, second] => .ok [path, second]
      | _ => .ok [path]

/-- The system fault of a kind and the arguments it was raised with, which are the number, the
reason and at most three more. -/
def ofArguments? (kind : String) (arguments : List Json) :
    Option (Except ArgumentFault SystemFault) :=
  let kind := presentKind kind
  match arguments with
  | number :: reason :: more =>
    if kind ∈ kinds ∧ more.length ≤ 3 then
      let kind := kindOf kind number
      some ((pathsOf kind more).map fun paths => { kind, number, reason, paths })
    else none
  | _ => none

/-- The wording of a system fault. -/
def message (f : SystemFault) : Text :=
  let told : Text := "[Errno " ++ f.number.display ++ "] " ++ f.reason.display
  match f.paths with
  | [] => told
  | [path] => told ++ ": " ++ path.inspect
  | path :: second :: _ => told ++ ": " ++ path.inspect ++ " -> " ++ second.inspect

end SystemFault

end ModelProvision
