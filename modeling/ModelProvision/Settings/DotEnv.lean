import ModelProvision.Keyed
import ModelProvision.Settings.DotEnv.Progress

/-!
# Environment files

An environment file assigns values to names, one binding after another; a key without a value undoes
an earlier assignment.

`bindings` cuts a text into bindings; `assign` then goes through them in order and replaces each
reference `${NAME}` or `${NAME:-default}` by what `NAME` stands for by then. Carriage returns, alone
or before a line feed, end lines as line feeds do, so `unifyLineEnds` replaces them first.
-/

namespace ModelProvision.DotEnv

/-- Every line end as a line feed. -/
def unifyLineEnds : Text → Text
  | .char '\r' :: .char '\n' :: rest => '\n' :: unifyLineEnds rest
  | .char '\r' :: rest => '\n' :: unifyLineEnds rest
  | p :: rest => p :: unifyLineEnds rest
  | [] => []

/-- The bindings of a text, in order. -/
def bindings : Text → List Binding
  | [] => []
  | p :: t =>
    let scanned := scanBinding (p :: t)
    scanned.1.toList ++ bindings scanned.2
  termination_by t => t.length
  decreasing_by exact length_scanBinding_lt (List.cons_ne_nil p t)

/-! ### References -/

/-- The name and the default of a reference, from after its opening brace, and the text after its
closing brace. -/
def reference? (t : Text) : Option (Text × Text × Text) :=
  let isNamePoint (p : CodePoint) : Bool := p != '\x7d' && p != ':'
  let name := t.takeWhile isNamePoint
  match t.dropWhile isNamePoint with
  | .char '\x7d' :: rest => some (name, [], rest)
  | .char ':' :: .char '-' :: more =>
    match more.dropWhile (· ≠ .char '\x7d') with
    | _ :: rest => some (name, more.takeWhile (· ≠ .char '\x7d'), rest)
    | [] => none
  | _ => none

/-- Replace every reference; `resolve` is given its name and its default. Each step takes at least
one code point, so the length of the text is fuel enough. -/
def expand (resolve : Text → Text → Text) : (fuel : Nat) → Text → Text
  | _, [] => []
  | 0, t => t
  | fuel + 1, p :: t =>
    match p, t with
    | .char '$', .char '\x7b' :: inner =>
      match reference? inner with
      | some (name, default, rest) => resolve name default ++ expand resolve fuel rest
      | none => p :: expand resolve fuel t
    | _, _ => p :: expand resolve fuel t

/-! ### Assignment -/

/-- What the names of a file stand for, each at its first place with its last value. -/
abbrev Assigned := List (Text × Option Text)

/-- What a name stands for while a file is read: an earlier key of the file, which without a value
stands for nothing, else a variable of the environment, else the default. -/
def resolve (environment : List (Text × Text)) (assigned : Assigned) (name default : Text) : Text :=
  match Keyed.lookup? name assigned with
  | some value? => value?.getD []
  | none => (Keyed.lookup? name environment).getD default

/-- Carry out one binding. -/
def assignOne (environment : List (Text × Text)) (assigned : Assigned) (b : Binding) : Assigned :=
  let value? := b.value.map fun value => expand (resolve environment assigned) value.length value
  Keyed.place Prod.fst (b.key, value?) assigned

/-- What the names of a file stand for after all its bindings. -/
def assign (environment : List (Text × Text)) (file : Text) : Assigned :=
  (bindings (unifyLineEnds file)).foldl (assignOne environment) []

end ModelProvision.DotEnv
