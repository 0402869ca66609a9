import ModelProvision.Json.Value
import ModelProvision.Number.Nearest

/-!
# Reading JSON documents

The reader accepts the JSON grammar, and beyond it the three floating point names `NaN`, `Infinity`
and `-Infinity`. It works on what is left of the text, so a rejection carries the text from the
offending place on; `Location.before` turns that into line and column.

The pieces come first (blanks, strings, numbers, literal names), each a function from the text to
what it denotes and the text after it. `readValue` and the two list readers put them together. They
call each other at most twice per code point, so `read` hands them twice the length of the text as
fuel and never runs out. What may run out is the depth to which arrays and objects nest: a text that
goes deeper than `maxDepth` is refused where it does, whatever follows.
-/

namespace ModelProvision.Json

/-- Why a text is not a JSON document. -/
inductive Complaint where
  | byteOrderMark
  | expectingValue
  | expectingName
  | expectingColon
  | expectingComma
  | unterminatedString
  | controlCharacter
  | invalidEscape
  | invalidUnicodeEscape
  | extraData
  deriving DecidableEq, Repr

/-- The wording of a complaint. -/
def Complaint.message : Complaint → String
  | byteOrderMark => "Unexpected UTF-8 BOM (decode using utf-8-sig)"
  | expectingValue => "Expecting value"
  | expectingName => "Expecting property name enclosed in double quotes"
  | expectingColon => "Expecting ':' delimiter"
  | expectingComma => "Expecting ',' delimiter"
  | unterminatedString => "Unterminated string starting at"
  | controlCharacter => "Invalid control character at"
  | invalidEscape => "Invalid \\escape"
  | invalidUnicodeEscape => "Invalid \\uXXXX escape"
  | extraData => "Extra data"

/-- The values that hold other values. -/
inductive Compound where
  | array
  | object
  deriving DecidableEq, Repr

def Compound.name : Compound → String
  | array => "array"
  | object => "object"

/-- A reader's refusal of a text. -/
inductive Refusal where
  /-- The text is no document; `rest` is the text from the offending place on. -/
  | malformed (complaint : Complaint) (rest : Text)
  /-- The text holds an integer of more digits than are converted. -/
  | oversizedInteger (digits : Nat)
  /-- A value of this sort is nested deeper than is read. -/
  | tooDeep (compound : Compound)
  deriving DecidableEq

/-! ### Blanks -/

/-- The white space of JSON. -/
def isSpace (p : CodePoint) : Bool := p == ' ' || p == '\t' || p == '\n' || p == '\r'

def skipSpace (t : Text) : Text := t.dropWhile isSpace

/-! ### Strings -/

/-- The value of a hexadecimal digit. -/
def hexDigit? : CodePoint → Option Nat
  | .char c =>
    if '0' ≤ c ∧ c ≤ '9' then some (c.toNat - '0'.toNat)
    else if 'a' ≤ c ∧ c ≤ 'f' then some (c.toNat - 'a'.toNat + 10)
    else if 'A' ≤ c ∧ c ≤ 'F' then some (c.toNat - 'A'.toNat + 10)
    else none
  | .surrogate _ => none

/-- The code unit of exactly four hexadecimal digits. A string does not end there, so at least one
more code point has to follow. -/
def fourHex? : Text → Option (CodePoint × Text)
  | a :: b :: c :: d :: next :: rest => do
    -- a sign or a blank is no digit, so nothing but four digits gets through
    let a ← hexDigit? a
    let b ← hexDigit? b
    let c ← hexDigit? c
    let d ← hexDigit? d
    some (.ofUnit (((a * 16 + b) * 16 + c) * 16 + d), next :: rest)
  | _ => none

/-- The character of two neighbouring escapes, given what the first one spells and the text after
it. -/
def secondHalf? (first : CodePoint) : Text → Option (Char × Text)
  | .char '\\' :: .char 'u' :: rest => do
    let (second, rest) ← fourHex? rest
    let c ← first.joined? second
    some (c, rest)
  | _ => none

/-- What four hexadecimal digits spell, together with those of the next escape if the two are the
halves of one character. -/
def unicodeEscape? (t : Text) : Option (CodePoint × Text) := do
  let (first, rest) ← fourHex? t
  match secondHalf? first rest with
  | some (c, rest) => some (.char c, rest)
  | none => some (first, rest)

/-- The eight escapes of one letter. -/
def shortEscape? : CodePoint → Option Char
  | .char '"' => some '"'
  | .char '\\' => some '\\'
  | .char '/' => some '/'
  | .char 'b' => some '\x08'
  | .char 'f' => some '\x0c'
  | .char 'n' => some '\n'
  | .char 'r' => some '\r'
  | .char 't' => some '\t'
  | _ => none

/-- What stands next in a string. -/
inductive Piece where
  | close (rest : Text)
  | point (p : CodePoint) (rest : Text)
  | bad (complaint : Complaint) (rest : Text)
  | missing

/-- The escape that follows a backslash. -/
def escape : Text → Piece
  | [] => .missing
  | p :: rest =>
    if p = 'u' then
      match unicodeEscape? rest with
      | some (spelled, rest) => .point spelled rest
      | none => .bad .invalidUnicodeEscape (p :: rest)
    else
      match shortEscape? p with
      | some c => .point c rest
      | none => .bad .invalidEscape ('\\' :: p :: rest)

/-- The next piece of a string: its closing quote, an escape, or a code point that stands for
itself. Characters below U+0020 have to be escaped. -/
def piece : Text → Piece
  | [] => .missing
  | p :: rest =>
    if p = '"' then .close rest
    else if p = '\\' then escape rest
    else if p.toNat < 0x20 then .bad .controlCharacter (p :: rest)
    else .point p rest

theorem length_of_fourHex? {t rest : Text} {p : CodePoint} (h : fourHex? t = some (p, rest)) :
    rest.length < t.length := by
  unfold fourHex? at h
  split at h
  · simp only [Option.bind_eq_bind, Option.bind_eq_some_iff, Option.some.injEq,
      Prod.mk.injEq] at h
    obtain ⟨_, _, _, _, _, _, _, _, _, rfl⟩ := h
    simp only [List.length_cons]
    omega
  · simp at h

theorem length_of_secondHalf? {first : CodePoint} {t rest : Text} {c : Char}
    (h : secondHalf? first t = some (c, rest)) : rest.length < t.length := by
  unfold secondHalf? at h
  split at h
  · simp only [Option.bind_eq_bind, Option.bind_eq_some_iff, Option.some.injEq,
      Prod.mk.injEq] at h
    obtain ⟨⟨_, _⟩, hex, _, _, _, rfl⟩ := h
    have := length_of_fourHex? hex
    simp only [List.length_cons]
    omega
  · simp at h

theorem length_of_unicodeEscape? {t rest : Text} {p : CodePoint}
    (h : unicodeEscape? t = some (p, rest)) : rest.length < t.length := by
  obtain ⟨⟨first, after⟩, hex, h⟩ := Option.bind_eq_some_iff.1 h
  have hafter := length_of_fourHex? hex
  dsimp only at h
  split at h
  · next half =>
    obtain ⟨_, rfl⟩ := Prod.mk.inj (Option.some.inj h)
    have := length_of_secondHalf? half
    omega
  · obtain ⟨_, rfl⟩ := Prod.mk.inj (Option.some.inj h)
    exact hafter

theorem length_of_escape {t rest : Text} {p : CodePoint} (h : escape t = .point p rest) :
    rest.length < t.length := by
  cases t with
  | nil => simp [escape] at h
  | cons q t =>
    simp only [escape] at h
    split at h
    · split at h
      · next spelled =>
        obtain ⟨rfl, rfl⟩ := Piece.point.inj h
        have := length_of_unicodeEscape? spelled
        simp only [List.length_cons]
        omega
      · simp at h
    · split at h
      · obtain ⟨_, rfl⟩ := Piece.point.inj h
        simp
      · simp at h

theorem length_of_piece {t rest : Text} {p : CodePoint} (h : piece t = .point p rest) :
    rest.length < t.length := by
  cases t with
  | nil => simp [piece] at h
  | cons q t =>
    simp only [piece] at h
    split at h
    · simp at h
    · split at h
      · have := length_of_escape h
        simp only [List.length_cons]
        omega
      · split at h
        · simp at h
        · obtain ⟨_, rfl⟩ := Piece.point.inj h
          simp

/-- A string, from after its opening quote; `opening` is the text from the opening quote on, where
an unterminated string is reported. -/
def readString (opening t : Text) : Except Refusal (Text × Text) :=
  match _h : piece t with
  | .close rest => .ok ([], rest)
  | .point p rest =>
    match readString opening rest with
    | .ok (ps, rest) => .ok (p :: ps, rest)
    | .error refusal => .error refusal
  | .bad complaint rest => .error (.malformed complaint rest)
  | .missing => .error (.malformed .unterminatedString opening)
  termination_by t.length
  decreasing_by exact length_of_piece _h

/-! ### Numbers -/

/-- The decimal digits; JSON has no others. -/
def isDigit (p : CodePoint) : Bool := '0'.toNat ≤ p.toNat && p.toNat ≤ '9'.toNat

/-- The parts of a number as written. -/
structure Numeral where
  negative : Bool
  whole : Text
  /-- The digits after the point, none when there is no point. -/
  fraction : Text
  /-- The sign (whether it is a minus) and the digits of the exponent. -/
  exponent : Option (Bool × Text)

/-- Whole part: a zero alone, or digits that start with another one. -/
def scanWhole? : Text → Option (Text × Text)
  | [] => none
  | p :: rest =>
    if p = '0' then some ([p], rest)
    else if isDigit p then some (p :: rest.takeWhile isDigit, rest.dropWhile isDigit)
    else none

/-- Fraction: a point with at least one digit after it, else nothing. -/
def scanFraction (t : Text) : Text × Text :=
  match t with
  | .char '.' :: rest =>
    if (rest.takeWhile isDigit).isEmpty then ([], t)
    else (rest.takeWhile isDigit, rest.dropWhile isDigit)
  | _ => ([], t)

/-- The sign of an exponent, and the text after it. -/
def scanSign : Text → Bool × Text
  | .char '-' :: rest => (true, rest)
  | .char '+' :: rest => (false, rest)
  | t => (false, t)

/-- Exponent: the mark, a sign or none, and at least one digit, else nothing. -/
def scanExponent (t : Text) : Option (Bool × Text) × Text :=
  match t with
  | p :: rest =>
    if p = 'e' ∨ p = 'E' then
      let (negative, rest) := scanSign rest
      if (rest.takeWhile isDigit).isEmpty then (none, t)
      else (some (negative, rest.takeWhile isDigit), rest.dropWhile isDigit)
    else (none, t)
  | [] => (none, t)

/-- The longest number that the text starts with. -/
def scanNumeral? (t : Text) : Option (Numeral × Text) := do
  let (negative, unsigned) := match t with
    | .char '-' :: rest => (true, rest)
    | _ => (false, t)
  let (whole, rest) ← scanWhole? unsigned
  let (fraction, rest) := scanFraction rest
  let (exponent, rest) := scanExponent rest
  some (⟨negative, whole, fraction, exponent⟩, rest)

/-- The number that decimal digits spell. -/
def digitsValue (digits : Text) : Nat :=
  digits.foldl (fun n p => 10 * n + (p.toNat - '0'.toNat)) 0

/-- Integers of more digits are not converted. -/
def maxIntegerDigits : Nat := 4300

/-- A numeral with neither fraction nor exponent is an integer. -/
def Numeral.value (n : Numeral) : Except Refusal Json :=
  if n.fraction.isEmpty ∧ n.exponent.isNone then
    if maxIntegerDigits < n.whole.length then .error (.oversizedInteger n.whole.length)
    else
      let magnitude : Int := digitsValue n.whole
      .ok (.int (if n.negative then -magnitude else magnitude))
  else
    let exponent : Int := match n.exponent with
      | none => 0
      | some (negative, digits) =>
        if negative then -(digitsValue digits : Int) else digitsValue digits
    .ok (.float (Decimal.nearest n.negative
      ⟨digitsValue (n.whole ++ n.fraction), exponent - n.fraction.length⟩))

/-! ### Values -/

/-- The values that have a name. -/
def literals : List (Text × Json) :=
  [("null", .null), ("true", .bool true), ("false", .bool false), ("NaN", .float (0.0 / 0.0)),
    ("Infinity", .float (1.0 / 0.0)), ("-Infinity", .float (-1.0 / 0.0))]

/-- The literal that the text starts with. -/
def literal? (t : Text) : Option (Json × Text) :=
  literals.findSome? fun (name, value) => (name.isPrefixOf? t).map fun rest => (value, rest)

/-- A literal or a number. -/
def readScalar (t : Text) : Except Refusal (Json × Text) :=
  match literal? t with
  | some found => .ok found
  | none =>
    match scanNumeral? t with
    | none => .error (.malformed .expectingValue t)
    | some (numeral, rest) =>
      match numeral.value with
      | .ok value => .ok (value, rest)
      | .error refusal => .error refusal

/-- Arrays and objects nest to this depth. -/
def maxDepth : Nat := 990

mutual

/-- The value that the text starts with; arrays and objects in it nest to `depth` at most. -/
def readValue : (fuel depth : Nat) → Text → Except Refusal (Json × Text)
  | 0, _, t => .error (.malformed .expectingValue t)
  | fuel + 1, depth, t =>
    match t with
    | .char '"' :: rest => do
      let (content, rest) ← readString t rest
      return (.string content, rest)
    | .char '[' :: rest =>
      match depth with
      | 0 => .error (.tooDeep .array)
      | depth + 1 =>
        match skipSpace rest with
        | .char ']' :: rest => .ok (.array [], rest)
        | items => do
          let (values, rest) ← readItems fuel depth items
          return (.array values, rest)
    | .char '{' :: rest =>
      match depth with
      | 0 => .error (.tooDeep .object)
      | depth + 1 =>
        match skipSpace rest with
        | .char '}' :: rest => .ok (.object [], rest)
        | members => do
          let (pairs, rest) ← readMembers fuel depth members
          return (.object (Keyed.ofPairs pairs), rest)
    | _ => readScalar t

/-- The items of an array from the first one on, up to the closing bracket. -/
def readItems : (fuel depth : Nat) → Text → Except Refusal (List Json × Text)
  | 0, _, t => .error (.malformed .expectingValue t)
  | fuel + 1, depth, t => do
    let (value, rest) ← readValue fuel depth t
    match skipSpace rest with
    | .char ']' :: rest => return ([value], rest)
    | .char ',' :: rest =>
      let (values, rest) ← readItems fuel depth (skipSpace rest)
      return (value :: values, rest)
    | other => .error (.malformed .expectingComma other)

/-- The members of an object from the first one on, up to the closing brace. -/
def readMembers : (fuel depth : Nat) → Text → Except Refusal (List (Text × Json) × Text)
  | 0, _, t => .error (.malformed .expectingName t)
  | fuel + 1, depth, t =>
    match t with
    | .char '"' :: rest => do
      let (name, rest) ← readString t rest
      match skipSpace rest with
      | .char ':' :: rest =>
        let (value, rest) ← readValue fuel depth (skipSpace rest)
        match skipSpace rest with
        | .char '}' :: rest => return ([(name, value)], rest)
        | .char ',' :: rest =>
          let (pairs, rest) ← readMembers fuel depth (skipSpace rest)
          return ((name, value) :: pairs, rest)
        | other => .error (.malformed .expectingComma other)
      | other => .error (.malformed .expectingColon other)
    | _ => .error (.malformed .expectingName t)

end

theorem readValue_zero (depth : Nat) (t : Text) :
    readValue 0 depth t = .error (.malformed .expectingValue t) := by
  rw [readValue]

theorem readItems_zero (depth : Nat) (t : Text) :
    readItems 0 depth t = .error (.malformed .expectingValue t) := by
  rw [readItems]

theorem readMembers_zero (depth : Nat) (t : Text) :
    readMembers 0 depth t = .error (.malformed .expectingName t) := by
  rw [readMembers]

/-- The value of a document: one value, with nothing but blanks around it and no byte order mark. -/
def read (t : Text) : Except Refusal Json :=
  if t.head? = some '\ufeff' then .error (.malformed .byteOrderMark t)
  else do
    let (value, rest) ← readValue (2 * t.length + 2) maxDepth (skipSpace t)
    match skipSpace rest with
    | [] => return value
    | extra => .error (.malformed .extraData extra)

/-! ### Where a text was refused -/

/-- A place in a text: code points are counted from zero, lines and columns from one. -/
structure Location where
  line : Nat
  column : Nat
  offset : Nat
  deriving DecidableEq, Repr

/-- The place at which `rest`, an end of `text`, begins. A line ends with a line feed. -/
def Location.before (text rest : Text) : Location :=
  let passed := text.take (text.length - rest.length)
  { line := passed.count (.char '\n') + 1
    column := (passed.reverse.takeWhile (· ≠ .char '\n')).length + 1
    offset := passed.length }

/-- What is wrong with a text, and where. -/
def malformedMessage (complaint : Complaint) (text rest : Text) : String :=
  let place := Location.before text rest
  s!"{complaint.message}: line {place.line} column {place.column} (char {place.offset})"

end ModelProvision.Json
