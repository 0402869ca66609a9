import ModelProvision.Json.Reader
import ModelProvision.Proofs.Merge.Occurrences
import ModelProvision.Proofs.Number.Nearest

/-!
# The grammar of JSON documents

Which texts are documents, and what each of them denotes, said without the reader. Every rule
relates a text to what stands at its start and to the rest of the text, so a rule never cuts a text
up: whatever two rules agree on is one text. The classes of characters are alphabets written out, the
number that digits stand for is a sum of powers, and a number with a point denotes the double that is
nearest to it among all doubles (`Nearest`). Nothing here is computed by a function of the reader; the
reader's types for the parts of a numeral and for the two sorts of compound values are used as they
are, and `maxDepth` is the reader's by nature.

* **`Content`** is the content of a string. Two escapes side by side that are the halves of one
  character have to be taken together.
* **`Number`** is a numeral, and **`Denotes`** says what it denotes.
* **`Spells`** puts these together, and **`Document`** is one value with blanks around it.
* **`Meets`** says where the values of a text stand, and how deep, as far as the text follows the
  grammar. The two limits of the reader are limits on what stands there
  (`IntegersFit`, `NestingFits`).
-/

namespace ModelProvision.Json.Grammar

/-- The four blanks: space, tab, line feed and carriage return. -/
def Space (p : CodePoint) : Prop := p ∈ (" \t\n\r" : Text)

/-- After blanks, or none, `t` goes on with `rest`. -/
def Blanks (t rest : Text) : Prop :=
  ∃ s, t = s ++ rest ∧ ∀ p ∈ s, Space p

/-! ## Strings -/

/-- A hexadecimal digit of either case and what it stands for. -/
def HexDigit (p : CodePoint) (n : Nat) : Prop :=
  ("0123456789abcdef" : Text)[n]? = some p ∨ ("0123456789ABCDEF" : Text)[n]? = some p

/-- Four hexadecimal digits, the first of them the most significant. -/
inductive CodeUnit : Text → Nat → Text → Prop where
  | mk {a b c d : CodePoint} {i j k l : Nat} {rest : Text}
      (ha : HexDigit a i) (hb : HexDigit b j) (hc : HexDigit c k) (hd : HexDigit d l) :
      CodeUnit (a :: b :: c :: d :: rest) (0x1000 * i + 0x100 * j + 0x10 * k + l) rest

/-- The two code units are the halves of the character: a high surrogate, which gives the upper ten
bits of its number beyond `0x10000`, and a low one, which gives the lower ten. -/
structure Halves (high low : Nat) (c : Char) : Prop where
  isHigh : 0xd800 ≤ high ∧ high ≤ 0xdbff
  isLow : 0xdc00 ≤ low ∧ low ≤ 0xdfff
  number : c.toNat = 0x10000 + (high - 0xd800) * 0x400 + (low - 0xdc00)

/-- No escape follows whose code unit makes one character together with `first`. -/
def Alone (first : Nat) (t : Text) : Prop :=
  ∀ digits second rest, t = .char '\\' :: .char 'u' :: digits → CodeUnit digits second rest →
    ∀ c, ¬ Halves first second c

/-- The eight escapes of one letter and what they stand for. -/
inductive ShortEscape : Char → Char → Prop where
  | quote : ShortEscape '"' '"'
  | backslash : ShortEscape '\\' '\\'
  | slash : ShortEscape '/' '/'
  | backspace : ShortEscape 'b' '\x08'
  | formFeed : ShortEscape 'f' '\x0c'
  | lineFeed : ShortEscape 'n' '\n'
  | carriageReturn : ShortEscape 'r' '\r'
  | tab : ShortEscape 't' '\t'

/-- The content of a string up to its closing quote, from after the opening one. -/
inductive Content : Text → Text → Text → Prop where
  | close {rest : Text} : Content (.char '"' :: rest) [] rest
  | plain {p : CodePoint} {t ps rest : Text}
      (hquote : p ≠ .char '"') (hbackslash : p ≠ .char '\\') (hcontrol : 0x20 ≤ p.toNat)
      (hrest : Content t ps rest) :
      Content (p :: t) (p :: ps) rest
  | short {letter c : Char} {t ps rest : Text}
      (hletter : ShortEscape letter c) (hrest : Content t ps rest) :
      Content (.char '\\' :: .char letter :: t) (.char c :: ps) rest
  | unit {unit : Nat} {p : CodePoint} {digits t ps rest : Text}
      (hunit : CodeUnit digits unit t) (halone : Alone unit t) (hp : p.toNat = unit)
      (hrest : Content t ps rest) :
      Content (.char '\\' :: .char 'u' :: digits) (p :: ps) rest
  | pair {high low : Nat} {c : Char} {digits digits' t ps rest : Text}
      (hhigh : CodeUnit digits high (.char '\\' :: .char 'u' :: digits'))
      (hlow : CodeUnit digits' low t) (hhalves : Halves high low c)
      (hrest : Content t ps rest) :
      Content (.char '\\' :: .char 'u' :: digits) (.char c :: ps) rest

/-! ## Numbers -/

/-- A decimal digit and what it stands for. -/
def Digit (p : CodePoint) (d : Nat) : Prop := ("0123456789" : Text)[d]? = some p

/-- A code point that stands for some digit. -/
def IsDigit (p : CodePoint) : Prop := ∃ d, Digit p d

/-- The number that digits stand for, the first of them the most significant. -/
inductive Amounts : Text → Nat → Prop where
  | none : Amounts [] 0
  | digit {p : CodePoint} {ds : Text} {d n : Nat} (hp : Digit p d) (hds : Amounts ds n) :
      Amounts (p :: ds) (d * 10 ^ ds.length + n)

/-- At least one digit. -/
def Digits (t ds rest : Text) : Prop :=
  t = ds ++ rest ∧ ds ≠ [] ∧ ∀ p ∈ ds, IsDigit p

inductive Minus : Text → Bool → Text → Prop where
  | present {t : Text} : Minus (.char '-' :: t) true t
  | absent {t : Text} : Minus t false t

/-- The whole part: a zero, or digits that do not start with one. -/
inductive Whole : Text → Text → Text → Prop where
  | zero {t : Text} : Whole (.char '0' :: t) [.char '0'] t
  | digits {t rest ds : Text} {p : CodePoint} (hp : p ≠ .char '0')
      (hdigits : Digits t (p :: ds) rest) : Whole t (p :: ds) rest

inductive Fraction : Text → Text → Text → Prop where
  | present {t ds rest : Text} (hdigits : Digits t ds rest) : Fraction (.char '.' :: t) ds rest
  | absent {t : Text} : Fraction t [] t

inductive ExponentSign : Text → Bool → Text → Prop where
  | minus {t : Text} : ExponentSign (.char '-' :: t) true t
  | plus {t : Text} : ExponentSign (.char '+' :: t) false t
  | absent {t : Text} : ExponentSign t false t

inductive Exponent : Text → Option (Bool × Text) → Text → Prop where
  | present {mark : CodePoint} {negative : Bool} {t digits ds rest : Text}
      (hmark : mark = .char 'e' ∨ mark = .char 'E') (hsign : ExponentSign t negative digits)
      (hdigits : Digits digits ds rest) : Exponent (mark :: t) (some (negative, ds)) rest
  | absent {t : Text} : Exponent t none t

inductive Number : Text → Numeral → Text → Prop where
  | mk {negative : Bool} {whole fraction : Text} {exponent : Option (Bool × Text)}
      {t t₁ t₂ t₃ rest : Text} (hminus : Minus t negative t₁) (hwhole : Whole t₁ whole t₂)
      (hfraction : Fraction t₂ fraction t₃) (hexponent : Exponent t₃ exponent rest) :
      Number t ⟨negative, whole, fraction, exponent⟩ rest

/-- Nothing follows that could go on with a number. -/
def Stops (rest : Text) : Prop :=
  (∀ p more, rest = p :: more → ¬ IsDigit p) ∧ (∀ ds more, Fraction rest ds more → ds = []) ∧
    ∀ e more, Exponent rest e more → e = none

/-- The power of ten that an exponent stands for. -/
inductive Power : Option (Bool × Text) → Int → Prop where
  | absent : Power none 0
  | plus {ds : Text} {n : Nat} (hds : Amounts ds n) : Power (some (false, ds)) n
  | minus {ds : Text} {n : Nat} (hds : Amounts ds n) : Power (some (true, ds)) (-n)

/-- A numeral without fraction and exponent denotes an integer, any other one the nearest double. The
sign is a sign of the double, so a zero may be negative. -/
inductive Denotes : Numeral → Json → Prop where
  | integer {negative : Bool} {whole : Text} {n : Nat} (hwhole : Amounts whole n) :
      Denotes ⟨negative, whole, [], none⟩ (.int (if negative then -n else n))
  | double {n : Numeral} {whole fraction : Nat} {e : Int} {x : Float}
      (hpoint : n.fraction ≠ [] ∨ n.exponent ≠ none) (hwhole : Amounts n.whole whole)
      (hfraction : Amounts n.fraction fraction) (he : Power n.exponent e)
      (hx : Nearest n.negative ((whole + fraction / 10 ^ n.fraction.length) * 10 ^ e) x) :
      Denotes n (.float x)

/-! ## Values -/

/-- The values that have a name. -/
inductive Literal : Text → Json → Prop where
  | null : Literal "null" .null
  | true : Literal "true" (.bool true)
  | false : Literal "false" (.bool false)
  | notANumber {x : Float} (hx : Binary64.ofFloat x = .notANumber) : Literal "NaN" (.float x)
  | infinity {x : Float} (hx : Binary64.ofFloat x = .infinite false) :
      Literal "Infinity" (.float x)
  | negativeInfinity {x : Float} (hx : Binary64.ofFloat x = .infinite true) :
      Literal "-Infinity" (.float x)

/-- What a rule of the grammar yields. -/
inductive Phrase where
  | value (v : Json)
  /-- A value with blanks around it. -/
  | element (v : Json)
  | elements (vs : List Json)
  | members (pairs : List (Text × Json))

/-- The name of a member, with blanks around it. -/
def Name (t name rest : Text) : Prop :=
  ∃ content after, Blanks t (.char '"' :: content) ∧ Content content name after ∧ Blanks after rest

/-- The text starts with a phrase and goes on with the rest. -/
inductive Spells : Text → Phrase → Text → Prop where
  | literal {name rest : Text} {v : Json} (hname : Literal name v) :
      Spells (name ++ rest) (.value v) rest
  | number {t rest : Text} {n : Numeral} {v : Json} (hnumber : Number t n rest)
      (hv : Denotes n v) :
      Spells t (.value v) rest
  | string {t content rest : Text} (hcontent : Content t content rest) :
      Spells (.char '"' :: t) (.value (.string content)) rest
  | emptyArray {t rest : Text} (hblanks : Blanks t (.char ']' :: rest)) :
      Spells (.char '[' :: t) (.value (.array [])) rest
  | array {t rest : Text} {vs : List Json}
      (helements : Spells t (.elements vs) (.char ']' :: rest)) :
      Spells (.char '[' :: t) (.value (.array vs)) rest
  | emptyObject {t rest : Text} (hblanks : Blanks t (.char '}' :: rest)) :
      Spells (.char '{' :: t) (.value (.object [])) rest
  | object {t rest : Text} {pairs members : List (Text × Json)}
      (hpairs : Spells t (.members pairs) (.char '}' :: rest))
      (hmembers : Keyed.Collapses pairs members) :
      Spells (.char '{' :: t) (.value (.object members)) rest
  | element {t start after rest : Text} {v : Json} (hbefore : Blanks t start)
      (hvalue : Spells start (.value v) after) (hafter : Blanks after rest) :
      Spells t (.element v) rest
  | lastElement {t rest : Text} {v : Json} (helement : Spells t (.element v) rest) :
      Spells t (.elements [v]) rest
  | elements {t next rest : Text} {v : Json} {vs : List Json}
      (helement : Spells t (.element v) (.char ',' :: next))
      (helements : Spells next (.elements vs) rest) :
      Spells t (.elements (v :: vs)) rest
  | lastMember {t start rest name : Text} {v : Json} (hname : Name t name (.char ':' :: start))
      (helement : Spells start (.element v) rest) :
      Spells t (.members [(name, v)]) rest
  | members {t start next rest name : Text} {v : Json} {pairs : List (Text × Json)}
      (hname : Name t name (.char ':' :: start))
      (helement : Spells start (.element v) (.char ',' :: next))
      (hmembers : Spells next (.members pairs) rest) :
      Spells t (.members ((name, v) :: pairs)) rest

/-- The whole text is a document that denotes `v`. -/
def Document (t : Text) (v : Json) : Prop := Spells t (.element v) []

/-! ## Places of values

A text that is no document follows the grammar up to some point. `Meets t depth u` says that up to
there a value is due at `u`, inside of `depth` arrays and objects that have not been closed. -/

/-- An element of an array is due at `u`, where `t` is what follows the opening bracket. -/
inductive ElementAt : Text → Text → Prop where
  | first {t u : Text} (hblanks : Blanks t u) : ElementAt t u
  | later {t next u : Text} {v : Json} (helement : Spells t (.element v) (.char ',' :: next))
      (hnext : ElementAt next u) : ElementAt t u

/-- The value of a member of an object is due at `u`, where `t` is what follows the opening brace. -/
inductive MemberAt : Text → Text → Prop where
  | first {t start u name : Text} (hname : Name t name (.char ':' :: start))
      (hblanks : Blanks start u) : MemberAt t u
  | later {t start next u name : Text} {v : Json} (hname : Name t name (.char ':' :: start))
      (helement : Spells start (.element v) (.char ',' :: next)) (hnext : MemberAt next u) :
      MemberAt t u

/-- Where a value is due at `t`, one is due at `u` as well, `depth` levels further down. -/
inductive Reaches : Text → Nat → Text → Prop where
  | here {t : Text} : Reaches t 0 t
  | array {t start u : Text} {depth : Nat} (helement : ElementAt t start)
      (hreaches : Reaches start depth u) : Reaches (.char '[' :: t) (depth + 1) u
  | object {t start u : Text} {depth : Nat} (hmember : MemberAt t start)
      (hreaches : Reaches start depth u) : Reaches (.char '{' :: t) (depth + 1) u

def Meets (t : Text) (depth : Nat) (u : Text) : Prop :=
  ∃ start, Blanks t start ∧ Reaches start depth u

/-- An integer literal of so many digits stands at `u`, with or without a minus. -/
def IntegerAt (u : Text) (digits : Nat) : Prop :=
  ∃ negative start whole rest, Minus u negative start ∧ Whole start whole rest ∧ Stops rest ∧
    whole.length = digits

/-- The code point that opens an array or an object. -/
def opening : Compound → CodePoint
  | .array => .char '['
  | .object => .char '{'

/-- No integer literal of the text has more than 4300 digits. -/
def IntegersFit (t : Text) : Prop :=
  ∀ depth u digits, Meets t depth u → IntegerAt u digits → digits ≤ 4300

/-- No array and no object of the text stands deeper than is read. -/
def NestingFits (t : Text) : Prop :=
  ∀ depth compound rest, Meets t depth (opening compound :: rest) → depth < maxDepth

end ModelProvision.Json.Grammar
