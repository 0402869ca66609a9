import ModelProvision.Fault
import ModelProvision.Number.Binary64

/-!
# Values as keys

Entries may be told apart by any value but an array or an object. Numbers are the same key when they
are equal, whatever their types are; a truth value is the number zero or one.
-/

namespace ModelProvision.Json

/-- What tells a value apart from others. -/
inductive Key where
  | null
  | text (t : Text)
  | number (q : Rat)
  | infinite (negative : Bool)
  | notANumber
  deriving DecidableEq

/-- The key of a floating point number. -/
def Key.ofBinary64 (x : Binary64) : Key :=
  match x with
  | .finite .. => .number (x.toRat?.getD 0)
  | .infinite negative => .infinite negative
  | .notANumber => .notANumber

/-- A value as a key. -/
def asKey : Json → Except Fault Key
  | .null => .ok .null
  | .bool b => .ok (.number (if b then 1 else 0))
  | .int n => .ok (.number n)
  | .float x => .ok (.ofBinary64 (.ofFloat x))
  | .string t => .ok (.text t)
  | other => .error (.unusableKey other.typeName)

end ModelProvision.Json
