import ModelProvision.Fault
import ModelProvision.Number.Binary64

/-!
# Counting injections

A collector counts attempts by outcome and puts their durations into buckets. A duration counts in
the first bucket whose bound it does not exceed; one that is not a number counts in none, but makes
the sum of the seconds not a number either.

The two parts are written one after the other: an attempt whose duration cannot be added is counted
by its outcome all the same (`Collector.observe`).
-/

namespace ModelProvision

/-- How an attempt at injection ended. -/
inductive Outcome where
  | injected
  | skipped
  | failed
  deriving DecidableEq, Repr

namespace Outcome

def name : Outcome → String
  | injected => "injected"
  | skipped => "skipped"
  | failed => "failed"

/-- The outcome that a value names. -/
def ofValue? : Json → Option Outcome
  | .string t => [injected, skipped, failed].find? fun o => Text.ofString o.name = t
  | _ => none

end Outcome

/-- A duration in seconds as it is handed in. -/
inductive Duration where
  /-- A whole number of any size. -/
  | whole (n : Int)
  | seconds (x : Float)
  /-- A value of a type that cannot be added to seconds. -/
  | unusable (typeName : String)

/-- What a duration is exactly. -/
inductive Reading where
  | finite (q : Rat)
  | infinite (negative : Bool)
  | notANumber
  deriving DecidableEq

namespace Reading

def ofBinary64 (x : Binary64) : Reading :=
  match x with
  | .notANumber => .notANumber
  | .infinite negative => .infinite negative
  | .finite .. => .finite (x.toRat?.getD 0)

/-- Whether a reading lies below a bound or on it. -/
def isAtMost : Reading → Reading → Bool
  | .notANumber, _ => false
  | _, .notANumber => false
  | .infinite negative, .infinite negative' => negative || !negative'
  | .infinite negative, .finite _ => negative
  | .finite _, .infinite negative => !negative
  | .finite q, .finite r => q ≤ r

end Reading

/-- Attempts by outcome, and their durations by bucket. -/
structure Collector where
  /-- The outcomes so far and how often each was recorded, in the order of first use. -/
  counts : List (Outcome × Nat) := []
  /-- How many durations fell into each bucket, the unbounded one last. -/
  buckets : List Nat := List.replicate 15 0
  /-- The sum of the durations. -/
  sum : Float := 0

namespace Collector

/-- The bounds of the buckets. -/
def bounds : List Float :=
  [0.005, 0.01, 0.025, 0.05, 0.075, 0.1, 0.25, 0.5, 0.75, 1.0, 2.5, 5.0, 7.5, 10.0, 1.0 / 0.0]

/-- The bounds, exactly. -/
def exactBounds : List Reading := bounds.map fun b => .ofBinary64 (.ofFloat b)

/-- How often an outcome was recorded. -/
def count (c : Collector) (o : Outcome) : Nat := (Keyed.lookup? o c.counts).getD 0

/-- How many durations were put into a bucket. -/
def observations (c : Collector) : Nat := c.buckets.foldr (· + ·) 0

/-- Count an outcome. -/
def increment (o : Outcome) (c : Collector) : Collector :=
  { c with counts := Keyed.place Prod.fst (o, c.count o + 1) c.counts }

/-- Put a duration into its bucket and add it to the sum. -/
def place (reading : Reading) (seconds : Float) (c : Collector) : Collector :=
  { c with
    sum := c.sum + seconds
    buckets := match exactBounds.findIdx? reading.isAtMost with
      | none => c.buckets
      | some i => c.buckets.modify i (· + 1) }

/-- Observe a duration. A whole number has to fit into a double to be added to the sum. -/
def observe (d : Duration) (c : Collector) : Except Fault Unit × Collector :=
  match d with
  | .unusable typeName => (.error (.unusableDuration typeName), c)
  | .seconds x => (.ok (), c.place (.ofBinary64 (.ofFloat x)) x)
  | .whole n =>
    let x := Float.ofInt n
    -- the bucket is found by the number itself, the sum takes its nearest double
    if x.isInf then (.error .oversizedDuration, c) else (.ok (), c.place (.finite n) x)

/-- Record one attempt. -/
def record (c : Collector) (outcome : Json) (d : Duration) : Except Fault Unit × Collector :=
  match Outcome.ofValue? outcome with
  | none => (.error (.unknownOutcome outcome), c)
  | some o => (c.increment o).observe d

/-- Record attempts in order. -/
def recordAll (c : Collector) : List (Json × Duration) → List (Except Fault Unit) × Collector
  | [] => ([], c)
  | (outcome, d) :: rest =>
    let (result, c) := c.record outcome d
    let (results, c) := c.recordAll rest
    (result :: results, c)

/-- Record one attempt with a known outcome and a measured duration. -/
def recordMeasured (o : Outcome) (seconds : Float) (c : Collector) : Collector :=
  ((c.increment o).observe (.seconds seconds)).2

end Collector

/-- The metrics that are exposed together. -/
structure Registry where
  collector : Option Collector := none

/-- Register a new collector. Its metrics have fixed names, so a registry takes only one. -/
def Registry.register (r : Registry) : Except Fault Registry :=
  match r.collector with
  | some _ => .error .duplicateMetrics
  | none => .ok { collector := some {} }

end ModelProvision
