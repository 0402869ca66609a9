import ModelProvision.Metrics.Collector
import ModelProvision.Number.Layout

/-!
# Exposing metrics

The text in which a collector's numbers are scraped: for each metric a help line, a type line and
its samples. Buckets are cumulative, so the last one, without a bound, counts every duration that is
a number.
-/

namespace ModelProvision.Exposition

def counterName : String := "model_initializer_injections_total"

def histogramName : String := "model_initializer_injection_duration_seconds"

/-- Numbers as documents write them, but for the names of the infinities and of what is no
number. -/
def layout : NumberLayout :=
  { NumberLayout.document with infinity := "+Inf", negativeInfinity := "-Inf", notANumber := "NaN" }

/-- A positive number with more than six digits before its point is written with an exponent, which
always starts with a zero; one that documents write with an exponent stays as it is. -/
def number (x : Float) : String :=
  match Binary64.ofFloat x with
  | .finite false significand exponent =>
    let d := Binary64.shortest significand exponent
    if significand ≠ 0 ∧ 6 < d.point ∧ d.point ≤ layout.positionalBelow then
      let mantissa := match natDigits d.digits with
        | first :: second :: rest => first :: '.' :: second :: rest
        | single => single
      String.ofList (mantissa ++ ['e', '+', '0'] ++ natDigits (d.point - 1).toNat)
    else layout.write x
  | _ => layout.write x

/-- A number of occurrences. -/
def occurrences (n : Nat) : String := number (Float.ofNat n)

/-- The sums of all beginnings of a list. -/
def runningTotals (start : Nat) : List Nat → List Nat
  | [] => []
  | n :: rest => (start + n) :: runningTotals (start + n) rest

/-- A sample with one label. -/
def labelled (metric label value sample : String) : String :=
  metric ++ "\x7b" ++ label ++ "=\"" ++ value ++ "\"\x7d " ++ sample

/-- The counter: one sample for each outcome so far, in the order of first use. -/
def counterLines (c : Collector) : List String :=
  ["# HELP " ++ counterName ++ " Model initializer injection attempts partitioned by outcome.",
    "# TYPE " ++ counterName ++ " counter"] ++
  c.counts.map fun (o, n) => labelled counterName "outcome" o.name (occurrences n)

/-- The histogram: the cumulative buckets, the number of durations and their sum. -/
def histogramLines (c : Collector) : List String :=
  ["# HELP " ++ histogramName ++ " Model initializer injection duration seconds.",
    "# TYPE " ++ histogramName ++ " histogram"] ++
  (Collector.bounds.zip (runningTotals 0 c.buckets)).map (fun (bound, n) =>
    labelled (histogramName ++ "_bucket") "le" (number bound) (occurrences n)) ++
  [histogramName ++ "_count " ++ occurrences c.observations,
    histogramName ++ "_sum " ++ number c.sum]

/-- The lines of the text. -/
def lines (c : Collector) : List String := counterLines c ++ histogramLines c

end ModelProvision.Exposition
