import Mathlib.Data.List.Forall2
import Mathlib.Data.List.Induction
import ModelProvision.Proofs.Metrics.Buckets

/-!
# What a run of recordings leaves behind

One recording is one more of its outcome, and raises the sums of the bounds that its seconds do not
exceed (`count_record`, `runningTotals_record`). The two are written one after the other, so an
attempt is counted even if its seconds cannot be observed: a value that is not a number, and a whole
number too large for the sum of the seconds. By induction over the run a new collector ends up with
the numbers of its recordings, and has observed fewer than it counted exactly if there were such
seconds (**`recordAll_accounts`**).
-/

namespace ModelProvision

/-! ## What is handed in -/

namespace Outcome

/-- A value names an outcome if it is the text of its name. -/
def NamedBy (o : Outcome) (v : Json) : Prop := v = .string (.ofString o.name)

/-- The outcome that is looked up by its name is the one that is named. -/
theorem ofValue?_eq_some_iff {v : Json} {o : Outcome} : ofValue? v = some o ↔ o.NamedBy v := by
  constructor
  · intro h
    cases v with
    | string t =>
      have hname : Text.ofString o.name = t := by simpa using List.find?_some h
      exact congrArg Json.string hname.symm
    | _ => exact absurd h nofun
  · rintro rfl
    cases o with
    | injected => rfl
    | skipped => decide
    | failed => decide

theorem NamedBy.unique {v : Json} {o o' : Outcome} (h : o.NamedBy v) (h' : o'.NamedBy v) :
    o = o' := by
  rw [← ofValue?_eq_some_iff] at h h'
  exact Option.some.inj (h.symm.trans h')

instance (o : Outcome) (v : Json) : Decidable (o.NamedBy v) :=
  decidable_of_iff _ ofValue?_eq_some_iff

def Known (v : Json) : Prop := ∃ o : Outcome, o.NamedBy v

theorem known_iff {v : Json} : Known v ↔ (ofValue? v).isSome := by
  rw [Option.isSome_iff_exists]
  exact exists_congr fun _ => ofValue?_eq_some_iff.symm

instance (v : Json) : Decidable (Known v) := decidable_of_iff _ known_iff.symm

/-- A known outcome is one of the three, an unknown one is none. -/
theorem named_once (v : Json) :
    (if skipped.NamedBy v then 1 else 0) + (if injected.NamedBy v then 1 else 0) +
      (if failed.NamedBy v then 1 else 0) = if Known v then 1 else 0 := by
  simp only [← ofValue?_eq_some_iff, known_iff]
  cases ofValue? v with
  | none => rfl
  | some o => cases o <;> rfl

end Outcome

namespace Duration

/-- The seconds as a number, if they are one. -/
def number? : Duration → Option Extended
  | whole n => some (((n : ℚ) : WithTop ℚ) : Extended)
  | seconds x => (Reading.ofSeconds x).number?
  | unusable _ => none

/-- A whole number whose nearest double is infinite. -/
def Oversized : Duration → Prop
  | whole n => (Float.ofInt n).isInf = true
  | _ => False

instance : (d : Duration) → Decidable d.Oversized
  | whole n => inferInstanceAs (Decidable ((Float.ofInt n).isInf = true))
  | seconds _ => inferInstanceAs (Decidable False)
  | unusable _ => inferInstanceAs (Decidable False)

def observed? (d : Duration) : Option Extended := if d.Oversized then none else d.number?

/-- What is not observed is no number or too large. -/
theorem observed?_eq_none_iff {d : Duration} :
    d.observed? = none ↔ d.number? = none ∨ d.Oversized := by
  unfold observed?
  split
  · next h => simp [h]
  · next h => simp [h]

end Duration

/-- An outcome and the seconds that are recorded with it. -/
abbrev Recording := Json × Duration

namespace Recording

def Observed (r : Recording) : Prop := Outcome.Known r.1 ∧ r.2.observed?.isSome

/-- The seconds are observed, and the bound is not below them. -/
def Within (b : Extended) (r : Recording) : Prop :=
  Outcome.Known r.1 ∧ ∃ x ∈ r.2.observed?, x ≤ b

instance (r : Recording) : Decidable r.Observed := inferInstanceAs (Decidable (_ ∧ _))

instance (b : Extended) (r : Recording) : Decidable (r.Within b) :=
  inferInstanceAs (Decidable (_ ∧ _))

/-- The outcome is counted, but no number is observed. -/
def Missed (r : Recording) : Prop :=
  Outcome.Known r.1 ∧ (r.2.number? = none ∨ r.2.Oversized)

instance (r : Recording) : Decidable r.Missed := inferInstanceAs (Decidable (_ ∧ _))

/-- What a recording answers. -/
inductive Answers : Recording → Except Fault Unit → Prop
  | unknown {v : Json} {d : Duration} (h : ¬ Outcome.Known v) :
    Answers (v, d) (.error (.unknownOutcome v))
  | unusable {v : Json} {typeName : String} (h : Outcome.Known v) :
    Answers (v, .unusable typeName) (.error (.unusableDuration typeName))
  | oversized {v : Json} {d : Duration} (h : Outcome.Known v) (hd : d.Oversized) :
    Answers (v, d) (.error .oversizedDuration)
  | recorded {v : Json} {d : Duration} (h : Outcome.Known v)
    (hd : ∀ typeName, d ≠ .unusable typeName) (hsize : ¬ d.Oversized) : Answers (v, d) (.ok ())

/-- The outcomes in the order of first use. -/
def outcomes (calls : List Recording) : List Outcome :=
  (calls.filterMap fun r => Outcome.ofValue? r.1).eraseDups

theorem within_top_iff {r : Recording} : r.Within ⊤ ↔ r.Observed := by
  refine and_congr_right fun _ => ?_
  rw [Option.isSome_iff_exists]
  exact exists_congr fun x => and_iff_left le_top

/-- A recording with a known outcome is observed or missed. -/
theorem countP_known (calls : List Recording) :
    (calls.countP fun r => Outcome.Known r.1) =
      (calls.countP fun r => r.Observed) + calls.countP fun r => r.Missed := by
  rw [List.countP_eq_countP_filter_add calls _ fun r => r.2.observed?.isSome, List.countP_filter,
    List.countP_filter]
  congr 1
  · apply List.countP_congr
    intro r _
    rw [Bool.and_eq_true, decide_eq_true_eq, decide_eq_true_eq]
    exact Iff.rfl
  · apply List.countP_congr
    intro r _
    rw [Bool.and_eq_true, decide_eq_true_eq, decide_eq_true_eq, Bool.not_eq_true',
      Option.isSome_eq_false_iff, Option.isNone_iff_eq_none, Duration.observed?_eq_none_iff]
    exact Iff.rfl

/-- An unknown outcome is not used … -/
theorem outcomes_append_of_unknown (calls : List Recording) {r : Recording}
    (h : ¬ Outcome.Known r.1) : outcomes (calls ++ [r]) = outcomes calls := by
  rw [Outcome.known_iff, Option.not_isSome_iff_eq_none] at h
  have hlast : [r].filterMap (fun r => Outcome.ofValue? r.1) = [] := by simp [h]
  rw [outcomes, List.filterMap_append, hlast, List.append_nil, outcomes]

/-- … and a known one is listed the first time. -/
theorem outcomes_append_of_named (calls : List Recording) {r : Recording} {o : Outcome}
    (h : o.NamedBy r.1) :
    outcomes (calls ++ [r]) =
      if o ∈ outcomes calls then outcomes calls else outcomes calls ++ [o] := by
  rw [← Outcome.ofValue?_eq_some_iff] at h
  have hlast : [r].filterMap (fun r => Outcome.ofValue? r.1) = [o] := by simp [h]
  -- of the outcomes after it only a new one is kept
  have happend : outcomes (calls ++ [r]) = outcomes calls ++
      ([o].removeAll (calls.filterMap fun r => Outcome.ofValue? r.1)).eraseDups := by
    rw [outcomes, List.filterMap_append, hlast, List.eraseDups_append, outcomes]
  by_cases hold : o ∈ outcomes calls
  · rw [happend, if_pos hold]
    rw [outcomes, List.mem_eraseDups] at hold
    simp [List.removeAll, hold]
  · rw [happend, if_neg hold]
    rw [outcomes, List.mem_eraseDups] at hold
    simp [List.removeAll, List.eraseDups_cons, hold]

end Recording

namespace Collector

open Exposition (runningTotals raised)

variable {c : Collector}

/-! ## One recording -/

/-- A recording either does nothing or counts the outcome that is named and then observes. -/
theorem record_cases (c : Collector) (r : Recording) :
    (¬ Outcome.Known r.1 ∧ c.record r.1 r.2 = (.error (.unknownOutcome r.1), c)) ∨
    ∃ o : Outcome, o.NamedBy r.1 ∧ c.record r.1 r.2 = (c.increment o).observe r.2 := by
  unfold record
  cases hvalue : Outcome.ofValue? r.1 with
  | none =>
    have hunknown : ¬ Outcome.Known r.1 := by
      rw [Outcome.known_iff, hvalue]
      exact Bool.false_ne_true
    exact .inl ⟨hunknown, rfl⟩
  | some o => exact .inr ⟨o, Outcome.ofValue?_eq_some_iff.mp hvalue, rfl⟩

/-- A duration that is not refused is put into the bucket of its number, if it is one. -/
theorem observe_cases (c : Collector) (d : Duration) :
    (∃ typeName, d = .unusable typeName ∧
      c.observe d = (.error (.unusableDuration typeName), c)) ∨
    (d.Oversized ∧ c.observe d = (.error .oversizedDuration, c)) ∨
    ((∀ typeName, d ≠ .unusable typeName) ∧ ¬ d.Oversized ∧
      ∃ reading x, reading.number? = d.number? ∧ c.observe d = (.ok (), c.place reading x)) := by
  cases d with
  | unusable typeName => exact .inl ⟨typeName, rfl, rfl⟩
  | seconds x => exact .inr (.inr ⟨fun _ h => Duration.noConfusion h, not_false, _, x, rfl, rfl⟩)
  | whole n =>
    by_cases hsize : (Float.ofInt n).isInf = true
    · exact .inr (.inl ⟨hsize, if_pos hsize⟩)
    · exact .inr (.inr ⟨fun _ h => Duration.noConfusion h, hsize, .finite n, _, rfl, if_neg hsize⟩)

/-- A recording is answered by what it was handed. -/
theorem answers_record (c : Collector) (r : Recording) : r.Answers (c.record r.1 r.2).1 := by
  obtain ⟨v, d⟩ := r
  -- by the course that recording takes, and then by the one that observing takes
  rcases record_cases c (v, d) with ⟨hunknown, h⟩ | ⟨o, ho, h⟩
  · exact h ▸ .unknown hunknown
  · rw [h]
    rcases observe_cases (c.increment o) d with
      ⟨typeName, rfl, h⟩ | ⟨hsize, h⟩ | ⟨husable, hsize, reading, x, -, h⟩
    · exact h ▸ .unusable ⟨o, ho⟩
    · exact h ▸ .oversized ⟨o, ho⟩ hsize
    · exact h ▸ .recorded ⟨o, ho⟩ husable hsize

theorem counts_observe (c : Collector) (d : Duration) : (c.observe d).2.counts = c.counts := by
  rcases observe_cases c d with ⟨_, -, h⟩ | ⟨-, h⟩ | ⟨-, -, reading, x, -, h⟩
  · rw [h]
  · rw [h]
  · rw [h]
    rfl

theorem WellFormed.observe (hc : c.WellFormed) (d : Duration) : (c.observe d).2.WellFormed := by
  rcases observe_cases c d with ⟨_, -, h⟩ | ⟨-, h⟩ | ⟨-, -, reading, x, -, h⟩
  · exact h ▸ hc
  · exact h ▸ hc
  · exact h ▸ hc.place reading x

theorem WellFormed.record (hc : c.WellFormed) (r : Recording) :
    (c.record r.1 r.2).2.WellFormed := by
  rcases record_cases c r with ⟨-, h⟩ | ⟨o, -, h⟩
  · exact h ▸ hc
  · exact h ▸ (hc.increment o).observe r.2

theorem count_observe (c : Collector) (d : Duration) (o : Outcome) :
    (c.observe d).2.count o = c.count o := by
  unfold count
  rw [counts_observe]

/-- One more of the outcome that is named, and of no other. -/
theorem count_record (hc : c.WellFormed) (r : Recording) (o : Outcome) :
    (c.record r.1 r.2).2.count o = c.count o + if o.NamedBy r.1 then 1 else 0 := by
  rcases record_cases c r with ⟨hunknown, h⟩ | ⟨o', ho', h⟩
  · rw [h, if_neg fun ho => hunknown ⟨o, ho⟩]
    rfl
  · rw [h, count_observe, count_increment hc]
    by_cases ho : o = o'
    · subst ho
      rw [if_pos rfl, if_pos ho']
    · rw [if_neg ho, if_neg fun h => ho (h.unique ho'), Nat.add_zero]

/-- The sums are raised of the bounds that the observed number does not exceed. -/
theorem runningTotals_observe (hc : c.WellFormed) (d : Duration) :
    runningTotals 0 (c.observe d).2.buckets =
      raised (fun b => ∃ x ∈ d.observed?, x ≤ b) (runningTotals 0 c.buckets) limits := by
  rcases observe_cases c d with ⟨_, rfl, h⟩ | ⟨hsize, h⟩ | ⟨-, hsize, reading, x, hreading, h⟩
  · rw [h, hc.raised_of_none fun b => by simp [Duration.observed?, Duration.number?]]
  · rw [h, hc.raised_of_none fun b => by simp [Duration.observed?, hsize]]
  · rw [h, runningTotals_place hc, hreading, Duration.observed?, if_neg hsize]

/-- The sums are raised of the bounds that the seconds are within. -/
theorem runningTotals_record (hc : c.WellFormed) (r : Recording) :
    runningTotals 0 (c.record r.1 r.2).2.buckets =
      raised (fun b => r.Within b) (runningTotals 0 c.buckets) limits := by
  rcases record_cases c r with ⟨hunknown, h⟩ | ⟨o, ho, h⟩
  · rw [h, hc.raised_of_none fun b => decide_eq_false fun hwithin => hunknown hwithin.1]
  · rw [h, runningTotals_observe (hc.increment o)]
    show raised _ (runningTotals 0 c.buckets) limits = _
    congr 1
    funext b
    exact decide_eq_decide.mpr (and_iff_right ⟨o, ho⟩).symm

/-! ## Runs -/

/-- What recordings in order make of a new collector. -/
def recorded (calls : List Recording) : Collector := (recordAll {} calls).2

theorem recordAll_append (c : Collector) (before after : List Recording) :
    (c.recordAll (before ++ after)).2 = ((c.recordAll before).2.recordAll after).2 := by
  induction before generalizing c with
  | nil => rfl
  | cons r rest ih => exact ih (c.record r.1 r.2).2

theorem recorded_append_singleton (calls : List Recording) (r : Recording) :
    recorded (calls ++ [r]) = ((recorded calls).record r.1 r.2).2 :=
  recordAll_append {} calls [r]

/-- Each recording of a run is answered by what it was handed. -/
theorem answers_recordAll (c : Collector) (calls : List Recording) :
    calls.Forall₂ Recording.Answers (c.recordAll calls).1 := by
  induction calls generalizing c with
  | nil => exact .nil
  | cons r rest ih => exact .cons (answers_record c r) (ih (c.record r.1 r.2).2)

/-- After a run the collector is well formed. -/
theorem wellFormed_recorded (calls : List Recording) : (recorded calls).WellFormed := by
  induction calls using List.reverseRecOn with
  | nil => exact wellFormed_new
  | append_singleton before r ih =>
    rw [recorded_append_singleton]
    exact ih.record r

/-- Each outcome was counted as often as it was named … -/
theorem count_recorded (calls : List Recording) (o : Outcome) :
    (recorded calls).count o = calls.countP fun r => o.NamedBy r.1 := by
  induction calls using List.reverseRecOn with
  | nil => rfl
  | append_singleton before r ih =>
    rw [recorded_append_singleton, count_record (wellFormed_recorded before), ih,
      List.countP_append, List.countP_singleton]
    simp only [decide_eq_true_eq]

/-- … and the counts are in the order of first use. -/
theorem outcomes_recorded (calls : List Recording) :
    (recorded calls).counts.map Prod.fst = Recording.outcomes calls := by
  induction calls using List.reverseRecOn with
  | nil => rfl
  | append_singleton before r ih =>
    rw [recorded_append_singleton]
    rcases record_cases (recorded before) r with ⟨hunknown, h⟩ | ⟨o, ho, h⟩
    · rw [h, ih, Recording.outcomes_append_of_unknown before hunknown]
    · rw [h, counts_observe, Recording.outcomes_append_of_named before ho, ← ih]
      exact Keyed.keys_place Prod.fst (o, (recorded before).count o + 1) (recorded before).counts

/-- Each sum is the number of recordings within its bound. -/
theorem runningTotals_recorded (calls : List Recording) :
    runningTotals 0 (recorded calls).buckets =
      limits.map fun b => calls.countP fun r => r.Within b := by
  -- on the run from its end: each sum is raised by the recordings within its bound
  induction calls using List.reverseRecOn with
  | nil => decide +kernel
  | append_singleton before r ih =>
    rw [recorded_append_singleton, runningTotals_record (wellFormed_recorded before), ih, raised,
      List.zipWith_map_left, List.zipWith_self]
    apply List.map_congr_left
    intro b _
    rw [List.countP_append, List.countP_singleton]
    split <;> rfl

/-- All counts together are the recordings of a known outcome … -/
theorem attempts_recorded (calls : List Recording) :
    (recorded calls).attempts = calls.countP fun r => Outcome.Known r.1 := by
  unfold attempts
  rw [count_recorded, count_recorded, count_recorded]
  induction calls with
  | nil => rfl
  | cons r rest ih =>
    -- each recording names one of the three outcomes or none
    have hr := Outcome.named_once r.1
    simp only [List.countP_cons, decide_eq_true_eq]
    omega

/-- … and the observations are those whose seconds were observed. -/
theorem observations_recorded (calls : List Recording) :
    (recorded calls).observations = calls.countP fun r => r.Observed := by
  have hlast := (wellFormed_recorded calls).getLast?_runningTotals
  rw [runningTotals_recorded, List.getLast?_map, getLast?_limits] at hlast
  -- the last sum counts what is within the infinite bound, which is all that was observed
  rw [← Option.some.inj hlast]
  apply List.countP_congr
  intro r _
  simp [Recording.within_top_iff]

/-! ## What a run accounts for -/

/-- The collector holds the numbers of the recordings. -/
structure Accounts (c : Collector) (calls : List Recording) : Prop where
  counted : ∀ o, c.count o = calls.countP fun r => o.NamedBy r.1
  samples : c.counts = (Recording.outcomes calls).map fun o => (o, c.count o)
  once : (Recording.outcomes calls).Nodup
  cumulative : runningTotals 0 c.buckets = limits.map fun b => calls.countP fun r => r.Within b
  ascending : (runningTotals 0 c.buckets).Pairwise (· ≤ ·)
  unbounded : (runningTotals 0 c.buckets).getLast? = some c.observations
  observed : c.observations = calls.countP fun r => r.Observed
  missed : c.attempts = c.observations + calls.countP fun r => r.Missed
  bounded : c.observations ≤ c.attempts
  balanced : c.observations = c.attempts ↔ ∀ r ∈ calls, ¬ r.Missed

/-- A run is accounted for in every respect. -/
theorem accounts_recorded (calls : List Recording) : (recorded calls).Accounts calls := by
  have hwell := wellFormed_recorded calls
  have hobserved := observations_recorded calls
  have hmissed : (recorded calls).attempts =
      (recorded calls).observations + calls.countP fun r => r.Missed := by
    rw [attempts_recorded, hobserved, Recording.countP_known]
  constructor
  case counted => exact count_recorded calls
  case samples =>
    rw [← outcomes_recorded]
    exact Keyed.eq_map_lookup? hwell.nodup 0
  case once => exact outcomes_recorded calls ▸ hwell.nodup
  case cumulative => exact runningTotals_recorded calls
  case ascending => exact Exposition.pairwise_le_runningTotals 0 _
  case unbounded => exact hwell.getLast?_runningTotals
  case observed => exact hobserved
  case missed => exact hmissed
  case bounded => omega
  case balanced =>
    have hnone : (calls.countP fun r => r.Missed) = 0 ↔ ∀ r ∈ calls, ¬ r.Missed := by
      simp [List.countP_eq_zero]
    rw [← hnone]
    omega

/-- **After any run the counts and the sums are the numbers of the recordings.** A recording is
answered by what it was handed, and one of an unknown outcome leaves all as it is. -/
theorem recordAll_accounts (calls : List Recording) :
    calls.Forall₂ Recording.Answers (recordAll {} calls).1 ∧
    (∀ r : Recording, ¬ Outcome.Known r.1 → recorded (calls ++ [r]) = recorded calls) ∧
    (recorded calls).Accounts calls := by
  refine ⟨answers_recordAll {} calls, ?_, accounts_recorded calls⟩
  intro r hunknown
  rw [recorded_append_singleton]
  rcases record_cases (recorded calls) r with ⟨-, h⟩ | ⟨o, ho, -⟩
  · rw [h]
  · exact absurd ⟨o, ho⟩ hunknown

end Collector

namespace Sample

/-- One recording that is observed, one of an unknown outcome, and one each of seconds that are
infinite, no number, of a bad type and too large. -/
def recordings : List Recording :=
  [(.string "injected", .seconds 0.05), (.string "exploded", .seconds 0.1),
    (.string "failed", .seconds (1.0 / 0.0)), (.string "failed", .seconds (0.0 / 0.0)),
    (.string "skipped", .unusable "str"), (.string "injected", .whole (10 ^ 400))]

/-- A number that is not above the last bound, but is in no bucket. -/
def tooLarge : List Recording := [(.string "injected", .whole (10 ^ 400))]

end Sample

/-- Six recordings, of which five are counted and two observed. -/
theorem Collector.recordAll_accounts_mixed :
    recorded (Sample.recordings ++ [(.null, .whole 1)]) = recorded Sample.recordings ∧
      (recorded Sample.recordings).count .injected = 2 ∧
      (recorded Sample.recordings).attempts = 5 ∧
      (recorded Sample.recordings).observations = 2 := by
  obtain ⟨-, hunknown, haccounts⟩ := recordAll_accounts Sample.recordings
  have hinjected := (haccounts.counted .injected).trans (show _ = 2 by decide +kernel)
  have hobserved := haccounts.observed.trans (show _ = 2 by decide +kernel)
  have hmissed : (Sample.recordings.countP fun r => r.Missed) = 3 := by decide +kernel
  refine ⟨hunknown _ (by decide), hinjected, ?_, hobserved⟩
  rw [haccounts.missed, hobserved, hmissed]

/-- A recording may be missed although its seconds are a number. -/
theorem Collector.oversized_unobserved :
    (recorded Sample.tooLarge).attempts = 1 ∧ (recorded Sample.tooLarge).observations = 0 ∧
      (Sample.tooLarge.countP fun r => Outcome.Known r.1 ∧ ∃ x ∈ r.2.number?, x ≤ ⊤) = 1 := by
  refine ⟨?_, ?_, ?_⟩
  · decide +kernel
  · decide +kernel
  · decide +kernel

end ModelProvision
