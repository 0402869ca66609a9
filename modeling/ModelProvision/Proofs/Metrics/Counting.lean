import ModelProvision.Metrics.Collector
import ModelProvision.Proofs.Merge.Lookup

/-!
# What recording does to the counts

Recording keeps a collector well formed (`Collector.WellFormed`): every outcome has one count, and
every bound has one bucket. Counting an outcome then raises its count and no other
(`count_increment`), and observing a duration that is a number raises what was observed, because the
last bucket takes whatever the others do not (`observations_place`). Both together are
**`oneMore_recordMeasured`**: an attempt whose duration was measured is counted once and observed
once.
-/

namespace ModelProvision

/-- The reading of measured seconds. -/
def Reading.ofSeconds (x : Float) : Reading := .ofBinary64 (.ofFloat x)

namespace Collector

variable {c : Collector} {o : Outcome}

/-- Every outcome has one count, and every bound has one bucket. -/
structure WellFormed (c : Collector) : Prop where
  nodup : (c.counts.map Prod.fst).Nodup
  buckets : c.buckets.length = exactBounds.length

theorem wellFormed_new : WellFormed {} := ⟨List.nodup_nil, rfl⟩

/-! ## Counting -/

/-- Counting an outcome raises its count and no other. -/
theorem count_increment (hc : c.WellFormed) (o o' : Outcome) :
    (c.increment o).count o' = if o' = o then c.count o + 1 else c.count o' := by
  rw [count, increment, Keyed.lookup?_place hc.nodup]
  split
  · rfl
  · rfl

theorem WellFormed.increment (hc : c.WellFormed) (o : Outcome) : (c.increment o).WellFormed :=
  ⟨Keyed.nodup_keys_place Prod.fst _ hc.nodup, hc.buckets⟩

/-! ## Observing -/

/-- Some bucket takes every number. -/
theorem exists_bucket {reading : Reading} (h : reading ≠ .notANumber) :
    ∃ i < exactBounds.length, exactBounds.findIdx? reading.isAtMost = some i := by
  -- the unbounded bucket takes what no other one does
  have hunbounded : Reading.infinite false ∈ exactBounds := by decide +kernel
  have hfits : reading.isAtMost (.infinite false) = true := by
    cases reading with
    | finite q => rfl
    | infinite negative => cases negative <;> rfl
    | notANumber => exact absurd rfl h
  have hsome : (exactBounds.findIdx? reading.isAtMost).isSome := by
    rw [List.findIdx?_isSome]
    exact List.any_eq_true.mpr ⟨_, hunbounded, hfits⟩
  obtain ⟨i, hi⟩ := Option.isSome_iff_exists.mp hsome
  exact ⟨i, (List.findIdx?_eq_some_iff_getElem.mp hi).1, hi⟩

/-- One more in one bucket is one more in all. -/
theorem foldr_add_modify {counts : List Nat} {i : Nat} (hi : i < counts.length) :
    (counts.modify i (· + 1)).foldr (· + ·) 0 = counts.foldr (· + ·) 0 + 1 := by
  induction counts generalizing i with
  | nil => exact absurd hi (Nat.not_lt_zero i)
  | cons n rest ih =>
    cases i with
    | zero => simp only [List.modify_zero_cons, List.foldr_cons]; omega
    | succ i =>
      simp only [List.modify_succ_cons, List.foldr_cons, ih (Nat.lt_of_succ_lt_succ hi)]
      omega

/-- A number that is placed is one more observed … -/
theorem observations_place (hc : c.WellFormed) {reading : Reading} (h : reading ≠ .notANumber)
    (x : Float) : (c.place reading x).observations = c.observations + 1 := by
  -- the bucket that takes it is one of the collector's
  obtain ⟨i, hi, hbucket⟩ := exists_bucket h
  rw [observations, place, hbucket]
  exact foldr_add_modify (hc.buckets ▸ hi)

/-- … in one of the buckets that were there. -/
theorem WellFormed.place (hc : c.WellFormed) (reading : Reading) (x : Float) :
    (c.place reading x).WellFormed := by
  refine ⟨hc.nodup, ?_⟩
  rw [Collector.place]
  cases exactBounds.findIdx? reading.isAtMost with
  | none => exact hc.buckets
  | some i => rw [List.length_modify, hc.buckets]

/-! ## One attempt -/

/-- The attempts that were counted, whatever they came to. -/
def attempts (c : Collector) : Nat := c.count .skipped + c.count .injected + c.count .failed

/-- From the first collector to the second, one attempt with this outcome was counted and
observed. -/
structure OneMore (o : Outcome) (c c' : Collector) : Prop where
  counted : c'.count o = c.count o + 1
  others : ∀ o', o' ≠ o → c'.count o' = c.count o'
  observed : c'.observations = c.observations + 1

/-- One more of an outcome is one more attempt. -/
theorem OneMore.attempts {c' : Collector} (h : OneMore o c c') : c'.attempts = c.attempts + 1 := by
  have hcounted := h.counted
  unfold Collector.attempts
  cases o with
  | skipped =>
    rw [hcounted, h.others .injected (by decide), h.others .failed (by decide)]
    omega
  | injected =>
    rw [hcounted, h.others .skipped (by decide), h.others .failed (by decide)]
    omega
  | failed =>
    rw [hcounted, h.others .skipped (by decide), h.others .injected (by decide)]
    omega

/-- Recording keeps a collector well formed. -/
theorem WellFormed.recordMeasured (hc : c.WellFormed) (o : Outcome) (x : Float) :
    (c.recordMeasured o x).WellFormed :=
  (hc.increment o).place _ x

/-- **A measured attempt is counted once and observed once.** -/
theorem oneMore_recordMeasured (hc : c.WellFormed) {x : Float}
    (hx : Reading.ofSeconds x ≠ .notANumber) : OneMore o c (c.recordMeasured o x) where
  counted := by
    have hcount := count_increment hc o o
    rwa [if_pos rfl] at hcount
  others := by
    intro o' hne
    have hcount := count_increment hc o o'
    rwa [if_neg hne] at hcount
  observed := observations_place (hc.increment o) hx x

end Collector

end ModelProvision
