import Mathlib.Algebra.Order.Ring.Rat
import Mathlib.Order.WithBot
import ModelProvision.Metrics.Exposition
import ModelProvision.Proofs.Metrics.Counting

/-!
# Cumulative buckets

A duration goes into one bucket, the first that it fits, and buckets are told cumulatively. The
bounds ascend (`pairwise_exactBounds`), so of the sums it raises those of all bounds that are not
below it and no other ones (**`runningTotals_place`**). What it means not to be below is the order of
the rational numbers with the infinities (`Reading.isAtMost_iff`).
-/

namespace ModelProvision

/-! ## Readings as numbers -/

/-- A rational number or an infinity. -/
abbrev Extended := WithBot (WithTop ℚ)

namespace Reading

/-- The number that was read, if it is one. -/
def number? : Reading → Option Extended
  | finite q => some ((q : WithTop ℚ) : Extended)
  | infinite true => some ⊥
  | infinite false => some ⊤
  | notANumber => none

/-- One reading is at most another where both are numbers in that order. -/
theorem isAtMost_iff {r s : Reading} :
    r.isAtMost s = true ↔ ∃ x ∈ r.number?, ∃ y ∈ s.number?, x ≤ y := by
  -- no number is on neither side, and of the others the order is the one of the numbers
  cases r with
  | notANumber => simp [isAtMost, number?]
  | finite q =>
    cases s with
    | notANumber => simp [isAtMost, number?]
    | finite q' => simp [isAtMost, number?]
    | infinite negative => cases negative <;> simp [isAtMost, number?]
  | infinite negative =>
    cases s with
    | notANumber => cases negative <;> simp [isAtMost, number?]
    | finite q' => cases negative <;> simp [isAtMost, number?]
    | infinite negative' => cases negative <;> cases negative' <;> simp [isAtMost, number?]

/-- The order of readings is transitive, since that of numbers is. -/
theorem isAtMost_trans {r s t : Reading} (h : r.isAtMost s = true) (h' : s.isAtMost t = true) :
    r.isAtMost t = true := by
  rw [isAtMost_iff] at h h' ⊢
  obtain ⟨x, hx, y, hy, hxy⟩ := h
  obtain ⟨y', hy', z, hz, hyz⟩ := h'
  obtain rfl : y = y' := Option.mem_unique hy hy'
  exact ⟨x, hx, z, hz, hxy.trans hyz⟩

end Reading

/-! ## Running totals -/

namespace Exposition

theorem length_runningTotals (start : Nat) (counts : List Nat) :
    (runningTotals start counts).length = counts.length := by
  induction counts generalizing start with
  | nil => rfl
  | cons n rest ih => exact congrArg (· + 1) (ih (start + n))

/-- One more at the start is one more in each total. -/
theorem runningTotals_succ (start : Nat) (counts : List Nat) :
    runningTotals (start + 1) counts = (runningTotals start counts).map (· + 1) := by
  induction counts generalizing start with
  | nil => rfl
  | cons n rest ih =>
    unfold runningTotals
    rw [show start + 1 + n = start + n + 1 by omega, ih, List.map_cons]

/-- No total is below the start … -/
theorem le_of_mem_runningTotals {start m : Nat} {counts : List Nat}
    (h : m ∈ runningTotals start counts) : start ≤ m := by
  induction counts generalizing start with
  | nil => exact absurd h List.not_mem_nil
  | cons n rest ih =>
    rcases List.mem_cons.mp h with rfl | hrest
    · omega
    · have := ih hrest
      omega

/-- … or below one before it. -/
theorem pairwise_le_runningTotals (start : Nat) (counts : List Nat) :
    (runningTotals start counts).Pairwise (· ≤ ·) := by
  induction counts generalizing start with
  | nil => exact .nil
  | cons n rest ih => exact .cons (fun _ => le_of_mem_runningTotals) (ih (start + n))

/-- The last total is the sum of all. -/
theorem getLast?_runningTotals (start : Nat) {counts : List Nat} (h : counts ≠ []) :
    (runningTotals start counts).getLast? = some (start + counts.foldr (· + ·) 0) := by
  induction counts generalizing start with
  | nil => exact absurd rfl h
  | cons n rest ih =>
    cases rest with
    | nil => rfl
    | cons n' rest =>
      have hrest := ih (start + n) (List.cons_ne_nil n' rest)
      unfold runningTotals
      rw [List.getLast?_cons, hrest]
      show some (start + n + _) = some (start + (n + _))
      rw [Nat.add_assoc]

/-- The totals, one more at each bound that `p` allows. -/
def raised {β : Type} (p : β → Bool) (totals : List Nat) (bounds : List β) : List Nat :=
  List.zipWith (fun n b => if p b then n + 1 else n) totals bounds

theorem raised_map {β γ : Type} (p : γ → Bool) (f : β → γ) (totals : List Nat) (bounds : List β) :
    raised p totals (bounds.map f) = raised (p ∘ f) totals bounds :=
  List.zipWith_map_right

/-- Where all bounds are allowed all totals are raised, and where none is, none. -/
theorem raised_const {β : Type} {p : β → Bool} {v : Bool} {totals : List Nat} {bounds : List β}
    (hconst : ∀ b ∈ bounds, p b = v) (hlength : totals.length = bounds.length) :
    raised p totals bounds = totals.map fun n => if v then n + 1 else n := by
  induction bounds generalizing totals with
  | nil =>
    obtain rfl := List.eq_nil_of_length_eq_zero hlength
    rfl
  | cons b bounds ih =>
    match totals with
    | [] => exact absurd hlength (by simp)
    | n :: totals =>
      rw [List.forall_mem_cons] at hconst
      show (if p b then n + 1 else n) :: raised p totals bounds = _
      rw [hconst.1, ih hconst.2 (Nat.succ.inj hlength), List.map_cons]

/-- One more in the first bucket that `p` allows is one more in the totals of all that it allows, as
long as it allows all buckets behind one that it does. -/
theorem runningTotals_fill {β : Type} {p : β → Bool} {bounds : List β} {counts : List Nat}
    (hascending : bounds.Pairwise fun b b' => p b = true → p b' = true)
    (hlength : counts.length = bounds.length) (start : Nat) :
    runningTotals start (match bounds.findIdx? p with
      | none => counts
      | some i => counts.modify i (· + 1)) = raised p (runningTotals start counts) bounds := by
  -- on the bounds, for every start: each total starts from the one before
  induction bounds generalizing start counts with
  | nil =>
    obtain rfl := List.eq_nil_of_length_eq_zero hlength
    rfl
  | cons b bounds ih =>
    match counts with
    | [] => exact absurd hlength (by simp)
    | n :: counts =>
      rw [List.pairwise_cons] at hascending
      have hrest := ih hascending.2 (Nat.succ.inj hlength) (start + n)
      rw [List.findIdx?_cons]
      show _ = (if p b then start + n + 1 else start + n) ::
        raised p (runningTotals (start + n) counts) bounds
      by_cases hb : p b = true
      · -- this bucket takes it, and all later totals contain this one
        have hlater : ∀ b' ∈ bounds, p b' = true := fun b' hb' => hascending.1 b' hb' hb
        have hsame : (runningTotals (start + n) counts).length = bounds.length := by
          rw [length_runningTotals, Nat.succ.inj hlength]
        rw [if_pos hb, if_pos hb, raised_const hlater hsame]
        show (start + n + 1) :: runningTotals (start + n + 1) counts = _
        rw [runningTotals_succ]
        rfl
      · -- it goes into a later bucket, if any
        rw [if_neg hb, if_neg hb, ← hrest]
        cases bounds.findIdx? p with
        | none => rfl
        | some i => rfl

end Exposition

namespace Collector

open Exposition (runningTotals raised)

variable {c : Collector}

/-- The bounds ascend. -/
theorem pairwise_exactBounds :
    exactBounds.Pairwise fun b b' => b.isAtMost b' = true := by decide +kernel

/-- The bounds of the buckets, as numbers. -/
def limits : List Extended := bounds.filterMap fun b => (Reading.ofSeconds b).number?

theorem number?_exactBounds : exactBounds.map Reading.number? = limits.map some := by decide +kernel

theorem WellFormed.length_runningTotals (hc : c.WellFormed) :
    (runningTotals 0 c.buckets).length = limits.length := by
  have hlimits := congrArg List.length number?_exactBounds
  rw [List.length_map, List.length_map] at hlimits
  rw [Exposition.length_runningTotals, hc.buckets, hlimits]

theorem WellFormed.getLast?_runningTotals (hc : c.WellFormed) :
    (runningTotals 0 c.buckets).getLast? = some c.observations := by
  have hbuckets : c.buckets ≠ [] := by
    apply List.ne_nil_of_length_pos
    rw [hc.buckets]
    decide
  rw [Exposition.getLast?_runningTotals 0 hbuckets, Nat.zero_add, observations]

/-- Raising none leaves all sums. -/
theorem WellFormed.raised_of_none (hc : c.WellFormed) {p : Extended → Bool} (h : ∀ b, p b = false) :
    raised p (runningTotals 0 c.buckets) limits = runningTotals 0 c.buckets := by
  rw [Exposition.raised_const (fun b _ => h b) hc.length_runningTotals]
  exact List.map_id _

/-- The last bound is infinite. -/
theorem getLast?_limits : limits.getLast? = some ⊤ := by decide +kernel

/-- **A duration raises the sums of all bounds that it does not exceed, and no other.** -/
theorem runningTotals_place (hc : c.WellFormed) (reading : Reading) (x : Float) :
    runningTotals 0 (c.place reading x).buckets =
      raised (fun b => ∃ y ∈ reading.number?, y ≤ b) (runningTotals 0 c.buckets) limits := by
  let fits (b? : Option Extended) : Bool := ∃ y ∈ reading.number?, ∃ b ∈ b?, y ≤ b
  -- the first bucket that takes it is the one that is filled
  have hfill : runningTotals 0 (c.place reading x).buckets =
      raised reading.isAtMost (runningTotals 0 c.buckets) exactBounds :=
    Exposition.runningTotals_fill
      (pairwise_exactBounds.imp fun hbound hreading => Reading.isAtMost_trans hreading hbound)
      hc.buckets 0
  -- asked of readings and asked of numbers this is the same
  have hfits : reading.isAtMost = fits ∘ Reading.number? := by
    funext bound
    rw [Bool.eq_iff_iff, Reading.isAtMost_iff]
    exact decide_eq_true_iff.symm
  rw [hfill, hfits, ← Exposition.raised_map, number?_exactBounds, Exposition.raised_map]
  congr 1
  funext b
  simp [fits]

end Collector

end ModelProvision
