import ModelProvision.Controller.Command
import ModelProvision.Proofs.Injection.Account
import ModelProvision.Proofs.Injection.Effect
import ModelProvision.Proofs.Metrics.Counting

/-!
# Counting a run of attempts

A run is any attempts on any deployments that are counted in one collector (`Trial.countAll`), the way
the controller counts its own (`attempt_eq_trial`). Each of them makes one more of its outcome and
one more observation, or was interrupted and changes nothing (`recorded_count`). So after a run the
counts of a new collector are the numbers of the results, and together they are as many as the
observations (**`Trial.countAll_balances`**). An attempt is interrupted where its builder raises a
fault that lies outside of what counts as a failure; of which kind that is makes no difference.
-/

namespace ModelProvision

open Controller (State)

/-- An attempt with all it needs, and the seconds that the clock measures for it. -/
structure Trial where
  injector : Injector
  deployment : Deployment
  target : Target deployment.containers
  uri : Json
  serviceAccount : Option Text
  seconds : Float

namespace Trial

def report (t : Trial) : Report :=
  t.injector.inject t.deployment t.target t.uri t.serviceAccount

/-- Count the attempt in the collector under `key`. -/
def count (key : Text) (s : State) (t : Trial) : State :=
  { s with elapsed := t.seconds }.count (some key) t.report.outcome

def countAll (key : Text) (s : State) (trials : List Trial) : State :=
  trials.foldl (count key) s

/-- What an attempt makes of the collector that it is counted in. -/
def Recorded (t : Trial) (c c' : Collector) : Prop :=
  (∃ o, t.report.Accounted o ∧ Collector.OneMore o c c') ∨
    (t.report.Interrupted t.injector.builder ∧ c' = c)

/-- An attempt of the controller. -/
def ofAttempt (s : State) (m : Controller.Member) (a : Controller.Attempt) (d : Deployment)
    (target : Target d.containers) : Trial where
  injector := { builder := m.script.builder, settings := m.settings }
  deployment := d
  target := target
  uri := a.sourceUri
  serviceAccount := a.serviceAccountName
  seconds := s.elapsed

end Trial

/-! ## Collectors of a controller -/

namespace Controller.State

variable {s s' : State} {key : Text}

/-- Each key has one collector, and the one under `key` is well formed. -/
structure Counts (s : State) (key : Text) : Prop where
  distinct : (s.collectors.map Prod.fst).Nodup
  wellFormed : (s.collector key).WellFormed

theorem Counts.clocked (h : s.Counts key) (x : Float) : { s with elapsed := x }.Counts key :=
  ⟨h.distinct, h.wellFormed⟩

theorem count_none (s : State) (key? : Option Text) : s.count key? none = s := by
  cases key? <;> rfl

/-- A count goes to the collector of the key, with the seconds that the clock says … -/
theorem collector_count (h : s.Counts key) (o : Outcome) :
    (s.count (some key) (some o)).collector key = (s.collector key).recordMeasured o s.elapsed := by
  show (Keyed.lookup? key (Keyed.place Prod.fst (key, _) s.collectors)).getD {} = _
  rw [Keyed.lookup?_place h.distinct, if_pos rfl, Option.getD_some]

/-- … and that collector stays well formed. -/
theorem Counts.count (h : s.Counts key) (o? : Option Outcome) :
    (s.count (some key) o?).Counts key := by
  cases o? with
  | none => rwa [count_none]
  | some o =>
    refine ⟨Keyed.nodup_keys_place Prod.fst _ h.distinct, ?_⟩
    rw [collector_count h]
    exact h.wellFormed.recordMeasured o s.elapsed

/-- What a count does to the collectors depends on these and on the clock only. -/
theorem collectors_count_congr (hcollectors : s'.collectors = s.collectors)
    (helapsed : s'.elapsed = s.elapsed) (key? : Option Text) (o? : Option Outcome) :
    (s'.count key? o?).collectors = (s.count key? o?).collectors := by
  cases key? with
  | none => exact hcollectors
  | some key =>
    cases o? with
    | none => exact hcollectors
    | some o => simp only [State.count, State.collector, hcollectors, helapsed]

theorem logging_count (s : State) (key? : Option Text) (o? : Option Outcome) :
    (s.count key? o?).logging = s.logging := by
  cases key? <;> cases o? <;> rfl

theorem storeContainer_keeps (s : State) (ref : Option ContainerRef) (c : Container) :
    (s.storeContainer ref c).collectors = s.collectors ∧
      (s.storeContainer ref c).elapsed = s.elapsed ∧
      (s.storeContainer ref c).logging = s.logging := by
  unfold storeContainer
  split
  · exact ⟨rfl, rfl, rfl⟩
  · split
    · exact ⟨rfl, rfl, rfl⟩
    · exact ⟨rfl, rfl, rfl⟩
  · exact ⟨rfl, rfl, rfl⟩

/-- **The controller reports, counts and tells its own attempts no differently.** -/
theorem attempt_eq_trial (s : State) (m : Member) (a : Attempt) (d : Deployment)
    (target : Target d.containers) :
    (s.attempt m a d target).1 = (Trial.ofAttempt s m a d target).report ∧
      (s.attempt m a d target).2.collectors =
        (s.count m.collector (Trial.ofAttempt s m a d target).report.outcome).collectors ∧
      (s.attempt m a d target).2.logging =
        (s.logging.use .injector).sayAll (Trial.ofAttempt s m a d target).report.entries := by
  refine ⟨rfl, ?_, ?_⟩
  · unfold attempt
    -- what is stored before counting touches neither collectors nor clock
    apply collectors_count_congr
    · split
      · exact (storeContainer_keeps _ _ _).1
      · rfl
    · split
      · exact (storeContainer_keeps _ _ _).2.1
      · rfl
  · unfold attempt
    rw [logging_count]
    split
    · exact (storeContainer_keeps _ _ _).2.2
    · rfl

end Controller.State

/-! ## One attempt -/

namespace Trial

variable {s : State} {key : Text} {t : Trial}

theorem counts_count (h : s.Counts key) (t : Trial) : (count key s t).Counts key :=
  (h.clocked t.seconds).count t.report.outcome

/-- **One attempt makes one more of its outcome and one more observation, or was interrupted and
makes nothing.** -/
theorem recorded_count (h : s.Counts key) (hpod : t.deployment.pod.isSome)
    (hclock : Reading.ofSeconds t.seconds ≠ .notANumber) :
    t.Recorded (s.collector key) ((count key s t).collector key) := by
  obtain ⟨pod, hpod⟩ := Option.isSome_iff_exists.mp hpod
  -- the two ways an attempt ends are the two ways it is recorded
  rcases t.injector.inject_accounted hpod t.target t.uri t.serviceAccount with
    ⟨o, haccounted⟩ | hinterrupted
  · refine .inl ⟨o, haccounted, ?_⟩
    have houtcome : t.report.outcome = some o := haccounted.counted
    rw [count, houtcome, State.collector_count (h.clocked t.seconds)]
    exact Collector.oneMore_recordMeasured h.wellFormed hclock
  · refine .inr ⟨hinterrupted, ?_⟩
    have houtcome : t.report.outcome = none := hinterrupted.uncounted
    rw [count, houtcome, State.count_none]
    rfl

/-- An attempt is counted under the outcome that its result stands for. -/
theorem Recorded.count_eq {c c' : Collector} (h : t.Recorded c c') (o : Outcome) :
    c'.count o = c.count o + if Outcome.ofResult? t.report.result = some o then 1 else 0 := by
  rcases h with ⟨o', haccounted, hmore⟩ | ⟨hinterrupted, rfl⟩
  -- the outcome that got one more is the one of the result
  · rw [haccounted.ended]
    by_cases ho : o' = o
    · rw [if_pos (by rw [ho]), ← ho, hmore.counted]
    · rw [if_neg (by simpa using ho), hmore.others o (Ne.symm ho), Nat.add_zero]
  -- an interrupt stands for no outcome, so nothing is added on either side
  · obtain ⟨request, -, fault, -, hfault, hresult⟩ := hinterrupted.raised
    simp [hresult, Outcome.ofResult?, hfault]

/-- As many attempts as observations before, as many after. -/
theorem Recorded.balanced {c c' : Collector} (h : t.Recorded c c')
    (hbalanced : c.attempts = c.observations) : c'.attempts = c'.observations := by
  rcases h with ⟨o, -, hmore⟩ | ⟨-, rfl⟩
  · rw [hmore.attempts, hmore.observed, hbalanced]
  · exact hbalanced

/-! ## Runs -/

theorem countAll_append_singleton (key : Text) (s : State) (trials : List Trial) (t : Trial) :
    countAll key s (trials ++ [t]) = count key (countAll key s trials) t :=
  List.foldl_append

theorem counts_countAll (h : s.Counts key) (trials : List Trial) :
    (countAll key s trials).Counts key := by
  induction trials using List.reverseRecOn with
  | nil => exact h
  | append_singleton before t ih =>
    rw [countAll_append_singleton]
    exact counts_count ih t

/-- What holds of the collector at first, and still after each attempt that is recorded in it, holds
after the run. -/
theorem countAll_invariant {P : List Trial → Collector → Prop} (h : s.Counts key)
    (hfirst : P [] (s.collector key))
    (hstep : ∀ before t c c', t.Recorded c c' → P before c → P (before ++ [t]) c')
    {trials : List Trial} (hpods : ∀ t ∈ trials, t.deployment.pod.isSome)
    (hclock : ∀ t ∈ trials, Reading.ofSeconds t.seconds ≠ .notANumber) :
    P trials ((countAll key s trials).collector key) := by
  -- on the run from its end: the last attempt finds the collector as those before it left it
  induction trials using List.reverseRecOn with
  | nil => exact hfirst
  | append_singleton before t ih =>
    rw [List.forall_mem_append, List.forall_mem_singleton] at hpods hclock
    rw [countAll_append_singleton]
    apply hstep before t ((countAll key s before).collector key)
    · exact recorded_count (counts_countAll h before) hpods.2 hclock.2
    · exact ih hpods.1 hclock.1

/-- A new collector counts the results of the run. -/
theorem count_countAll (h : s.Counts key) (hnew : s.collector key = {}) {trials : List Trial}
    (hpods : ∀ t ∈ trials, t.deployment.pod.isSome)
    (hclock : ∀ t ∈ trials, Reading.ofSeconds t.seconds ≠ .notANumber) (o : Outcome) :
    ((countAll key s trials).collector key).count o =
      trials.countP fun t => Outcome.ofResult? t.report.result = some o := by
  -- the invariant: after each attempt the count is that of the results so far
  refine countAll_invariant h (P := fun before c =>
    c.count o = before.countP fun t => Outcome.ofResult? t.report.result = some o) ?_ ?_ hpods hclock
  · rw [hnew]
    rfl
  · intro before t c c' hrecorded ih
    rw [hrecorded.count_eq, ih, List.countP_append, List.countP_singleton]
    simp only [decide_eq_true_eq]

/-- A new collector makes as many observations as it counts attempts. -/
theorem balanced_countAll (h : s.Counts key) (hnew : s.collector key = {}) {trials : List Trial}
    (hpods : ∀ t ∈ trials, t.deployment.pod.isSome)
    (hclock : ∀ t ∈ trials, Reading.ofSeconds t.seconds ≠ .notANumber) :
    ((countAll key s trials).collector key).attempts =
      ((countAll key s trials).collector key).observations := by
  refine countAll_invariant h (P := fun _ c => c.attempts = c.observations) ?_ ?_ hpods hclock
  · rw [hnew]
    rfl
  · exact fun _ _ _ _ hrecorded => hrecorded.balanced

/-- **After any run the counts are the numbers of the results, as many as were observed.** -/
theorem countAll_balances (hdistinct : (s.collectors.map Prod.fst).Nodup)
    (hnew : s.collector key = {}) {trials : List Trial}
    (hpods : ∀ t ∈ trials, t.deployment.pod.isSome)
    (hclock : ∀ t ∈ trials, Reading.ofSeconds t.seconds ≠ .notANumber) :
    (∀ before t after, trials = before ++ t :: after →
      t.Recorded ((countAll key s before).collector key)
        ((countAll key s (before ++ [t])).collector key)) ∧
    (∀ o, ((countAll key s trials).collector key).count o =
      trials.countP fun t => Outcome.ofResult? t.report.result = some o) ∧
    ((countAll key s trials).collector key).attempts =
      ((countAll key s trials).collector key).observations := by
  have hcounts : s.Counts key := ⟨hdistinct, hnew ▸ Collector.wellFormed_new⟩
  refine ⟨?_, count_countAll hcounts hnew hpods hclock, balanced_countAll hcounts hnew hpods hclock⟩
  -- an attempt of the run finds the collector as those before it left it
  rintro before t after rfl
  have hmem : t ∈ before ++ t :: after := List.mem_append_right before List.mem_cons_self
  rw [countAll_append_singleton]
  exact recorded_count (counts_countAll hcounts before) (hpods t hmem) (hclock t hmem)

end Trial

namespace Sample

def trial (script : Script) (pod : PodSpec) (seconds : Float) : Trial where
  injector := injector script
  deployment := deployment pod
  target := .configured
  uri := .string claimUri
  serviceAccount := none
  seconds := seconds

/-- The builder does not come to attach anything. -/
def interrupted : Trial := trial [.fail (.foreign "KeyboardInterrupt" [] true)] pod 0.5

/-- One attempt that fails, one that is interrupted, one that succeeds, and one on a pod that is
provisioned already. -/
def trials : List Trial :=
  [trial halfAttached pod 0.25, interrupted, trial attached pod 3,
    trial [] { pod with initContainers := some [{ name := Reserved.initContainerName }] } 0]

end Sample

/-- Four attempts with each kind of end, of which the interrupted one is not counted. -/
theorem Trial.countAll_balances_trials :
    ((countAll "m" {} Sample.trials).collector "m").count .skipped = 1 ∧
      ((countAll "m" {} Sample.trials).collector "m").count .injected = 1 ∧
      ((countAll "m" {} Sample.trials).collector "m").count .failed = 1 ∧
      ((countAll "m" {} Sample.trials).collector "m").observations = 3 := by
  have hclock : ∀ t ∈ Sample.trials, Reading.ofSeconds t.seconds ≠ .notANumber := by
    decide +kernel
  have hnew : ({} : State).collector "m" = {} := rfl
  obtain ⟨-, hcount, hbalanced⟩ :=
    countAll_balances (s := {}) List.nodup_nil hnew (by decide) hclock
  have hskipped := (hcount .skipped).trans (show _ = 1 from rfl)
  have hinjected := (hcount .injected).trans (show _ = 1 from rfl)
  have hfailed := (hcount .failed).trans (show _ = 1 from rfl)
  refine ⟨hskipped, hinjected, hfailed, ?_⟩
  rw [← hbalanced, Collector.attempts, hskipped, hinjected, hfailed]

/-- An attempt may raise without a trace in the counts, the observations or the log: its builder's
fault is none of those that count as failures. -/
theorem Trial.interrupt_uncounted :
    (∃ fault, Sample.interrupted.report.result = .error fault) ∧
      ((count "m" {} Sample.interrupted).collector "m").count .failed = 0 ∧
      ((count "m" {} Sample.interrupted).collector "m").observations = 0 ∧
      ∀ e ∈ Sample.interrupted.report.entries, e.speaker ≠ .injector := by
  refine ⟨⟨_, rfl⟩, rfl, rfl, ?_⟩
  decide

end ModelProvision
