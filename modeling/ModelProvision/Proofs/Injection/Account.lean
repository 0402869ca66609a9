import ModelProvision.Injection.Inject
import ModelProvision.Proofs.Merge.Lookup
import ModelProvision.Proofs.Source

/-!
# Every attempt is accounted for

What a caller gets from an attempt, how the attempt is counted and what the injector says last come
about in different places. They agree (`Report.Accounted`): the outcome is the one that the result
stands for, and the last entry, the only one of the injector, tells the same. Only a builder whose
fault is none of those that count as failures gets past this, whatever kind it is of: then nothing is
counted and nothing told (`Report.Interrupted`).

There is no third way for an attempt on a pod to end (**`inject_accounted`**). It is shown function
by function: for an attempt that failed (`failed_accounted`, `failed_interrupted`), for one that was
carried out (`carryOut_accounted`), and for what comes before.
-/

namespace ModelProvision

/-! ## How an attempt ends -/

/-- The outcome that a result stands for. A fault that lies outside of what counts as a failure has
none. -/
def Outcome.ofResult? : Except Fault Bool → Option Outcome
  | .ok false => some .skipped
  | .ok true => some .injected
  | .error fault => if fault.isInterrupt then none else some .failed

/-- The entry tells that an attempt ended with this result. -/
def LogEntry.Tells (e : LogEntry) : Except Fault Bool → Prop
  | .ok false => e.level = .debug ∧ e.event = "Model initializer already injected"
  | .ok true => e.level = .info ∧ e.event = "Injected model initializer"
  | .error fault =>
    e.level = .error ∧ e.event = "Failed to inject model initializer" ∧
      e.field? "error" = some (.string fault.message) ∧
      e.field? "error_type" = some (.string fault.kind)

/-- No entry is one of the injector. -/
def Untold (entries : List LogEntry) : Prop := ∀ e ∈ entries, e.speaker ≠ .injector

/-- The attempt is counted as what it came to, and the injector says so once, at the end. -/
structure Report.Accounted (r : Report) (o : Outcome) : Prop where
  ended : Outcome.ofResult? r.result = some o
  counted : r.outcome = some o
  told : ∃ before e, r.entries = before ++ [e] ∧ Untold before ∧ e.speaker = .injector ∧
    e.Tells r.result

/-- The builder raised a fault that lies outside of what counts as a failure, and the attempt is
neither counted nor told. -/
structure Report.Interrupted (r : Report) (b : Builder) : Prop where
  raised : ∃ request ∈ r.requests, ∃ fault, (b request).fault = some fault ∧
    fault.isInterrupt = true ∧ r.result = .error fault
  uncounted : r.outcome = none
  untold : Untold r.entries

/-- What was untold stays so when nothing of the injector is said after it. -/
theorem Untold.append {entries later : List LogEntry} (h : Untold entries) (hlater : Untold later) :
    Untold (entries ++ later) :=
  List.forall_mem_append.mpr ⟨h, hlater⟩

theorem untold_rewriteEntries (source : Source) (plan : Plan) :
    Untold (rewriteEntries source plan) := by
  cases source with
  | direct uri => exact List.forall_mem_nil _
  | claim uri path => exact List.forall_mem_singleton.mpr (by simp)

theorem untold_replacingEntries {α : Type} (name : α → Text) (existing additions : List α) :
    Untold (replacingEntries name existing additions) := by
  intro e he
  obtain ⟨x, -, rfl⟩ := List.mem_map.mp he
  simp [replacingEntry]

/-- The entry about a fault tells it, provided that no field which is bound already has the name of
one of its own. -/
theorem tells_failedEntry {bound : Fields} (fault : Fault)
    (herror : Keyed.lookup? (.ofString "error") bound = none)
    (hkind : Keyed.lookup? (.ofString "error_type") bound = none) :
    (failedEntry bound fault).Tells (.error fault) := by
  refine ⟨rfl, rfl, ?_, ?_⟩
  -- the fields that are bound come first, and the lookup passes them by
  · rw [LogEntry.field?, failedEntry, Keyed.lookup?_append, herror, Option.none_or]
    rfl
  · rw [LogEntry.field?, failedEntry, Keyed.lookup?_append, hkind, Option.none_or]
    rfl

namespace Report

variable {fault : Fault} {d : Deployment} {elsewhere : Option Container}
  {requests : List AttachRequest}
  {said : List LogEntry} {bound : Fields}

/-- An attempt that fails is accounted for, whatever was said before … -/
theorem failed_accounted (hfault : fault.isInterrupt = false) (hsaid : Untold said)
    (htells : (failedEntry bound fault).Tells (.error fault)) :
    (failed fault d elsewhere requests said bound).Accounted .failed where
  ended := by simp [failed, Outcome.ofResult?, hfault]
  counted := by simp [failed, hfault]
  told := ⟨said, failedEntry bound fault, by simp [failed, hfault], hsaid, rfl, htells⟩

/-- … unless the fault is the builder's and no failure. -/
theorem failed_interrupted {b : Builder} {request : AttachRequest} (hrequest : request ∈ requests)
    (hraised : (b request).fault = some fault) (hfault : fault.isInterrupt = true)
    (hsaid : Untold said) : (failed fault d elsewhere requests said bound).Interrupted b where
  raised := ⟨request, hrequest, fault, hraised, hfault, rfl⟩
  uncounted := by simp [failed, hfault]
  untold := by simpa [failed, hfault] using hsaid

end Report

/-- Selecting fails only for a name that leads to no container. -/
theorem Target.eq_notFound_of_select {containers : List Container} {target : Target containers}
    {name : Text} {fault : Fault} (h : target.select name = .error fault) :
    fault = .userContainerNotFound name := by
  cases target with
  | elsewhere c => exact absurd h (by simp [select])
  | own index => exact absurd h (by simp [select])
  | configured =>
    unfold select at h
    simp only at h
    split at h
    · exact absurd h (by simp)
    · exact (Except.error.inj h).symm

/-- What is wrong with a URI is a failure like any other. -/
theorem Source.isInterrupt_of_ofValue {uri : Json} {fault : Fault}
    (h : Source.ofValue uri = .error fault) : fault.isInterrupt = false := by
  cases uri with
  | string t =>
    obtain ⟨-, rfl⟩ := Source.ofUri_eq_error_iff.mp h
    rfl
  | _ =>
    obtain rfl := Except.error.inj h
    rfl

namespace Injector

variable {i : Injector} {d : Deployment} {pod : PodSpec} {elsewhere : Option Container}
  {user : Selection} {source : Source} {given : Option Text} {bound : Fields}

/-- From the selected container on, the builder is the only one that can interrupt. -/
theorem carryOut_accounted (htells : ∀ fault, (failedEntry bound fault).Tells (.error fault)) :
    (∃ o, (i.carryOut d pod elsewhere user source given bound).Accounted o) ∨
      (i.carryOut d pod elsewhere user source given bound).Interrupted i.builder := by
  have hsaid : Untold (rewriteEntries source (Plan.ofSource i.settings.mountPaths source) ++
      replacingEntries Volume.name (pod.volumes.getD [])
        (Plan.ofSource i.settings.mountPaths source).volumes) :=
    (untold_rewriteEntries _ _).append (untold_replacingEntries _ _ _)
  unfold carryOut
  simp only
  -- what was said about volumes comes before both ends
  split
  · next fault hraised =>
    cases hfault : fault.isInterrupt with
    | true => exact .inr (Report.failed_interrupted List.mem_cons_self hraised hfault hsaid)
    | false => exact .inl ⟨_, Report.failed_accounted hfault hsaid (htells fault)⟩
  · exact .inl ⟨.injected, rfl, rfl, _, _, rfl, hsaid.append (untold_replacingEntries _ _ _), rfl,
      rfl, rfl⟩

/-- **An attempt on a pod is accounted for, unless its builder interrupts it.** -/
theorem inject_accounted (i : Injector) (hpod : d.pod = some pod) (target : Target d.containers)
    (uri : Json) (given : Option Text) :
    (∃ o, (i.inject d target uri given).Accounted o) ∨
      (i.inject d target uri given).Interrupted i.builder := by
  simp only [inject, hpod]
  -- the guard comes before everything, and a skip says one thing only
  by_cases hprovisioned : pod.isProvisioned = true
  · rw [if_pos hprovisioned]
    exact .inl ⟨.skipped, rfl, rfl, [], _, rfl, List.forall_mem_nil _, rfl, rfl, rfl⟩
  · rw [if_neg hprovisioned]
    -- what fails from here on is told with the fields that are bound by then
    cases hselect : target.select (i.settings.value .userContainerName) with
    | error fault =>
      obtain rfl := Target.eq_notFound_of_select hselect
      exact .inl ⟨_, Report.failed_accounted rfl (List.forall_mem_nil _)
        (tells_failedEntry _ rfl rfl)⟩
    | ok user =>
      cases hsource : Source.ofValue uri with
      | error fault =>
        exact .inl ⟨_, Report.failed_accounted (Source.isInterrupt_of_ofValue hsource)
          (List.forall_mem_nil _) (tells_failedEntry fault rfl rfl)⟩
      | ok source => exact carryOut_accounted fun fault => tells_failedEntry fault rfl rfl

end Injector

end ModelProvision
