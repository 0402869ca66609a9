import ModelProvision.Proofs.Injection.Effect

/-!
# Repeated attempts

A controller tries again and again on one deployment, each time with whatever source, target,
settings and builder it has then. The main statement is **`Call.runAll_course`**: such a run is a
series of failures that leave no trace, then at most one success, then skips.

It rests on two facts about single calls. A call that neither skips nor succeeds hands the
deployment on as it was (`Course.deployment_eq`), so the next call starts where the first one did.
And a call that succeeds leaves a provisioned pod (`provisioned_of_succeeded`), on which every later
call is a skip (`runAll_of_provisioned`).
-/

namespace ModelProvision

/-! ## Runs of calls -/

/-- An attempt with all it needs but the deployment, of which the target may be a container. -/
structure Call where
  injector : Injector
  target : (d : Deployment) → Target d.containers
  uri : Text
  serviceAccount : Option Text

namespace Call

def on (c : Call) (d : Deployment) : Report :=
  c.injector.inject d (c.target d) c.uri c.serviceAccount

/-- The reports of calls made one after another, each on the deployment that the one before left. -/
def runAll (d : Deployment) : List Call → List Report
  | [] => []
  | c :: rest => c.on d :: runAll (c.on d).deployment rest

/-- The builder touches nothing of the pod, and keeps the name of the init container. -/
structure KeepsPromises (c : Call) : Prop where
  sparesPod : ∀ plan, Plan.ofUri c.injector.settings.mountPaths c.uri = .ok plan →
    c.injector.builder.SparesPod plan.volumes
  keepsName : c.injector.builder.KeepsName

end Call

/-- The attempt failed, and the deployment is `d` as it was before. -/
structure Report.FailedOn (report : Report) (d : Deployment) : Prop where
  failed : ∃ fault, report.result = .error fault
  unchanged : report.deployment = d

/-- The attempt found `d` provisioned, asked no builder and left `d` as it was. -/
structure Report.SkippedOn (report : Report) (d : Deployment) : Prop where
  skipped : report.result = .ok false
  notAsked : report.requests = []
  unchanged : report.deployment = d

/-! ## Single calls -/

namespace Injector

variable {i : Injector} {d : Deployment} {pod : PodSpec} {target : Target d.containers} {uri : Text}
  {given : Option Text} {report : Report}

/-- A provisioned pod is skipped, since all other courses begin on one that is not. -/
theorem Course.skippedOn (hcourse : i.Course d pod target uri given report)
    (hprovisioned : pod.isProvisioned) : report.SkippedOn d := by
  cases hcourse with
  | skipped _ hresult hrequests hdeployment => exact ⟨hresult, hrequests, hdeployment⟩
  | unselected hnot => exact absurd hprovisioned hnot
  | malformed hnot => exact absurd hprovisioned hnot
  | refused hnot => exact absurd hprovisioned hnot
  | injected hnot => exact absurd hprovisioned hnot

/-- The init container that was appended carries the name that the guard looks for. -/
theorem Course.provisioned_of_succeeded (hcourse : i.Course d pod target uri given report)
    (hname : i.builder.KeepsName) (hresult : report.result = .ok true) :
    ∃ after, report.deployment.pod = some after ∧ after.isProvisioned := by
  obtain ⟨-, user, plan, -, -, -, -, hdeployment⟩ := hcourse.of_succeeded hresult
  rw [hdeployment]
  refine ⟨_, rfl, (PodSpec.isProvisioned_iff _).mpr ?_⟩
  have hkept := asked_name_kept hname d pod given plan
  exact ⟨_, List.mem_append_right _ (List.mem_singleton_self _), hkept⟩

end Injector

/-! ## Whole runs -/

namespace Call

theorem course (c : Call) {d : Deployment} {pod : PodSpec} (hpod : d.pod = some pod) :
    c.injector.Course d pod (c.target d) c.uri c.serviceAccount (c.on d) :=
  c.injector.course hpod (c.target d) c.uri c.serviceAccount

/-- Once a pod is provisioned every call is a skip. -/
theorem runAll_of_provisioned {d : Deployment} {pod : PodSpec} (hpod : d.pod = some pod)
    (hprovisioned : pod.isProvisioned) (calls : List Call) :
    ∀ r ∈ runAll d calls, r.SkippedOn d := by
  -- a skip hands on the same deployment, so the induction goes on with the same pod
  induction calls with
  | nil =>
    intro r hr
    exact absurd hr (by simp [runAll])
  | cons c rest ih =>
    have hskipped := (c.course hpod).skippedOn hprovisioned
    intro r hr
    rw [runAll, hskipped.unchanged] at hr
    rcases List.mem_cons.mp hr with rfl | hrest
    · exact hskipped
    · exact ih r hrest

/-- A run on a pod that is not provisioned fails throughout, or splits at its first success. -/
theorem runAll_split {d : Deployment} {pod : PodSpec} (hpod : d.pod = some pod)
    (hprovisioned : ¬ pod.isProvisioned) {calls : List Call}
    (hcalls : ∀ c ∈ calls, c.KeepsPromises) :
    (∀ r ∈ runAll d calls, r.FailedOn d) ∨
      ∃ before c after, calls = before ++ c :: after ∧
        runAll d calls = runAll d before ++ c.on d :: runAll (c.on d).deployment after ∧
        (∀ r ∈ runAll d before, r.FailedOn d) ∧
        (c.on d).result = .ok true ∧
        ∀ r ∈ runAll (c.on d).deployment after, r.SkippedOn (c.on d).deployment := by
  -- on the calls: as long as they fail the deployment is the one of the hypothesis
  induction calls with
  | nil => exact .inl fun r hr => absurd hr (by simp [runAll])
  | cons c rest ih =>
    have hcourse := c.course hpod
    have hc : c.KeepsPromises := hcalls c List.mem_cons_self
    have hrest : ∀ c ∈ rest, c.KeepsPromises := fun c' h => hcalls c' (List.mem_cons_of_mem c h)
    rcases hcourse.result_cases with ⟨h, -⟩ | ⟨-, ⟨fault, hfault⟩ | hresult⟩
    · exact absurd h hprovisioned
    · -- this call fails, so the rest of the run starts from `d` again
      have hsame : (c.on d).deployment = d :=
        hcourse.deployment_eq hpod hc.sparesPod (by rw [hfault]; simp)
      have hfailed : (c.on d).FailedOn d := ⟨⟨fault, hfault⟩, hsame⟩
      have hcons : ∀ calls, runAll d (c :: calls) = c.on d :: runAll d calls := fun calls => by
        rw [runAll, hsame]
      rcases ih hrest with hall | ⟨before, c', after, hsplit, hrun, hbefore, hsucceeds, hafter⟩
      · rw [hcons]
        exact .inl (List.forall_mem_cons.mpr ⟨hfailed, hall⟩)
      · refine .inr ⟨c :: before, c', after, ?_, ?_, ?_, hsucceeds, hafter⟩
        · rw [hsplit, List.cons_append]
        · rw [hcons, hcons, hrun, List.cons_append]
        · rw [hcons]
          exact List.forall_mem_cons.mpr ⟨hfailed, hbefore⟩
    · -- this call succeeds, and all that follow find its init container
      obtain ⟨after, hafter, hdone⟩ := hcourse.provisioned_of_succeeded hc.keepsName hresult
      exact .inr ⟨[], c, rest, rfl, rfl, by simp [runAll], hresult,
        runAll_of_provisioned hafter hdone rest⟩

/-- **A run of calls is failures, then at most one success, then skips.** Up to the success the
deployment stays what it was at first, so the call that succeeds does what it would have done as the
very first; after it nothing changes and no builder is asked. A pod that was provisioned from the
start is only ever skipped. -/
theorem runAll_course {d : Deployment} {pod : PodSpec} (hpod : d.pod = some pod)
    (calls : List Call) (hcalls : ∀ c ∈ calls, c.KeepsPromises) :
    ((∃ c ∈ pod.initContainers.getD [], c.name = Reserved.initContainerName) →
      ∀ r ∈ runAll d calls, r.SkippedOn d) ∧
    ((∀ c ∈ pod.initContainers.getD [], c.name ≠ Reserved.initContainerName) →
      (∀ r ∈ runAll d calls, r.FailedOn d) ∨
        ∃ before c after, calls = before ++ c :: after ∧
          runAll d calls = runAll d before ++ c.on d :: runAll (c.on d).deployment after ∧
          (∀ r ∈ runAll d before, r.FailedOn d) ∧
          (c.on d).result = .ok true ∧
          ∀ r ∈ runAll (c.on d).deployment after, r.SkippedOn (c.on d).deployment) := by
  refine ⟨fun hdone => ?_, fun hfresh => ?_⟩
  · exact runAll_of_provisioned hpod ((PodSpec.isProvisioned_iff pod).mpr hdone) calls
  · exact runAll_split hpod (PodSpec.not_isProvisioned_iff.mpr hfresh) hcalls

end Call

namespace Sample

/-- The first container, where there is one. -/
def first (d : Deployment) : Target d.containers :=
  if h : 0 < d.containers.length then .own ⟨0, h⟩ else .configured

/-- Two calls that fail, one that succeeds, and one that comes too late. -/
def calls : List Call :=
  [{ injector := injector halfAttached, target := fun _ => .configured, uri := claimUri,
     serviceAccount := none },
   { injector := injector attached, target := first, uri := "pvc://", serviceAccount := none },
   { injector := injector attached, target := first, uri := claimUri,
     serviceAccount := some "trainer" },
   { injector := injector [], target := fun _ => .configured, uri := claimUri,
     serviceAccount := none }]

theorem keepsPromises_calls : ∀ c ∈ calls, c.KeepsPromises := by
  have hscripts : ∀ c ∈ calls, ∃ script : Script, c.injector.builder = script.builder ∧
      (∀ action ∈ script, action.LeavesVolumes) ∧ ∀ action ∈ script, action.LeavesName := by
    simp only [calls, List.forall_mem_cons]
    refine ⟨⟨halfAttached, rfl, ?_⟩, ⟨attached, rfl, ?_⟩, ⟨attached, rfl, ?_⟩, ⟨[], rfl, ?_⟩, ?_⟩ <;>
      simp [halfAttached, attached, Action.LeavesVolumes, Action.LeavesName]
  intro c hc
  obtain ⟨script, hscript, hvolumes, hname⟩ := hscripts c hc
  exact ⟨fun plan _ => hscript ▸ Script.sparesPod hvolumes plan.volumes,
    hscript ▸ Script.keepsName hname⟩

end Sample

/-- The third of the sample's calls succeeds. -/
theorem Call.runAll_course_calls :
    ∃ before c after, Sample.calls = before ++ c :: after ∧
      (∀ r ∈ runAll (Sample.deployment Sample.pod) before,
        r.FailedOn (Sample.deployment Sample.pod)) ∧
      (c.on (Sample.deployment Sample.pod)).result = .ok true := by
  have hcourse := runAll_course (d := Sample.deployment Sample.pod) rfl Sample.calls
    Sample.keepsPromises_calls
  rcases hcourse.2 (by decide) with hall | ⟨before, c, after, hsplit, -, hbefore, hresult, -⟩
  · -- the third call does not fail
    have hthird : (runAll (Sample.deployment Sample.pod) Sample.calls)[2]?.map Report.result =
        some (.ok true) := rfl
    obtain ⟨r, hr, hresult⟩ := Option.map_eq_some_iff.mp hthird
    obtain ⟨fault, hfault⟩ := (hall r (List.mem_of_getElem? hr)).failed
    exact absurd (hfault.symm.trans hresult) (by simp)
  · exact ⟨before, c, after, hsplit, hbefore, hresult⟩

end ModelProvision
