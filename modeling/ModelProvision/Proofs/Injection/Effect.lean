import ModelProvision.Proofs.Injection.Course

/-!
# What an attempt fails for and what it leaves

Two theorems about a single attempt on a deployment with a pod, one for each way it can end.

* **`Injector.inject_fails_atomically`**: an attempt fails for the first of three reasons that
  applies (`Injector.Fails`), with the fault that belongs to the reason, and the deployment is the
  one before the attempt. The builder is not even asked in the first two cases.
* **`Injector.inject_effect`**: an attempt that does not fail asks the builder once, for
  `Injector.asked`, and leaves the pod `PodSpec.injected`; nothing else in the deployment changes.
-/

namespace ModelProvision

/-! ## A sample

What the theorems below are tried on. The pod has a volume under the name of the scratch volume
already, so the plan's volume takes the place of one of its own. -/

namespace Sample

def pod : PodSpec where
  containers := some [{ name := "proxy" }, { name := Reserved.userContainerName }]
  initContainers := none
  volumes := some [{ name := Reserved.scratchVolumeName, source := some (.hostPath "/data" none) }]
  serviceAccountName := some "default"

def deployment (pod : PodSpec) : Deployment where
  metadata := some { name := some "iris", namespaceName := some "models" }
  selector := some [("app", "iris")]
  podMetadata := none
  pod := some pod

def claimUri : Text := "pvc://iris/v1"

def injector (script : Script) : Injector where
  builder := script.builder
  settings := .defaults .injector

def attached : Script :=
  [.addVolume { name := "credentials", source := some (.secret (some "s3")) }, .setEnv []]

/-- What is attached is not enough, which the builder finds out last. -/
def halfAttached : Script := attached ++ [.fail (.credentialInjection [])]

end Sample

/-! ## Failing

The reasons exclude each other (`Fails.unique`). The courses are gone through one question at a time:
which reason a fault has (`Course.fails`), that a success has none (`Course.not_fails`), what results
there are (`Course.result_cases`), when the builder is asked (`Course.requests_eq_nil`) and what
becomes of the deployment (`Course.deployment_eq`). -/

/-- Why an attempt on a pod that is not provisioned fails. A reason counts only where those before
it do not apply. -/
inductive Injector.Fails (i : Injector) (d : Deployment) (pod : PodSpec)
    (target : Target d.containers) (uri : Text) (given : Option Text) : Fault → Prop where
  | noUser (huser : target.LacksUser (i.settings.value .userContainerName)) :
      Fails i d pod target uri given (.userContainerNotFound (i.settings.value .userContainerName))
  | malformed (huser : ¬ target.LacksUser (i.settings.value .userContainerName))
      (huri : Source.Malformed uri) :
      Fails i d pod target uri given (.invalidUri uri .null)
  | builder (huser : ¬ target.LacksUser (i.settings.value .userContainerName))
      {plan : Plan} (hplan : Plan.ofUri i.settings.mountPaths uri = .ok plan)
      {fault : Fault} (hfault : (i.builder (i.asked d pod given plan)).fault = some fault) :
      Fails i d pod target uri given fault

namespace Injector

variable {i : Injector} {d : Deployment} {pod : PodSpec} {target : Target d.containers} {uri : Text}
  {given : Option Text} {report : Report}

/-- There is only one first reason. -/
theorem Fails.unique {f g : Fault} (hf : i.Fails d pod target uri given f)
    (hg : i.Fails d pod target uri given g) : f = g := by
  -- each reason says that those before it do not apply, so two different ones contradict
  cases hf with
  | noUser huser =>
    cases hg with
    | noUser => rfl
    | malformed huser' => exact absurd huser huser'
    | builder huser' => exact absurd huser huser'
  | malformed huser huri =>
    cases hg with
    | noUser huser' => exact absurd huser' huser
    | malformed => rfl
    | builder _ hplan => exact absurd huri (Plan.not_malformed_of_ofUri hplan)
  | builder huser hplan hfault =>
    cases hg with
    | noUser huser' => exact absurd huser' huser
    | malformed _ huri => exact absurd huri (Plan.not_malformed_of_ofUri hplan)
    | builder _ hplan' hfault' =>
      obtain rfl := Except.ok.inj (hplan.symm.trans hplan')
      exact Option.some.inj (hfault.symm.trans hfault')

/-- A fault comes with its reason, and only on a pod that is not provisioned. -/
theorem Course.fails (hcourse : i.Course d pod target uri given report)
    (htarget : target.InPod) {fault : Fault} (hfault : report.result = .error fault) :
    ¬ pod.isProvisioned ∧ i.Fails d pod target uri given fault := by
  cases hcourse with
  | skipped _ hresult => exact absurd (hresult.symm.trans hfault) (by simp)
  | unselected hprovisioned hselect hresult =>
    obtain rfl := Except.error.inj (hresult.symm.trans hfault)
    obtain ⟨huser, rfl⟩ := Target.lacksUser_of_select htarget hselect
    exact ⟨hprovisioned, .noUser huser⟩
  | malformed hprovisioned hselect huri hresult =>
    obtain rfl := Except.error.inj (hresult.symm.trans hfault)
    exact ⟨hprovisioned, .malformed (Target.not_lacksUser_of_select hselect) huri⟩
  | refused hprovisioned hselect hplan hraised hresult =>
    obtain rfl := Except.error.inj (hresult.symm.trans hfault)
    exact ⟨hprovisioned, .builder (Target.not_lacksUser_of_select hselect) hplan hraised⟩
  | injected _ _ _ _ hresult => exact absurd (hresult.symm.trans hfault) (by simp)

/-- Where an attempt succeeds no reason applies. -/
theorem Course.not_fails (hcourse : i.Course d pod target uri given report)
    (hresult : report.result = .ok true) (fault : Fault) :
    ¬ i.Fails d pod target uri given fault := by
  obtain ⟨-, user, plan, hselect, hplan, hreturned, -, -⟩ := hcourse.of_succeeded hresult
  intro hfails
  cases hfails with
  | noUser huser => exact Target.not_lacksUser_of_select hselect huser
  | malformed _ huri => exact Plan.not_malformed_of_ofUri hplan huri
  | builder _ hplan' hfault =>
    obtain rfl := Except.ok.inj (hplan.symm.trans hplan')
    exact absurd (hreturned.symm.trans hfault) (by simp)

/-- A pod that is provisioned is skipped, and on any other the attempt fails or succeeds. -/
theorem Course.result_cases (hcourse : i.Course d pod target uri given report) :
    (pod.isProvisioned ∧ report.result = .ok false) ∨
      (¬ pod.isProvisioned ∧ ((∃ fault, report.result = .error fault) ∨ report.result = .ok true)) := by
  cases hcourse with
  | skipped hprovisioned hresult => exact .inl ⟨hprovisioned, hresult⟩
  | unselected hprovisioned _ hresult => exact .inr ⟨hprovisioned, .inl ⟨_, hresult⟩⟩
  | malformed hprovisioned _ _ hresult => exact .inr ⟨hprovisioned, .inl ⟨_, hresult⟩⟩
  | refused hprovisioned _ _ _ hresult => exact .inr ⟨hprovisioned, .inl ⟨_, hresult⟩⟩
  | injected hprovisioned _ _ _ hresult => exact .inr ⟨hprovisioned, .inr hresult⟩

/-- The builder is not asked where there is no container to select or no source to fetch from. -/
theorem Course.requests_eq_nil (hcourse : i.Course d pod target uri given report)
    (h : target.LacksUser (i.settings.value .userContainerName) ∨ Source.Malformed uri) :
    report.requests = [] := by
  -- the courses that ask have a container and a plan
  have hasked : ∀ {user plan}, target.select (i.settings.value .userContainerName) = .ok user →
      Plan.ofUri i.settings.mountPaths uri = .ok plan → False := by
    intro user plan hselect hplan
    rcases h with huser | huri
    · exact Target.not_lacksUser_of_select hselect huser
    · exact Plan.not_malformed_of_ofUri hplan huri
  cases hcourse with
  | skipped _ _ hrequests => exact hrequests
  | unselected _ _ _ hrequests => exact hrequests
  | malformed _ _ _ _ hrequests => exact hrequests
  | refused _ hselect hplan => exact (hasked hselect hplan).elim
  | injected _ hselect hplan => exact (hasked hselect hplan).elim

/-- Only a success changes the deployment, if the builder spares the pod. -/
theorem Course.deployment_eq (hcourse : i.Course d pod target uri given report)
    (hpod : d.pod = some pod)
    (hspares : ∀ plan, Plan.ofUri i.settings.mountPaths uri = .ok plan →
      i.builder.SparesPod plan.volumes)
    (hresult : report.result ≠ .ok true) : report.deployment = d := by
  cases hcourse with
  | skipped _ _ _ hdeployment => exact hdeployment
  | unselected _ _ _ _ hdeployment => exact hdeployment
  | malformed _ _ _ _ _ hdeployment => exact hdeployment
  | @refused _ _ plan _ _ hplan _ _ _ hdeployment =>
    -- the staged list of the request is the one whose volumes the builder spares
    have hvolumes : (i.asked d pod given plan).volumes =
        (stage (pod.volumes.getD []) plan.volumes).map Prod.snd :=
      (map_snd_stage _ _).symm
    rw [hdeployment, PodSpec.ownAfter_eq_self (hspares plan hplan) pod hvolumes, ← hpod]
  | injected _ _ _ _ hresult' => exact absurd hresult' hresult

/-- **A failed attempt has one of three reasons and leaves no trace.** The fault is the one of the
first reason that applies, and in every case the deployment is the one before the attempt. -/
theorem inject_fails_atomically (i : Injector) {d : Deployment} {pod : PodSpec}
    (hpod : d.pod = some pod) {target : Target d.containers} (htarget : target.InPod) (uri : Text)
    (given : Option Text)
    (hspares : ∀ plan, Plan.ofUri i.settings.mountPaths uri = .ok plan →
      i.builder.SparesPod plan.volumes) :
    (∀ fault, (i.inject d target uri given).result = .error fault ↔
      (∀ c ∈ pod.initContainers.getD [], c.name ≠ Reserved.initContainerName) ∧
        i.Fails d pod target uri given fault) ∧
    (target.LacksUser (i.settings.value .userContainerName) ∨ Source.Malformed uri →
      (i.inject d target uri given).requests = []) ∧
    (∀ fault, (i.inject d target uri given).result = .error fault →
      (i.inject d target uri given).deployment = d) := by
  have hcourse := i.course hpod target uri given
  refine ⟨fun fault => ?_, hcourse.requests_eq_nil, fun fault hfault => ?_⟩
  · rw [← PodSpec.not_isProvisioned_iff]
    refine ⟨hcourse.fails htarget, ?_⟩
    -- a reason applies, so neither a skip nor a success is left
    rintro ⟨hprovisioned, hfails⟩
    rcases hcourse.result_cases with ⟨h, -⟩ | ⟨-, ⟨fault', hfault'⟩ | hresult⟩
    · exact absurd h hprovisioned
    · -- it fails, and there is only one fault to fail with
      rw [hfault', (hcourse.fails htarget hfault').2.unique hfails]
    · exact absurd hfails (hcourse.not_fails hresult fault)
  · exact hcourse.deployment_eq hpod hspares (by rw [hfault]; simp)

/-- A builder that had added a volume before it gave up leaves none behind. -/
theorem inject_fails_atomically_halfAttached :
    ((Sample.injector Sample.halfAttached).inject (Sample.deployment Sample.pod) .configured
        Sample.claimUri none).result = .error (.credentialInjection []) ∧
      ((Sample.injector Sample.halfAttached).inject (Sample.deployment Sample.pod) .configured
        Sample.claimUri none).deployment = Sample.deployment Sample.pod := by
  have hspares : ∀ planned, (Sample.injector Sample.halfAttached).builder.SparesPod planned :=
    Script.sparesPod (by simp [Sample.halfAttached, Sample.attached, Action.LeavesVolumes])
  have htarget : (.configured : Target (Sample.deployment Sample.pod).containers).InPod := trivial
  obtain ⟨hiff, -, hsame⟩ := inject_fails_atomically (Sample.injector Sample.halfAttached)
    (d := Sample.deployment Sample.pod) rfl htarget Sample.claimUri none
    fun plan _ => hspares plan.volumes
  have hfails := (hiff (.credentialInjection [])).mpr ⟨by decide, .builder (by decide) rfl rfl⟩
  exact ⟨hfails, hsame _ hfails⟩

/-! ## Succeeding -/

/-- A successful attempt on a target of the pod leaves `PodSpec.injected`, with the container that
the target means. -/
theorem Course.injected_of_succeeded (hcourse : i.Course d pod target uri given report)
    (hpod : d.pod = some pod) (htarget : target.InPod) (hresult : report.result = .ok true) :
    ∃ index c plan, target.Selects (i.settings.value .userContainerName) index c ∧
      Plan.ofUri i.settings.mountPaths uri = .ok plan ∧
      report.requests = [i.asked d pod given plan] ∧
      report.deployment =
        { d with pod := some (pod.injected i.settings index
          (i.builder (i.asked d pod given plan))) } := by
  obtain ⟨-, user, plan, hselect, hplan, -, hrequests, hdeployment⟩ := hcourse.of_succeeded hresult
  obtain ⟨index, c, hselects, rfl⟩ := Target.selects_of_select htarget hselect
  rw [PodSpec.commit_eq_injected hpod _ hselects hplan] at hdeployment
  exact ⟨index, c, plan, hselects, hplan, hrequests, hdeployment⟩

/-- **What an attempt does when nothing stands in its way.** The builder is asked once, and the
deployment differs from the one before in the staged volumes, the init container at the end of its
list and the mounts of the selected container only. Where the pod lacks the container to select,
nothing is asked and nothing changes. -/
theorem inject_effect (i : Injector) {d : Deployment} {pod : PodSpec} (hpod : d.pod = some pod)
    (hfresh : ∀ c ∈ pod.initContainers.getD [], c.name ≠ Reserved.initContainerName)
    {target : Target d.containers} (htarget : target.InPod) {uri : Text} (huri : ¬ Source.Malformed uri)
    (given : Option Text)
    (hreturns : ∀ plan, Plan.ofUri i.settings.mountPaths uri = .ok plan →
      (i.builder (i.asked d pod given plan)).fault = none) :
    (∃ index c plan, target.Selects (i.settings.value .userContainerName) index c ∧
      Plan.ofUri i.settings.mountPaths uri = .ok plan ∧
      (i.inject d target uri given).result = .ok true ∧
      (i.inject d target uri given).requests = [i.asked d pod given plan] ∧
      (i.inject d target uri given).deployment =
        { d with pod := some (pod.injected i.settings index
          (i.builder (i.asked d pod given plan))) }) ∨
    (target.LacksUser (i.settings.value .userContainerName) ∧
      (i.inject d target uri given).result =
        .error (.userContainerNotFound (i.settings.value .userContainerName)) ∧
      (i.inject d target uri given).requests = [] ∧
      (i.inject d target uri given).deployment = d) := by
  have hcourse := i.course hpod target uri given
  have hinjected := hcourse.injected_of_succeeded hpod htarget
  have hnot : ¬ pod.isProvisioned := PodSpec.not_isProvisioned_iff.mpr hfresh
  -- the courses that are ruled out by what is assumed, and the two that are left
  cases hcourse with
  | skipped hprovisioned => exact absurd hprovisioned hnot
  | unselected _ hselect hresult hrequests hdeployment =>
    obtain ⟨hlacks, rfl⟩ := Target.lacksUser_of_select htarget hselect
    exact .inr ⟨hlacks, hresult, hrequests, hdeployment⟩
  | malformed _ _ hmalformed => exact absurd hmalformed huri
  | refused _ _ hplan hfault => exact absurd ((hreturns _ hplan).symm.trans hfault) (by simp)
  | injected _ _ _ _ hresult =>
    obtain ⟨index, c, plan, hselects, hplan, hrequests, hdeployment⟩ := hinjected hresult
    exact .inl ⟨index, c, plan, hselects, hplan, hresult, hrequests, hdeployment⟩

theorem inject_effect_attached :
    ((Sample.injector Sample.attached).inject (Sample.deployment Sample.pod) .configured
        Sample.claimUri none).result = .ok true ∧
      ∃ index left,
        ((Sample.injector Sample.attached).inject (Sample.deployment Sample.pod) .configured
          Sample.claimUri none).deployment =
            Sample.deployment (Sample.pod.injected (.defaults .injector) index left) := by
  have htarget : (.configured : Target (Sample.deployment Sample.pod).containers).InPod := trivial
  have huri : ¬ Source.Malformed Sample.claimUri := by decide
  have heffect := inject_effect (Sample.injector Sample.attached)
    (d := Sample.deployment Sample.pod) rfl (by decide) htarget huri none fun plan _ => rfl
  rcases heffect with ⟨index, c, plan, -, -, hresult, -, hdeployment⟩ | ⟨hlacks, -⟩
  · exact ⟨hresult, index, _, hdeployment⟩
  · exact absurd hlacks (by decide)

end Injector

end ModelProvision
