import Mathlib.Data.List.Nodup
import ModelProvision.Proofs.Injection.Effect

/-!
# Names in a pod after injection

A pod asks that no two of its containers have one name, init containers included. A successful
attempt adds one name, `Reserved.initContainerName`, and touches no other
(`containerNames_injected`). The guard has made sure that no init container has that name. It does
not look at the other containers, so **`nodup_containerNames_iff`** is an equivalence: distinct names
stay distinct exactly when none of those is called so either, and `nodup_containerNames_lost` is a
pod where one is.
-/

namespace ModelProvision

/-! ## Container names -/

/-- The names of a pod's containers, then those of its init containers. -/
def PodSpec.containerNames (pod : PodSpec) : List Text :=
  (pod.containers.getD [] ++ pod.initContainers.getD []).map Container.name

theorem Container.map_name_modify {f : Container → Container} (hf : ∀ c, (f c).name = c.name)
    (containers : List Container) (index : Nat) :
    (containers.modify index f).map Container.name = containers.map Container.name := by
  refine List.ext_getElem? fun j => ?_
  rw [List.getElem?_map, List.getElem?_map, List.getElem?_modify]
  cases containers[j]? with
  | none => rfl
  | some c =>
    by_cases hj : index = j
    · simp [hj, hf]
    · simp [hj]

/-- The init container comes last, and mounting the scratch volume renames nothing. -/
theorem PodSpec.containerNames_injected (pod : PodSpec) (s : Settings) (index : Nat)
    (left : Attachment) :
    (pod.injected s index left).containerNames = pod.containerNames ++ [left.container.name] := by
  have hcontainers : ((pod.injected s index left).containers.getD []).map Container.name =
      (pod.containers.getD []).map Container.name := by
    cases hcs : pod.containers with
    | none => simp [injected, hcs]
    | some cs =>
      simp only [injected, hcs, Option.map_some, Option.getD_some]
      -- only the mounts of one container are touched
      refine Container.map_name_modify ?_ cs index
      intro c
      rfl
  have hinit : (pod.injected s index left).initContainers.getD [] =
      pod.initContainers.getD [] ++ [left.container] := rfl
  unfold containerNames
  rw [List.map_append, hcontainers, hinit, List.map_append, List.map_append, List.map_singleton,
    List.append_assoc]

/-- In a pod that is not provisioned only the containers can have the reserved name. -/
theorem PodSpec.initContainerName_mem_iff {pod : PodSpec} (hprovisioned : ¬ pod.isProvisioned) :
    Reserved.initContainerName ∈ pod.containerNames ↔
      ∃ c ∈ pod.containers.getD [], c.name = Reserved.initContainerName := by
  have hfresh := not_isProvisioned_iff.mp hprovisioned
  unfold containerNames
  rw [List.mem_map]
  constructor
  · rintro ⟨c, hc, hname⟩
    rcases List.mem_append.mp hc with hmem | hinit
    · exact ⟨c, hmem, hname⟩
    · exact absurd hname (hfresh c hinit)
  · rintro ⟨c, hc, hname⟩
    exact ⟨c, List.mem_append_left _ hc, hname⟩

namespace Injector

/-- **When distinct container names stay distinct.** A successful attempt adds the name of the init
container to the names of the pod, and this is a new name unless one of the pod's containers has
it. -/
theorem nodup_containerNames_iff (i : Injector) {d : Deployment} {pod : PodSpec}
    (hpod : d.pod = some pod) (hdistinct : pod.containerNames.Nodup) {target : Target d.containers}
    (htarget : target.InPod) (hname : i.builder.KeepsName) {uri : Text} {given : Option Text}
    (hresult : (i.inject d target uri given).result = .ok true) :
    ∃ after, (i.inject d target uri given).deployment.pod = some after ∧
      after.containerNames = pod.containerNames ++ [Reserved.initContainerName] ∧
      (after.containerNames.Nodup ↔
        ∀ c ∈ pod.containers.getD [], c.name ≠ Reserved.initContainerName) := by
  have hcourse := i.course hpod target uri given
  obtain ⟨hprovisioned, -⟩ := hcourse.of_succeeded hresult
  obtain ⟨index, c, plan, -, -, -, hdeployment⟩ := hcourse.injected_of_succeeded hpod htarget hresult
  have hnames := pod.containerNames_injected i.settings index (i.builder (i.asked d pod given plan))
  rw [asked_name_kept hname] at hnames
  refine ⟨_, by rw [hdeployment], hnames, ?_⟩
  -- what is appended has to be new, and the guard rules out the init containers
  rw [hnames, ← List.concat_eq_append, List.nodup_concat, and_iff_left hdistinct,
    PodSpec.initContainerName_mem_iff hprovisioned]
  simp

/-- A pod with a proxy and a user container has three distinct names afterwards. -/
theorem nodup_containerNames_kept :
    ∃ after, ((Sample.injector Sample.attached).inject (Sample.deployment Sample.pod)
        (.own ⟨0, by decide⟩) Sample.claimUri none).deployment.pod = some after ∧
      after.containerNames.Nodup := by
  have htarget : (.own ⟨0, by decide⟩ : Target (Sample.deployment Sample.pod).containers).InPod :=
    trivial
  have hname : (Sample.injector Sample.attached).builder.KeepsName :=
    Script.keepsName (by simp [Sample.attached, Action.LeavesName])
  have hresult : ((Sample.injector Sample.attached).inject (Sample.deployment Sample.pod)
      (.own ⟨0, by decide⟩) Sample.claimUri none).result = .ok true := rfl
  obtain ⟨after, hafter, -, hiff⟩ := nodup_containerNames_iff (Sample.injector Sample.attached)
    rfl (by decide) htarget hname hresult
  exact ⟨after, hafter, hiff.mpr (by decide)⟩

end Injector

/-- A pod whose sidecar has the name of the init container. -/
def Sample.clashing : PodSpec where
  containers := some [{ name := Reserved.userContainerName }, { name := Reserved.initContainerName }]
  initContainers := none
  volumes := none
  serviceAccountName := none

/-- The guard lets such a pod pass, and after an attempt that succeeds two containers have the
name. -/
theorem Injector.nodup_containerNames_lost :
    let report := (Sample.injector []).inject (Sample.deployment Sample.clashing) .configured
      ("s3://bucket/model" : Text) none
    Sample.clashing.containerNames.Nodup ∧ ¬ Sample.clashing.isProvisioned ∧
      (Sample.injector []).builder.KeepsName ∧ report.result = .ok true ∧
      ∃ after, report.deployment.pod = some after ∧ ¬ after.containerNames.Nodup := by
  refine ⟨by decide, by decide, fun _ => rfl, rfl, _, rfl, by decide⟩

end ModelProvision
