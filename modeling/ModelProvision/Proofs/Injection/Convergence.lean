import ModelProvision.Proofs.Injection.Mounts

/-!
# Injecting anew

When the init container is taken out of a pod and an attempt is made again, perhaps for another
source and with other settings, the volumes and the mount of the first attempt are still in the pod.
They stand where the second attempt puts its own, so nothing of the first one is left:
**`Injector.inject_anew`** says that the pod ends up as if the second attempt had been the only one.

A container that is given by its index stands at the same one in what the first attempt leaves
(`Injector.length_containers_inject`), so one target serves for both deployments (`Target.onto`).

The reason is `Keyed.merge_merge_of_keys_eq`, once for the volumes, which two sources of one kind
plan under the same names, and once for the mounts of the user container. The rest is that the
second attempt asks the builder the same (`asked_again`) and writes to the same places
(`PodSpec.injected_again`).
-/

namespace ModelProvision

/-- The pod without the init container that fetches the model. -/
def PodSpec.withoutInitializer (pod : PodSpec) : PodSpec :=
  { pod with initContainers := pod.initContainers.map fun cs =>
      cs.filter fun c => c.name ≠ Reserved.initContainerName }

def Deployment.withoutInitializer (d : Deployment) : Deployment :=
  { d with pod := d.pod.map PodSpec.withoutInitializer }

/-- The builder returned and did at most change the init container, which kept its name. -/
structure Attachment.EditsContainer (left : Attachment) (request : AttachRequest) : Prop where
  returned : left.fault = none
  volumes_eq : left.volumes = request.volumes
  name_eq : left.container.name = request.container.name

/-! ## One target in two deployments

The second attempt is for the container that it would have been for without the first. An attempt
neither adds nor removes a container, so an index of the one deployment is an index of the other. -/

/-- The same target among as many containers. -/
def Target.onto {containers containers' : List Container}
    (h : containers'.length = containers.length) : Target containers → Target containers'
  | .configured => .configured
  | .own index => .own (index.cast h.symm)
  | .elsewhere c => .elsewhere c

/-- The target means the container at that index as long as those before it are what they were and
its name stays. -/
theorem Target.Selects.onto {containers containers' : List Container} {target : Target containers}
    {name : Text} {index : Nat} {c c' : Container} (h : target.Selects name index c)
    (hlength : containers'.length = containers.length) (hat : containers'[index]? = some c')
    (hname : c'.name = c.name) (hbefore : ∀ j < index, containers'[j]? = containers[j]?) :
    (target.onto hlength).Selects name index c' := by
  refine ⟨hat, ?_⟩
  cases target with
  | own given => exact h.2
  | elsewhere other => exact absurd h.2 id
  -- the first of its name is still the first, as nothing before it changed
  | configured =>
    obtain ⟨hmeant, hfirst⟩ := h.2
    refine ⟨hname.trans hmeant, fun j hj earlier hearlier => ?_⟩
    rw [hbefore j hj] at hearlier
    exact hfirst j hj earlier hearlier

theorem PodSpec.length_containers_commit (pod : PodSpec) (volumes : List Volume)
    (initContainer : Container) (user : Selection) :
    ((pod.commit volumes initContainer user).containers.getD []).length =
      (pod.containers.getD []).length := by
  rw [commit]
  cases user.index with
  | none => rfl
  | some index => cases pod.containers <;> simp

/-- **An attempt leaves as many containers as there were**, however it ends. -/
theorem Injector.length_containers_inject (i : Injector) (d : Deployment)
    (target : Target d.containers) (uri : Text) (given : Option Text) :
    (i.inject d target uri given).deployment.withoutInitializer.containers.length =
      d.containers.length := by
  -- taking the init container out concerns another list
  have hstripped : ∀ d : Deployment, d.withoutInitializer.containers = d.containers := by
    rintro ⟨_, _, _, _ | pod⟩ <;> rfl
  rw [hstripped]
  cases hpod : d.pod with
  | none => simp only [inject, hpod]
  | some pod =>
    have hcontainers := Deployment.containers_of_pod hpod
    -- by the course it took: only a success writes to a container
    cases i.course hpod target uri given with
    | skipped _ _ _ hdeployment => rw [hdeployment]
    | unselected _ _ _ _ hdeployment => rw [hdeployment]
    | malformed _ _ _ _ _ hdeployment => rw [hdeployment]
    | refused _ _ _ _ _ _ hdeployment =>
      rw [hdeployment, hcontainers]
      rfl
    | injected _ _ _ _ _ _ hdeployment =>
      rw [hdeployment, hcontainers]
      exact pod.length_containers_commit _ _ _

/-! ## An attempt with nothing in its way -/

namespace Injector

/-- The builder is asked, and if it returns the attempt succeeds. -/
theorem Course.of_selects {i : Injector} {d : Deployment} {pod : PodSpec}
    {target : Target d.containers} {uri : Text} {given : Option Text} {report : Report}
    (hcourse : i.Course d pod target uri given report) (hpod : d.pod = some pod)
    (hprovisioned : ¬ pod.isProvisioned)
    {index : Nat} {c : Container}
    (hselects : target.Selects (i.settings.value .userContainerName) index c)
    (huri : ¬ Source.Malformed uri) :
    ∃ plan, Plan.ofUri i.settings.mountPaths uri = .ok plan ∧
      report.requests = [i.asked d pod given plan] ∧
      ((i.builder (i.asked d pod given plan)).fault = none →
        report.result = .ok true ∧
        report.deployment =
          { d with pod := some (pod.injected i.settings index
            (i.builder (i.asked d pod given plan))) }) := by
  have hselect := Target.select_of_selects hselects
  cases hcourse with
  | skipped h => exact absurd h hprovisioned
  | unselected _ hunselected => exact absurd (hselect.symm.trans hunselected) (by simp)
  | malformed _ _ h => exact absurd h huri
  | refused _ _ hplan hfault _ hrequests =>
    exact ⟨_, hplan, hrequests, fun hnone => absurd (hnone.symm.trans hfault) (by simp)⟩
  | injected _ hselect' hplan _ hresult hrequests hdeployment =>
    -- a target means one container
    obtain rfl := Except.ok.inj (hselect'.symm.trans hselect)
    rw [PodSpec.commit_eq_injected hpod _ hselects hplan] at hdeployment
    exact ⟨_, hplan, hrequests, fun _ => ⟨hresult, hdeployment⟩⟩

end Injector

/-! ## The pod that the first attempt leaves behind

Without its init container it differs from the pod before the first attempt in what the second one
writes anew. -/

/-- Of two mounts of one volume, one after the other, the second is left. -/
theorem Container.withMount_withMount (c : Container) {m n : VolumeMount} (h : m.name = n.name) :
    (c.withMount m).withMount n = c.withMount n := by
  have hmounts : Keyed.merge VolumeMount.name
      (Keyed.merge VolumeMount.name (c.volumeMounts.getD []) [m]) [n] =
        Keyed.merge VolumeMount.name (c.volumeMounts.getD []) [n] :=
    Keyed.merge_merge_of_keys_eq (by rw [List.map_singleton, List.map_singleton, h]) _
  simp only [withMount, Option.getD_some, hmounts]

section Again

variable {pod : PodSpec} {left : Attachment}

/-- Taking the init container out leaves the init containers from before the first attempt. -/
theorem PodSpec.initContainers_withoutInitializer
    (hfresh : ∀ c ∈ pod.initContainers.getD [], c.name ≠ Reserved.initContainerName)
    (hname : left.container.name = Reserved.initContainerName) (s : Settings) (index : Nat) :
    (pod.injected s index left).withoutInitializer.initContainers =
      some (pod.initContainers.getD []) := by
  -- the guard had let the pod pass, so none of the old ones is taken out
  have hkept : (pod.initContainers.getD []).filter (fun c => c.name ≠ Reserved.initContainerName) =
      pod.initContainers.getD [] := by
    rw [List.filter_eq_self]
    intro c hc
    exact decide_eq_true (hfresh c hc)
  have hremoved : [left.container].filter (fun c => c.name ≠ Reserved.initContainerName) = [] :=
    List.filter_cons_of_neg (by simp [hname])
  simp only [withoutInitializer, injected, Option.map_some, List.filter_append, hkept, hremoved,
    List.append_nil]

/-- A second attempt writes over what the first one wrote. -/
theorem PodSpec.injected_again
    (hfresh : ∀ c ∈ pod.initContainers.getD [], c.name ≠ Reserved.initContainerName)
    (hname : left.container.name = Reserved.initContainerName) (s s' : Settings) (index : Nat)
    (left' : Attachment) :
    (pod.injected s index left).withoutInitializer.injected s' index left' =
      pod.injected s' index left' := by
  -- the two mounts have one name, whatever the paths
  have hmodify : ∀ cs : List Container,
      (cs.modify index fun c => c.withMount (scratchMount s.mountPaths true)).modify index
        (fun c => c.withMount (scratchMount s'.mountPaths true)) =
          cs.modify index fun c => c.withMount (scratchMount s'.mountPaths true) := by
    intro cs
    rw [List.modify_modify_eq]
    congr 1
    funext c
    exact c.withMount_withMount rfl
  -- field by field: the volumes are the builder's, and the account is never written
  have hcontainers : ((pod.injected s index left).withoutInitializer.injected s' index
      left').containers = (pod.injected s' index left').containers := by
    show ((pod.injected s index left).containers.map _) = _
    rw [containers_injected, containers_injected, Option.map_map]
    congr 1
    funext cs
    exact hmodify cs
  have hinits : ((pod.injected s index left).withoutInitializer.injected s' index
      left').initContainers = (pod.injected s' index left').initContainers := by
    show some ((pod.injected s index left).withoutInitializer.initContainers.getD [] ++ _) = _
    rw [initContainers_withoutInitializer hfresh hname]
    rfl
  exact (PodSpec.mk.injEq ..).mpr ⟨hcontainers, hinits, rfl, rfl⟩

/-- The builder is asked the same as if there had been no first attempt. -/
theorem Injector.asked_again {planned : List Volume}
    (hvolumes : left.volumes = Keyed.merge Volume.name (pod.volumes.getD []) planned) {plan : Plan}
    (hnames : planned.map Volume.name = plan.volumes.map Volume.name) (i : Injector)
    {d d' : Deployment} (hmetadata : d'.metadata = d.metadata) (s : Settings) (index : Nat)
    (given : Option Text) :
    i.asked d' (pod.injected s index left).withoutInitializer given plan =
      i.asked d pod given plan := by
  -- the planned names are those of the first attempt, so the merge starts from the same
  have hmerge : Keyed.merge Volume.name
      ((pod.injected s index left).withoutInitializer.volumes.getD []) plan.volumes =
        Keyed.merge Volume.name (pod.volumes.getD []) plan.volumes := by
    show Keyed.merge Volume.name left.volumes plan.volumes = _
    rw [hvolumes, Keyed.merge_merge_of_keys_eq hnames]
  simp only [asked, hmerge, hmetadata]
  rfl

/-- The target still means the container at that index, which has a mount more. -/
theorem Target.Selects.again {d d' : Deployment} (hpod : d.pod = some pod) {name : Text}
    {target : Target d.containers} {index : Nat} {c : Container}
    (h : target.Selects name index c) (s : Settings)
    (hpod' : d'.pod = some (pod.injected s index left).withoutInitializer)
    (hlength : d'.containers.length = d.containers.length) :
    (target.onto hlength).Selects name index (c.withMount (scratchMount s.mountPaths true)) := by
  have hcontainers : d'.containers = (pod.injected s index left).containers.getD [] := by
    rw [Deployment.containers_of_pod hpod']
    rfl
  refine h.onto hlength ?_ rfl fun j hj => ?_
  · rw [hcontainers]
    exact PodSpec.getElem?_containers_injected hpod h.1 left
  · -- the containers before it are untouched
    rw [hcontainers, PodSpec.getD_containers_injected,
      List.getElem?_modify_ne _ _ (Nat.ne_of_gt hj), Deployment.containers_of_pod hpod]

end Again

/-! ## Both attempts -/

namespace Injector

/-- **A second attempt leaves nothing of a first one.** Both attempts are for one container and for
sources of one kind. The builder of the first one only edits the init container; of that of the
second one it is asked only that it returns. When the init container is taken out after the first
attempt, the second one leaves what it would have left without the first. -/
theorem inject_anew (first second : Injector) {d : Deployment} {pod : PodSpec}
    (hpod : d.pod = some pod)
    (hfresh : ∀ c ∈ pod.initContainers.getD [], c.name ≠ Reserved.initContainerName)
    {target target' : Target d.containers} {index : Nat} {c : Container}
    (hselects : target.Selects (first.settings.value .userContainerName) index c)
    (hselects' : target'.Selects (second.settings.value .userContainerName) index c)
    {uri uri' : Text} (huri : ¬ Source.Malformed uri) (huri' : ¬ Source.Malformed uri')
    (hkind : ClaimPath.isClaimUri uri = ClaimPath.isClaimUri uri') (given given' : Option Text)
    (hbuilder : ∀ request ∈ (first.inject d target uri given).requests,
      (first.builder request).EditsContainer request)
    (hbuilder' : ∀ request ∈ (second.inject d target' uri' given').requests,
      (second.builder request).fault = none) :
    let before := first.inject d target uri given
    let once := second.inject d target' uri' given'
    let again := second.inject before.deployment.withoutInitializer
      (target'.onto (first.length_containers_inject d target uri given)) uri' given'
    before.result = .ok true ∧ once.result = .ok true ∧ again.result = .ok true ∧
      again.deployment = once.deployment := by
  intro before once again
  have hnot : ¬ pod.isProvisioned := PodSpec.not_isProvisioned_iff.mpr hfresh
  -- the first attempt
  obtain ⟨plan, hplan, hrequests, hsucceeds⟩ :=
    (first.course hpod target uri given).of_selects hpod hnot hselects huri
  obtain ⟨hreturned, hvolumes, hname⟩ :=
    hbuilder _ (hrequests ▸ List.mem_singleton_self _)
  obtain ⟨hbefore, hleft⟩ := hsucceeds hreturned
  -- the second attempt, made at once
  obtain ⟨plan', hplan', hrequests', hsucceeds'⟩ :=
    (second.course hpod target' uri' given').of_selects hpod hnot hselects' huri'
  have hreturned' := hbuilder' _ (hrequests' ▸ List.mem_singleton_self _)
  obtain ⟨honce, hleft'⟩ := hsucceeds' hreturned'
  refine ⟨hbefore, honce, ?_⟩
  -- the second attempt, made after the first
  have hstripped : before.deployment.withoutInitializer =
      { d with pod := some (pod.injected first.settings index
        (first.builder (first.asked d pod given plan))).withoutInitializer } := by
    rw [hleft]
    rfl
  -- the guard lets the pod pass again, now that the init container is out
  have hnotAgain : ¬ (pod.injected first.settings index
      (first.builder (first.asked d pod given plan))).withoutInitializer.isProvisioned := by
    rw [PodSpec.not_isProvisioned_iff, PodSpec.initContainers_withoutInitializer hfresh hname]
    exact hfresh
  have hpodAgain := congrArg Deployment.pod hstripped
  have hlength := first.length_containers_inject d target uri given
  obtain ⟨planAgain, hplanAgain, -, hsucceedsAgain⟩ :=
    (second.course hpodAgain (target'.onto hlength) uri' given').of_selects hpodAgain hnotAgain
      (hselects'.again hpod first.settings hpodAgain hlength) huri'
  obtain rfl := Except.ok.inj (hplanAgain.symm.trans hplan')
  -- two sources of one kind plan volumes of the same names
  have hnames : plan.volumes.map Volume.name = planAgain.volumes.map Volume.name := by
    rw [Plan.map_name_volumes hplan, Plan.map_name_volumes hplan', hkind]
  have hmetadata : before.deployment.withoutInitializer.metadata = d.metadata := by
    rw [hstripped]
  -- so the second attempt asks what it would have asked at once, and writes the same
  have hasked := asked_again hvolumes hnames second hmetadata first.settings index given'
  rw [hasked] at hsucceedsAgain
  obtain ⟨hresult, hleftAgain⟩ := hsucceedsAgain hreturned'
  refine ⟨hresult, hleftAgain.trans ?_⟩
  rw [PodSpec.injected_again hfresh hname, hleft', hstripped]

end Injector

/-- An injector that puts the model somewhere else. -/
def Sample.relocated : Injector where
  builder := Script.builder [.setEnv []]
  settings :=
    { scope := .injector
      value := fun
        | .localMountPath => "/srv/models"
        | f => f.default }

/-- The first attempt is for the container at an index, the second one for it by its name. -/
theorem Injector.inject_anew_stale :
    let target : Target (Sample.deployment Sample.stale).containers := .own ⟨1, by decide⟩
    let before := Sample.relocated.inject (Sample.deployment Sample.stale) target
      ("pvc://tulip" : Text) none
    let once := (Sample.injector Sample.attached).inject (Sample.deployment Sample.stale)
      .configured Sample.claimUri none
    let again := (Sample.injector Sample.attached).inject before.deployment.withoutInitializer
      .configured Sample.claimUri none
    again.result = .ok true ∧ again.deployment = once.deployment := by
  intro target
  let user : Container :=
    { name := Reserved.userContainerName
      volumeMounts := some [⟨Reserved.scratchVolumeName, "/tmp", none, none⟩] }
  have hselects : target.Selects (Sample.relocated.settings.value .userContainerName) 1 user :=
    ⟨rfl, rfl⟩
  have hselects' : (.configured : Target (Sample.deployment Sample.stale).containers).Selects
      ((Sample.injector Sample.attached).settings.value .userContainerName) 1 user := by
    refine ⟨rfl, rfl, fun j hj earlier hearlier => ?_⟩
    obtain rfl := Nat.lt_one_iff.mp hj
    obtain rfl := Option.some.inj hearlier
    decide
  have huri : ¬ Source.Malformed ("pvc://tulip" : Text) := by decide
  have huri' : ¬ Source.Malformed Sample.claimUri := by decide
  have hkind : ClaimPath.isClaimUri ("pvc://tulip" : Text) =
      ClaimPath.isClaimUri Sample.claimUri := by decide
  have hanew := inject_anew Sample.relocated (Sample.injector Sample.attached)
    (d := Sample.deployment Sample.stale) rfl (by decide) hselects hselects' huri huri' hkind none
    none (List.forall_mem_singleton.mpr ⟨rfl, rfl, rfl⟩) (List.forall_mem_singleton.mpr rfl)
  exact hanew.2.2

end ModelProvision
