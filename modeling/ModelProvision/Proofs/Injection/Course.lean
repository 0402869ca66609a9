import ModelProvision.Proofs.Injection.Contract
import ModelProvision.Proofs.Source

/-!
# The courses an attempt can take

Theorems about injection do not look into `Injector.inject`. They go by three descriptions that
share no helper with it, and by one theorem that ties the descriptions to it:

* **`Target.Selects`** and **`Target.LacksUser`** say which container a target means
  (`select_of_selects`, `select_of_lacksUser`), and for a target of the pod one of them holds
  (`selects_of_select`, `lacksUser_of_select`);
* **`Injector.asked`** is the request to the builder, field by field (`request_eq_asked`);
* **`PodSpec.injected`** is the pod that a successful attempt leaves, field by field
  (`commit_eq_injected`);
* **`Injector.course`**: every attempt on a deployment with a pod takes one of five courses, and the
  constructors of `Injector.Course` say when each is taken and what it leaves.
-/

namespace ModelProvision

/-! ## Which container a target means

An index that is given is one of the deployment by its type, so only a container that lives elsewhere
is out of the pod. -/

namespace Target

variable {containers : List Container}

/-- The target is the configured container, or one that stands in the pod. -/
def InPod : Target containers → Prop
  | elsewhere _ => False
  | _ => True

instance : (target : Target containers) → Decidable target.InPod
  | .configured => inferInstanceAs (Decidable True)
  | .own _ => inferInstanceAs (Decidable True)
  | .elsewhere _ => inferInstanceAs (Decidable False)

/-- The container `c` at an index of the pod is the one that the target means: the one that is given,
or the first with the configured name. -/
def Selects (target : Target containers) (name : Text) (index : Nat) (c : Container) : Prop :=
  containers[index]? = some c ∧
    match target with
    | .configured =>
      c.name = name ∧
        ∀ j < index, ∀ earlier, containers[j]? = some earlier → earlier.name ≠ name
    | .own given => given.val = index
    | .elsewhere _ => False

/-- No container is given, and none has the configured name. -/
def LacksUser (target : Target containers) (name : Text) : Prop :=
  target = .configured ∧ ∀ c ∈ containers, c.name ≠ name

instance (target : Target containers) (name : Text) : Decidable (target.LacksUser name) :=
  inferInstanceAs (Decidable (_ ∧ _))

variable {target : Target containers} {name : Text} {index : Nat} {c : Container}
  {user : Selection} {fault : Fault}

/-- A name that no container has selects nothing. -/
theorem select_of_lacksUser (h : target.LacksUser name) :
    target.select name = .error (.userContainerNotFound name) := by
  obtain ⟨rfl, hnone⟩ := h
  have hfind : findContainer? (some containers) name = none :=
    (findContainer?_eq_none_iff _ _).mpr hnone
  simp only [select, hfind]

/-- The description fits what is selected. By name that is because there is only one first container
that has it. -/
theorem select_of_selects (h : target.Selects name index c) :
    target.select name = .ok ⟨some index, c⟩ := by
  obtain ⟨hat, hmeant⟩ := h
  cases target with
  | own given =>
    obtain rfl : given.val = index := hmeant
    have hgiven : containers[given] = c := by
      rw [List.getElem?_eq_getElem given.isLt] at hat
      exact Option.some.inj hat
    simp only [select, hgiven]
  | elsewhere other => exact absurd hmeant id
  | configured =>
    obtain ⟨hname, hfirst⟩ := hmeant
    cases hfind : findContainer? (some containers) name with
    | none =>
      have hne := (findContainer?_eq_none_iff _ _).mp hfind c (List.mem_of_getElem? hat)
      exact absurd hname hne
    | some found =>
      obtain ⟨hfound, hfoundName, hfoundFirst⟩ := findContainer?_eq_some hfind
      rw [Option.getD_some] at hfound hfoundFirst
      -- two first containers of one name stand at one index
      have hindex : found.index = index := by
        rcases Nat.lt_trichotomy found.index index with hlt | heq | hgt
        · exact absurd hfoundName (hfirst found.index hlt found.container hfound)
        · exact heq
        · exact absurd hname (hfoundFirst index hgt c hat)
      have hcontainer : found.container = c := by
        rw [hindex, hat] at hfound
        exact (Option.some.inj hfound).symm
      simp only [select, hfind, hindex, hcontainer]

theorem not_lacksUser_of_select (h : target.select name = .ok user) : ¬ target.LacksUser name := by
  intro hlacks
  rw [select_of_lacksUser hlacks] at h
  exact absurd h (by simp)

/-- A target of the pod means a container, unless the name that is configured leads to none. -/
theorem exists_selects (htarget : target.InPod) (hlacks : ¬ target.LacksUser name) :
    ∃ index c, target.Selects name index c := by
  cases target with
  | own given =>
    exact ⟨given, containers[given], List.getElem?_eq_getElem given.isLt, rfl⟩
  | elsewhere other => exact absurd htarget id
  | configured =>
    cases hfind : findContainer? (some containers) name with
    | none => exact absurd ⟨rfl, (findContainer?_eq_none_iff _ _).mp hfind⟩ hlacks
    | some found => exact ⟨found.index, found.container, findContainer?_eq_some hfind⟩

/-- Whatever is selected for a target of the pod is the container that the target means … -/
theorem selects_of_select (htarget : target.InPod) (h : target.select name = .ok user) :
    ∃ index c, target.Selects name index c ∧ user = ⟨some index, c⟩ := by
  obtain ⟨index, c, hselects⟩ := exists_selects htarget (not_lacksUser_of_select h)
  rw [select_of_selects hselects] at h
  exact ⟨index, c, hselects, (Except.ok.inj h).symm⟩

/-- … and where selecting fails there is no such container. -/
theorem lacksUser_of_select (htarget : target.InPod) (h : target.select name = .error fault) :
    target.LacksUser name ∧ fault = .userContainerNotFound name := by
  have hlacks : target.LacksUser name := by
    by_contra hlacks
    obtain ⟨index, c, hselects⟩ := exists_selects htarget hlacks
    rw [select_of_selects hselects] at h
    exact absurd h (by simp)
  rw [select_of_lacksUser hlacks] at h
  exact ⟨hlacks, (Except.error.inj h).symm⟩

end Target

/-- The guard is passed where no init container has the reserved name. -/
theorem PodSpec.not_isProvisioned_iff {pod : PodSpec} :
    ¬ pod.isProvisioned ↔
      ∀ c ∈ pod.initContainers.getD [], c.name ≠ Reserved.initContainerName := by
  rw [isProvisioned_iff]
  simp

/-! ## The request and the pod that is left, field by field

`Injector.asked` is what the builder is asked for a plan. A builder that keeps names leaves the
container of this request with the reserved name (`asked_name_kept`). -/

def Injector.asked (i : Injector) (d : Deployment) (pod : PodSpec) (given : Option Text)
    (plan : Plan) : AttachRequest where
  namespaceName := d.metadata.bind Metadata.namespaceName
  serviceAccountName := if given = none ∨ given = some [] then pod.serviceAccountName else given
  container :=
    { name := Reserved.initContainerName
      image := some (i.settings.value .initializerImage ++ ":" ++
        i.settings.value .initializerVersion)
      args := some [plan.sourceUri, i.settings.value .localMountPath]
      env := none
      volumeMounts := some plan.initMounts }
  volumes := Keyed.merge Volume.name (pod.volumes.getD []) plan.volumes

/-- The pod with the model initializer, of which the builder left this much, and with the scratch
volume mounted for reading in the container at an index. -/
def PodSpec.injected (pod : PodSpec) (s : Settings) (index : Nat) (left : Attachment) : PodSpec :=
  { pod with
    containers := pod.containers.map fun cs => cs.modify index fun c =>
      { c with volumeMounts := some (Keyed.merge VolumeMount.name (c.volumeMounts.getD [])
        [{ name := Reserved.scratchVolumeName
           mountPath := s.value .localMountPath
           readOnly := some true
           subPath := none }]) }
    volumes := some left.volumes
    initContainers := some (pod.initContainers.getD [] ++ [left.container]) }

/-- The request that is composed from the staged volumes is the one described. -/
theorem Injector.request_eq_asked (i : Injector) (d : Deployment) (pod : PodSpec)
    (given : Option Text) (plan : Plan) : i.request d pod given plan = i.asked d pod given plan := by
  have haccount : serviceAccount given pod =
      if given = none ∨ given = some [] then pod.serviceAccountName else given := by
    -- an empty name counts as none
    cases given with
    | none => rfl
    | some name => cases name <;> rfl
  rw [request, asked, map_snd_stage, haccount]
  rfl

theorem Injector.asked_name_kept {i : Injector} (hname : i.builder.KeepsName) (d : Deployment)
    (pod : PodSpec) (given : Option Text) (plan : Plan) :
    (i.builder (i.asked d pod given plan)).container.name = Reserved.initContainerName := by
  rw [hname]
  rfl

/-- Whatever the source, the user container gets one and the same mount. -/
theorem Plan.userMount_eq {paths : MountPaths} {uri : Text} {plan : Plan}
    (h : Plan.ofUri paths uri = .ok plan) :
    plan.userMount =
      { name := Reserved.scratchVolumeName
        mountPath := paths.localPath
        readOnly := some true
        subPath := none } := by
  rw [Plan.ofUri_eq_map] at h
  cases hsource : Source.ofUri uri with
  | error fault => rw [hsource] at h; exact absurd h (by simp [Except.map])
  | ok source =>
    rw [hsource] at h
    obtain rfl := Except.ok.inj h
    cases source <;> rfl

/-- What is written to the pod of a deployment, by the container that was selected in it. -/
theorem PodSpec.commit_eq_injected {d : Deployment} {pod : PodSpec} (hpod : d.pod = some pod)
    {i : Injector} {target : Target d.containers} {index : Nat} {c : Container} {uri : Text}
    {plan : Plan} (left : Attachment)
    (hselects : target.Selects (i.settings.value .userContainerName) index c)
    (hplan : Plan.ofUri i.settings.mountPaths uri = .ok plan) :
    pod.commit left.volumes left.container ⟨some index, c.withMount plan.userMount⟩ =
      pod.injected i.settings index left := by
  -- writing a container back to its index is modifying the one that stands there
  have hcontainers : (pod.containers.map fun cs => cs.set index (c.withMount plan.userMount)) =
      (pod.injected i.settings index left).containers := by
    have hat := hselects.1
    rw [Deployment.containers_of_pod hpod] at hat
    cases hcs : pod.containers with
    | none => simp [injected, hcs]
    | some cs =>
      rw [hcs, Option.getD_some] at hat
      obtain ⟨hlt, hget⟩ := List.getElem?_eq_some_iff.mp hat
      simp only [injected, hcs, Option.map_some, Plan.userMount_eq hplan]
      rw [List.modify_eq_take_cons_drop hlt, List.set_eq_take_append_cons_drop, if_pos hlt, hget]
      rfl
  simp only [commit, hcontainers]
  rfl

/-! ## The five courses -/

/-- What an attempt on a deployment with the pod `pod` came to. When the builder refused, what it
did to volumes of the pod stays. -/
inductive Injector.Course (i : Injector) (d : Deployment) (pod : PodSpec)
    (target : Target d.containers) (uri : Text) (given : Option Text) (report : Report) : Prop where
  | skipped (hprovisioned : pod.isProvisioned)
      (hresult : report.result = .ok false)
      (hrequests : report.requests = [])
      (hdeployment : report.deployment = d)
  | unselected (hprovisioned : ¬ pod.isProvisioned) {fault : Fault}
      (hselect : target.select (i.settings.value .userContainerName) = .error fault)
      (hresult : report.result = .error fault)
      (hrequests : report.requests = [])
      (hdeployment : report.deployment = d)
  | malformed (hprovisioned : ¬ pod.isProvisioned) {user : Selection}
      (hselect : target.select (i.settings.value .userContainerName) = .ok user)
      (huri : Source.Malformed uri)
      (hresult : report.result = .error (.invalidUri uri .null))
      (hrequests : report.requests = [])
      (hdeployment : report.deployment = d)
  | refused (hprovisioned : ¬ pod.isProvisioned) {user : Selection} {plan : Plan} {fault : Fault}
      (hselect : target.select (i.settings.value .userContainerName) = .ok user)
      (hplan : Plan.ofUri i.settings.mountPaths uri = .ok plan)
      (hfault : (i.builder (i.asked d pod given plan)).fault = some fault)
      (hresult : report.result = .error fault)
      (hrequests : report.requests = [i.asked d pod given plan])
      (hdeployment : report.deployment =
        { d with pod := some (pod.ownAfter
          ((stage (pod.volumes.getD []) plan.volumes).map Prod.fst)
          (i.builder (i.asked d pod given plan)).handed) })
  | injected (hprovisioned : ¬ pod.isProvisioned) {user : Selection} {plan : Plan}
      (hselect : target.select (i.settings.value .userContainerName) = .ok user)
      (hplan : Plan.ofUri i.settings.mountPaths uri = .ok plan)
      (hfault : (i.builder (i.asked d pod given plan)).fault = none)
      (hresult : report.result = .ok true)
      (hrequests : report.requests = [i.asked d pod given plan])
      (hdeployment : report.deployment =
        { d with pod := some (pod.commit
          (i.builder (i.asked d pod given plan)).volumes
          (i.builder (i.asked d pod given plan)).container
          { user with container := user.container.withMount plan.userMount }) })

/-- **Every attempt takes one of the five courses.** The cases are the stages of the attempt, in
their order. -/
theorem Injector.course (i : Injector) {d : Deployment} {pod : PodSpec} (hpod : d.pod = some pod)
    (target : Target d.containers) (uri : Text) (given : Option Text) :
    i.Course d pod target uri given (i.inject d target uri given) := by
  simp only [inject, hpod]
  by_cases hprovisioned : pod.isProvisioned = true
  · rw [if_pos hprovisioned]
    exact .skipped hprovisioned rfl rfl rfl
  · rw [if_neg hprovisioned]
    -- the guard is passed, and the container is selected before the URI is looked at
    cases hselect : target.select (i.settings.value .userContainerName) with
    | error fault => exact .unselected hprovisioned hselect rfl rfl rfl
    | ok user =>
      have hvalue : Source.ofValue (.string uri) = Source.ofUri uri := rfl
      simp only [hvalue]
      cases hsource : Source.ofUri uri with
      | error fault =>
        obtain ⟨huri, rfl⟩ := Source.ofUri_eq_error_iff.mp hsource
        exact .malformed hprovisioned hselect huri rfl rfl rfl
      | ok source =>
        have hplan : Plan.ofUri i.settings.mountPaths uri =
            .ok (Plan.ofSource i.settings.mountPaths source) := by
          rw [Plan.ofUri_eq_map, hsource]
          rfl
        simp only [carryOut, request_eq_asked]
        -- whether the builder fails decides between the last two courses
        cases hfault : (i.builder
            (i.asked d pod given (Plan.ofSource i.settings.mountPaths source))).fault with
        | some fault => exact .refused hprovisioned hselect hplan hfault rfl rfl rfl
        | none => exact .injected hprovisioned hselect hplan hfault rfl rfl rfl

/-- Only one course succeeds, so a successful attempt has everything that course says. -/
theorem Injector.Course.of_succeeded {i : Injector} {d : Deployment} {pod : PodSpec}
    {target : Target d.containers} {uri : Text} {given : Option Text} {report : Report}
    (hcourse : i.Course d pod target uri given report) (hresult : report.result = .ok true) :
    ¬ pod.isProvisioned ∧ ∃ user plan,
      target.select (i.settings.value .userContainerName) = .ok user ∧
      Plan.ofUri i.settings.mountPaths uri = .ok plan ∧
      (i.builder (i.asked d pod given plan)).fault = none ∧
      report.requests = [i.asked d pod given plan] ∧
      report.deployment =
        { d with pod := some (pod.commit
          (i.builder (i.asked d pod given plan)).volumes
          (i.builder (i.asked d pod given plan)).container
          { user with container := user.container.withMount plan.userMount }) } := by
  cases hcourse with
  | injected hprovisioned hselect hplan hfault _ hrequests hdeployment =>
    exact ⟨hprovisioned, _, _, hselect, hplan, hfault, hrequests, hdeployment⟩
  | skipped _ hskipped => exact absurd (hskipped.symm.trans hresult) (by simp)
  | unselected _ _ hfailed => exact absurd (hfailed.symm.trans hresult) (by simp)
  | malformed _ _ _ hfailed => exact absurd (hfailed.symm.trans hresult) (by simp)
  | refused _ _ _ _ hfailed => exact absurd (hfailed.symm.trans hresult) (by simp)

end ModelProvision
