import ModelProvision.Proofs.Injection.Volumes

/-!
# Mounts of a pod after injection

A container finds a volume by the name that its mount gives. An attempt writes mounts and volumes
apart from each other, so two things have to be shown to fit:

* **`Injector.inject_links_mounts`**: a pod whose mounts all mean a volume is still such a pod, and
  the two mounts of the scratch volume, one for writing and one for reading, mean the same empty
  volume. The step behind the first half is `PodSpec.mountsResolve_injected`.
* **`Injector.readOnly_scratchMounts_iff`**: in the user container a new mount takes the place of
  the last one of the scratch volume. The ones before it survive as they were, so the scratch volume
  can only be read there, and only at the configured path, exactly if that held of all but the last
  mount before. `Injector.writable_scratchMount_survives` is a pod where it did not.
-/

namespace ModelProvision

/-- Every mount of a container or init container means a volume of the pod. -/
def PodSpec.MountsResolve (pod : PodSpec) : Prop :=
  ∀ c ∈ pod.containers.getD [] ++ pod.initContainers.getD [], ∀ m ∈ c.volumeMounts.getD [],
    m.name ∈ pod.volumeNames

instance (pod : PodSpec) : Decidable pod.MountsResolve :=
  inferInstanceAs (Decidable (∀ c ∈ _, ∀ m ∈ _, _))

/-- The mounts of one volume in a container. -/
def Container.mountsOf (c : Container) (volume : Text) : List VolumeMount :=
  Keyed.withKey VolumeMount.name volume (c.volumeMounts.getD [])

/-- The builder added these volumes and mounts behind those of the request, and each of the mounts
means a volume that is then in the list. What else it did to the container is left open. -/
structure Attachment.Appends (left : Attachment) (request : AttachRequest) (volumes : List Volume)
    (mounts : List VolumeMount) : Prop where
  volumes_eq : left.volumes = request.volumes ++ volumes
  mounts_eq : left.container.volumeMounts.getD [] =
    request.container.volumeMounts.getD [] ++ mounts
  resolve : ∀ m ∈ mounts, m.name ∈ left.volumes.map Volume.name

/-! ## The containers that are left -/

/-- An entry of a list with one entry modified is an entry from before or the modification of
one. -/
theorem mem_of_mem_modify {α : Type} {f : α → α} {l : List α} {index : Nat} {x : α}
    (h : x ∈ l.modify index f) : x ∈ l ∨ ∃ y ∈ l, x = f y := by
  obtain ⟨j, hj⟩ := List.getElem?_of_mem h
  rw [List.getElem?_modify, Option.map_eq_map, Option.map_eq_some_iff] at hj
  obtain ⟨y, hy, rfl⟩ := hj
  have hmem : y ∈ l := List.mem_of_getElem? hy
  split
  · exact .inr ⟨y, hmem, rfl⟩
  · exact .inl hmem

theorem PodSpec.containers_injected (pod : PodSpec) (s : Settings) (index : Nat)
    (left : Attachment) :
    (pod.injected s index left).containers = pod.containers.map fun cs =>
      cs.modify index fun c => c.withMount (scratchMount s.mountPaths true) :=
  rfl

theorem PodSpec.getD_containers_injected (pod : PodSpec) (s : Settings) (index : Nat)
    (left : Attachment) :
    (pod.injected s index left).containers.getD [] =
      (pod.containers.getD []).modify index fun c =>
        c.withMount (scratchMount s.mountPaths true) := by
  rw [containers_injected]
  cases pod.containers with
  | none => simp
  | some cs => rfl

theorem PodSpec.getElem?_containers_injected {d : Deployment} {pod : PodSpec}
    (hpod : d.pod = some pod) {s : Settings} {index : Nat} {c : Container}
    (h : d.containers[index]? = some c) (left : Attachment) :
    ((pod.injected s index left).containers.getD [])[index]? =
      some (c.withMount (scratchMount s.mountPaths true)) := by
  rw [Deployment.containers_of_pod hpod] at h
  rw [getD_containers_injected, List.getElem?_modify, h]
  simp

/-- Mounting a volume adds at most that mount … -/
theorem Container.mem_withMount {c : Container} {m n : VolumeMount}
    (h : n ∈ (c.withMount m).volumeMounts.getD []) : n ∈ c.volumeMounts.getD [] ∨ n = m := by
  have hn : n ∈ Keyed.merge VolumeMount.name (c.volumeMounts.getD []) [m] := h
  exact (Keyed.mem_merge hn).imp_right List.mem_singleton.mp

/-- … which comes in the place of the last mount of that volume, after all others of it … -/
theorem Container.mountsOf_withMount (c : Container) (m : VolumeMount) :
    (c.withMount m).mountsOf m.name = (c.mountsOf m.name).dropLast ++ [m] := by
  show Keyed.withKey VolumeMount.name m.name (Keyed.merge VolumeMount.name _ [m]) = _
  rw [Keyed.merge_singleton, Keyed.withKey_place_self]
  rfl

/-- … and is there in any case. -/
theorem Container.mem_withMount_self (c : Container) (m : VolumeMount) :
    m ∈ (c.withMount m).volumeMounts.getD [] := by
  have hm : m ∈ (c.withMount m).mountsOf m.name := by
    rw [mountsOf_withMount]
    exact List.mem_append_right _ (List.mem_singleton_self m)
  exact (Keyed.mem_withKey.mp hm).1

/-! ## Mounts still mean a volume -/

section Resolve

variable {i : Injector} {d : Deployment} {pod : PodSpec} {uri : Text} {given : Option Text}
  {plan : Plan} {left : Attachment} {volumes : List Volume} {mounts : List VolumeMount}

/-- Mounts keep meaning a volume: those from before because no name is lost, the new ones because
their volumes are planned or come with the builder. -/
theorem PodSpec.mountsResolve_injected (hplan : Plan.ofUri i.settings.mountPaths uri = .ok plan)
    (happends : left.Appends (i.asked d pod given plan) volumes mounts) (h : pod.MountsResolve)
    (index : Nat) : (pod.injected i.settings index left).MountsResolve := by
  -- volumes keep their names, so what a mount meant before it still means
  have hkept : ∀ c ∈ pod.containers.getD [] ++ pod.initContainers.getD [],
      ∀ m ∈ c.volumeMounts.getD [], m.name ∈ (pod.injected i.settings index left).volumeNames :=
    fun c hc m hm => mem_volumeNames_injected happends.volumes_eq _ _ (.inl (h c hc m hm))
  intro c hc m hm
  rcases List.mem_append.mp hc with hcontainer | hinit
  · rw [getD_containers_injected] at hcontainer
    rcases mem_of_mem_modify hcontainer with hold | ⟨user, huser, rfl⟩
    · exact hkept c (List.mem_append_left _ hold) m hm
    · -- the user container has one mount more, of a planned volume
      rcases Container.mem_withMount hm with hold | rfl
      · exact hkept user (List.mem_append_left _ huser) m hold
      · have hscratch := List.mem_map_of_mem (f := Volume.name) (Plan.scratchVolume_mem hplan)
        exact mem_volumeNames_injected happends.volumes_eq _ _ (.inr hscratch)
  -- the init containers from before, and the new one with the plan's mounts and the builder's
  · have hinits : c ∈ pod.initContainers.getD [] ++ [left.container] := hinit
    rcases List.mem_append.mp hinits with hold | hnew
    · exact hkept c (List.mem_append_right _ hold) m hm
    · obtain rfl := List.mem_singleton.mp hnew
      rw [happends.mounts_eq] at hm
      rcases List.mem_append.mp hm with hplanned | hadded
      · have hname : m.name ∈ plan.volumes.map Volume.name := by
          rw [← Plan.map_name_initMounts hplan]
          exact List.mem_map_of_mem hplanned
        exact mem_volumeNames_injected happends.volumes_eq _ _ (.inr hname)
      · exact happends.resolve m hadded

end Resolve

namespace Injector

/-- **Mounts and volumes fit.** Where all mounts meant a volume before, they do so after a
successful attempt. Where volume names were distinct and the builder used new ones, the init
container writes to the scratch volume at the path where the user container reads from it, and the
claim that it mounts for a claim URI is the one of the URI. -/
theorem inject_links_mounts (i : Injector) {d : Deployment} {pod : PodSpec}
    (hpod : d.pod = some pod) {target : Target d.containers} (htarget : target.InPod) {uri : Text}
    {given : Option Text}
    {volumes : List Volume} {mounts : List VolumeMount}
    (hbuilder : ∀ request ∈ (i.inject d target uri given).requests,
      (i.builder request).Appends request volumes mounts)
    (hresult : (i.inject d target uri given).result = .ok true) :
    ∃ index c after user init,
      target.Selects (i.settings.value .userContainerName) index c ∧
      (i.inject d target uri given).deployment.pod = some after ∧
      (after.containers.getD [])[index]? = some user ∧
      after.initContainers = some (pod.initContainers.getD [] ++ [init]) ∧
      (pod.MountsResolve → after.MountsResolve) ∧
      (pod.volumeNames.Nodup →
        (∀ request ∈ (i.inject d target uri given).requests, ∀ v ∈ volumes,
          v.name ∉ request.volumes.map Volume.name) →
        { name := Reserved.scratchVolumeName, mountPath := i.settings.value .localMountPath,
          readOnly := some false } ∈ init.volumeMounts.getD [] ∧
        { name := Reserved.scratchVolumeName, mountPath := i.settings.value .localMountPath,
          readOnly := some true } ∈ user.volumeMounts.getD [] ∧
        after.volumesNamed Reserved.scratchVolumeName =
          [{ name := Reserved.scratchVolumeName, source := some (.emptyDir none none) }] ∧
        (ClaimPath.isClaimUri uri →
          ∃ path, ClaimPath.parse uri = .ok path ∧
            { name := Reserved.claimVolumeName, mountPath := i.settings.value .claimMountPath,
              readOnly := some true } ∈ init.volumeMounts.getD [] ∧
            after.volumesNamed Reserved.claimVolumeName =
              [{ name := Reserved.claimVolumeName
                 source := some (.claim path.claim none) }])) := by
  have hcourse := i.course hpod target uri given
  obtain ⟨index, c, plan, hselects, hplan, hrequests, hdeployment⟩ :=
    hcourse.injected_of_succeeded hpod htarget hresult
  rw [hrequests] at hbuilder ⊢
  have happends := hbuilder _ (List.mem_singleton_self _)
  refine ⟨index, c, _, _, _, hselects, by rw [hdeployment],
    PodSpec.getElem?_containers_injected hpod hselects.1 _, rfl,
    fun h => PodSpec.mountsResolve_injected hplan happends h index, fun hdistinct hnew => ?_⟩
  have hplanned := Plan.nodup_map_name_volumes hplan
  have hfresh := hnew _ (List.mem_singleton_self _)
  -- a mount of the plan is still there when the builder has added its own
  have hinit : ∀ m ∈ plan.initMounts,
      m ∈ (i.builder (i.asked d pod given plan)).container.volumeMounts.getD [] := by
    intro m hm
    rw [happends.mounts_eq]
    exact List.mem_append_left _ hm
  refine ⟨hinit _ (Plan.scratchMount_mem hplan), Container.mem_withMount_self c _, ?_, ?_⟩
  · have hscratch := Plan.scratchVolume_mem hplan
    exact PodSpec.volumesNamed_injected happends.volumes_eq hdistinct hplanned hfresh hscratch _ _
  · intro hclaim
    obtain ⟨path, hparse, hvolume, hmount⟩ := Plan.claimVolume_mem hplan hclaim
    have hnamed := PodSpec.volumesNamed_injected happends.volumes_eq hdistinct hplanned hfresh
      hvolume i.settings index
    exact ⟨path, hparse, hinit _ hmount, hnamed⟩

end Injector

/-- A builder that mounts the volume it adds. -/
def Sample.mounting : Script :=
  [.addVolume { name := "credentials", source := some (.secret (some "s3")) },
   .addMount ⟨"credentials", "/secrets", some true, none⟩]

/-- The builder's own mount means the volume that it added. -/
theorem Injector.inject_links_mounts_stale :
    ∃ after user, ((Sample.injector Sample.mounting).inject (Sample.deployment Sample.stale)
        (.own ⟨1, by decide⟩) Sample.claimUri none).deployment.pod = some after ∧ after.MountsResolve ∧
      (after.containers.getD [])[1]? = some user ∧
      { name := Reserved.scratchVolumeName, mountPath := Reserved.localMountPath,
        readOnly := some true } ∈ user.volumeMounts.getD [] := by
  have htarget : (.own ⟨1, by decide⟩ : Target (Sample.deployment Sample.stale).containers).InPod :=
    trivial
  have hresult : ((Sample.injector Sample.mounting).inject (Sample.deployment Sample.stale)
      (.own ⟨1, by decide⟩) Sample.claimUri none).result = .ok true := rfl
  have hbuilder : ∀ request ∈ ((Sample.injector Sample.mounting).inject
      (Sample.deployment Sample.stale) (.own ⟨1, by decide⟩) Sample.claimUri none).requests,
      ((Sample.injector Sample.mounting).builder request).Appends request
        [{ name := "credentials", source := some (.secret (some "s3")) }]
        [⟨"credentials", "/secrets", some true, none⟩] :=
    List.forall_mem_singleton.mpr ⟨rfl, rfl, by decide⟩
  obtain ⟨index, c, after, user, init, hselects, hafter, huser, -, hresolve, hscratch⟩ :=
    inject_links_mounts (Sample.injector Sample.mounting) rfl htarget hbuilder hresult
  obtain rfl : 1 = index := hselects.2
  obtain ⟨-, hmount, -⟩ := hscratch (by decide) (List.forall_mem_singleton.mpr (by decide))
  exact ⟨after, user, hafter, hresolve (by decide), huser, hmount⟩

/-! ## Mounts of the scratch volume in the user container -/

namespace Injector

/-- **Which mounts of the scratch volume are left.** All but the last of those before survive a
successful attempt, and a new one stands for the last. So it is exactly up to those whether the
scratch volume can only be read in the user container, and only where the init container writes. -/
theorem readOnly_scratchMounts_iff (i : Injector) {d : Deployment} {pod : PodSpec}
    (hpod : d.pod = some pod) {target : Target d.containers} (htarget : target.InPod) {uri : Text}
    {given : Option Text} (hresult : (i.inject d target uri given).result = .ok true) :
    ∃ index c after user,
      target.Selects (i.settings.value .userContainerName) index c ∧
      (i.inject d target uri given).deployment.pod = some after ∧
      (after.containers.getD [])[index]? = some user ∧
      user.mountsOf Reserved.scratchVolumeName =
        (c.mountsOf Reserved.scratchVolumeName).dropLast ++
          [{ name := Reserved.scratchVolumeName, mountPath := i.settings.value .localMountPath,
             readOnly := some true }] ∧
      ((∀ m ∈ user.volumeMounts.getD [], m.name = Reserved.scratchVolumeName →
          m.readOnly = some true ∧ m.mountPath = i.settings.value .localMountPath) ↔
        ∀ m ∈ (c.mountsOf Reserved.scratchVolumeName).dropLast,
          m.readOnly = some true ∧ m.mountPath = i.settings.value .localMountPath) := by
  have hcourse := i.course hpod target uri given
  obtain ⟨index, c, plan, hselects, -, -, hdeployment⟩ :=
    hcourse.injected_of_succeeded hpod htarget hresult
  have hmounts : (c.withMount (scratchMount i.settings.mountPaths true)).mountsOf
      Reserved.scratchVolumeName = (c.mountsOf Reserved.scratchVolumeName).dropLast ++
        [scratchMount i.settings.mountPaths true] := c.mountsOf_withMount _
  refine ⟨index, c, _, _, hselects, by rw [hdeployment],
    PodSpec.getElem?_containers_injected hpod hselects.1 _, hmounts, ?_⟩
  -- a condition on mounts of that name is one on the mounts of that volume
  have hall : ∀ user : Container,
      (∀ m ∈ user.volumeMounts.getD [], m.name = Reserved.scratchVolumeName →
          m.readOnly = some true ∧ m.mountPath = i.settings.value .localMountPath) ↔
        ∀ m ∈ user.mountsOf Reserved.scratchVolumeName,
          m.readOnly = some true ∧ m.mountPath = i.settings.value .localMountPath := by
    intro user
    simp only [Container.mountsOf, Keyed.mem_withKey, and_imp]
  -- the new mount meets it
  have hnew : (scratchMount i.settings.mountPaths true).readOnly = some true ∧
      (scratchMount i.settings.mountPaths true).mountPath = i.settings.value .localMountPath :=
    ⟨rfl, rfl⟩
  rw [hall, hmounts, List.forall_mem_append, List.forall_mem_singleton, and_iff_left hnew]

theorem readOnly_scratchMounts_stale :
    ∃ after user, ((Sample.injector Sample.attached).inject (Sample.deployment Sample.stale)
        (.own ⟨1, by decide⟩) Sample.claimUri none).deployment.pod = some after ∧
      (after.containers.getD [])[1]? = some user ∧
      ∀ m ∈ user.volumeMounts.getD [], m.name = Reserved.scratchVolumeName →
        m.readOnly = some true ∧ m.mountPath = Reserved.localMountPath := by
  have htarget : (.own ⟨1, by decide⟩ : Target (Sample.deployment Sample.stale).containers).InPod :=
    trivial
  have hresult : ((Sample.injector Sample.attached).inject (Sample.deployment Sample.stale)
      (.own ⟨1, by decide⟩) Sample.claimUri none).result = .ok true := rfl
  obtain ⟨index, c, after, user, ⟨hat, rfl⟩, hafter, huser, -, hiff⟩ :=
    readOnly_scratchMounts_iff (Sample.injector Sample.attached) rfl htarget hresult
  -- there was one mount of the scratch volume, so no earlier one survives
  obtain rfl := Option.some.inj hat
  exact ⟨after, user, hafter, huser, hiff.mpr (by decide)⟩

end Injector

/-- A pod whose user container mounts the scratch volume twice. -/
def Sample.remounted : PodSpec where
  containers := some
    [{ name := Reserved.userContainerName
       volumeMounts := some
         [⟨Reserved.scratchVolumeName, "/tmp", none, none⟩,
          ⟨Reserved.scratchVolumeName, "/var/cache", none, none⟩] }]
  initContainers := none
  volumes := some [{ name := Reserved.scratchVolumeName, source := some (.emptyDir none none) }]
  serviceAccountName := none

/-- After an attempt that succeeds the first mount still lets it write. -/
theorem Injector.writable_scratchMount_survives :
    let report := (Sample.injector []).inject (Sample.deployment Sample.remounted) .configured
      ("s3://bucket/model" : Text) none
    ¬ Sample.remounted.isProvisioned ∧ report.result = .ok true ∧
      ∃ after user, report.deployment.pod = some after ∧
        (after.containers.getD [])[0]? = some user ∧
        ∃ m ∈ user.volumeMounts.getD [], m.name = Reserved.scratchVolumeName ∧
          ¬ (m.readOnly = some true ∧
            m.mountPath = (Sample.injector []).settings.value .localMountPath) := by
  refine ⟨by decide, rfl, _, _, rfl, rfl, _, List.mem_cons_self, rfl, by decide⟩

end ModelProvision
