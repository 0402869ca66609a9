import ModelProvision.Proofs.Injection.Effect
import ModelProvision.Proofs.Merge.Occurrences
import ModelProvision.Proofs.Plan

/-!
# Volumes of a pod after injection

A pod that gives each volume a name of its own still does so after an attempt that succeeds, if the
builder adds volumes under new names only (`Attachment.AddsVolumes`). This is the setting of
**`Injector.inject_keeps_volumes`**, which says what has become of each volume: those of the plan
stand for their names, whatever stood for these before, and all others are what and where they were.

It is put together from one lemma for each view of the pod that is left: its names
(`mem_volumeNames_injected`, `nodup_volumeNames_injected`), the volumes of one name
(`volumesNamed_injected`) and those that are not planned (`sublist_volumes_injected`).
-/

namespace ModelProvision

def PodSpec.volumeNames (pod : PodSpec) : List Text := (pod.volumes.getD []).map Volume.name

/-- The volumes that a mount of that name can mean. -/
def PodSpec.volumesNamed (pod : PodSpec) (name : Text) : List Volume :=
  Keyed.withKey Volume.name name (pod.volumes.getD [])

/-- The builder left the staged volumes as they were and put these behind them, each under a name
that is new. -/
structure Attachment.AddsVolumes (left : Attachment) (staged added : List Volume) : Prop where
  volumes_eq : left.volumes = staged ++ added
  fresh : ∀ v ∈ added, v.name ∉ staged.map Volume.name
  distinct : (added.map Volume.name).Nodup

/-! ## The volumes that are left

The builder put `added` behind the staged list, and the pod has what it left. -/

section Injected

variable {pod : PodSpec} {left : Attachment} {planned added : List Volume}

/-- No name is lost, and every planned one is there. -/
theorem PodSpec.mem_volumeNames_injected
    (hvolumes : left.volumes = Keyed.merge Volume.name (pod.volumes.getD []) planned ++ added)
    (s : Settings) (index : Nat) {name : Text}
    (hname : name ∈ pod.volumeNames ∨ name ∈ planned.map Volume.name) :
    name ∈ (pod.injected s index left).volumeNames := by
  show name ∈ left.volumes.map Volume.name
  rw [hvolumes, List.map_append, List.mem_append, Keyed.mem_keys_merge]
  exact .inl hname

/-- Distinct names stay distinct: merging keeps them so, and the builder added new ones. -/
theorem PodSpec.nodup_volumeNames_injected
    (hvolumes : left.volumes = Keyed.merge Volume.name (pod.volumes.getD []) planned ++ added)
    (hdistinct : pod.volumeNames.Nodup)
    (hfresh : ∀ v ∈ added,
      v.name ∉ (Keyed.merge Volume.name (pod.volumes.getD []) planned).map Volume.name)
    (hadded : (added.map Volume.name).Nodup) (s : Settings) (index : Nat) :
    (pod.injected s index left).volumeNames.Nodup := by
  show (left.volumes.map Volume.name).Nodup
  rw [hvolumes, List.map_append, List.nodup_append']
  refine ⟨Keyed.nodup_keys_merge Volume.name planned hdistinct, hadded, ?_⟩
  intro name hstaged hname
  obtain ⟨v, hv, rfl⟩ := List.mem_map.mp hname
  exact hfresh v hv hstaged

/-- A planned volume is the only one of its name, whatever had the name before. -/
theorem PodSpec.volumesNamed_injected
    (hvolumes : left.volumes = Keyed.merge Volume.name (pod.volumes.getD []) planned ++ added)
    (hdistinct : pod.volumeNames.Nodup) (hplanned : (planned.map Volume.name).Nodup)
    (hfresh : ∀ v ∈ added,
      v.name ∉ (Keyed.merge Volume.name (pod.volumes.getD []) planned).map Volume.name)
    {v : Volume} (hv : v ∈ planned) (s : Settings) (index : Nat) :
    (pod.injected s index left).volumesNamed v.name = [v] := by
  have hstaged : v ∈ Keyed.merge Volume.name (pod.volumes.getD []) planned :=
    Keyed.mem_merge_of_nodup hplanned hv _
  -- what the builder added has other names than what was staged
  have hnone : v.name ∉ added.map Volume.name := by
    intro hname
    obtain ⟨w, hw, hwname⟩ := List.mem_map.mp hname
    exact hfresh w hw (hwname ▸ List.mem_map_of_mem hstaged)
  show Keyed.withKey Volume.name v.name left.volumes = [v]
  -- so all volumes of the name are in the merged part, where there is one of it
  rw [hvolumes, Keyed.withKey_append, Keyed.withKey_merge_of_mem hdistinct hplanned hv,
    Keyed.withKey_eq_nil_iff.mpr hnone, List.append_nil]

/-- Volumes under names that are not planned stay what they are and in their order. -/
theorem PodSpec.sublist_volumes_injected
    (hvolumes : left.volumes = Keyed.merge Volume.name (pod.volumes.getD []) planned ++ added)
    (s : Settings) (index : Nat) :
    ((pod.volumes.getD []).filter fun v => v.name ∉ planned.map Volume.name).Sublist
      ((pod.injected s index left).volumes.getD []) := by
  have hplanned : ∀ v ∈ planned, ∀ w : Volume, w.name = v.name →
      decide (w.name ∉ planned.map Volume.name) = false := by
    intro v hv w hw
    rw [hw, decide_eq_false_iff_not, not_not]
    exact List.mem_map_of_mem hv
  -- the merge leaves what it does not replace in its order
  have hkept := Keyed.filter_merge hplanned (pod.volumes.getD [])
  show List.Sublist _ left.volumes
  rw [hvolumes, ← hkept]
  exact List.filter_sublist.trans (List.sublist_append_left _ _)

end Injected

/-! ## After an attempt -/

namespace Injector

/-- **Volumes keep names of their own.** After a successful attempt the volume names are still
distinct and none is missing; a volume under a name that is not planned stays as it was, in its
order; the scratch volume and the claim of the URI stand alone under their reserved names, whatever
stood there before. -/
theorem inject_keeps_volumes (i : Injector) {d : Deployment} {pod : PodSpec}
    (hpod : d.pod = some pod) (hdistinct : pod.volumeNames.Nodup) {target : Target d.containers}
    (htarget : target.InPod) {uri : Text} {given : Option Text} {added : List Volume}
    (hbuilder : ∀ request ∈ (i.inject d target uri given).requests,
      (i.builder request).AddsVolumes request.volumes added)
    (hresult : (i.inject d target uri given).result = .ok true) :
    ∃ plan after, Plan.ofUri i.settings.mountPaths uri = .ok plan ∧
      (i.inject d target uri given).deployment.pod = some after ∧
      after.volumeNames.Nodup ∧
      ((pod.volumes.getD []).filter fun v => v.name ∉ plan.volumes.map Volume.name).Sublist
        (after.volumes.getD []) ∧
      (∀ name ∈ pod.volumeNames, name ∈ after.volumeNames) ∧
      after.volumesNamed Reserved.scratchVolumeName =
        [{ name := Reserved.scratchVolumeName, source := some (.emptyDir none none) }] ∧
      (ClaimPath.isClaimUri uri →
        ∃ path, ClaimPath.parse uri = .ok path ∧
          after.volumesNamed Reserved.claimVolumeName =
            [{ name := Reserved.claimVolumeName, source := some (.claim path.claim none) }]) := by
  have hcourse := i.course hpod target uri given
  obtain ⟨index, c, plan, -, hplan, hrequests, hdeployment⟩ :=
    hcourse.injected_of_succeeded hpod htarget hresult
  rw [hrequests] at hbuilder
  obtain ⟨hvolumes, hfresh, hadded⟩ := hbuilder _ (List.mem_singleton_self _)
  -- a plan names no volume twice, which the last two parts need
  have hplanned := Plan.nodup_map_name_volumes hplan
  refine ⟨plan, _, hplan, by rw [hdeployment],
    PodSpec.nodup_volumeNames_injected hvolumes hdistinct hfresh hadded _ _,
    PodSpec.sublist_volumes_injected hvolumes _ _,
    fun name hname => PodSpec.mem_volumeNames_injected hvolumes _ _ (.inl hname), ?_, ?_⟩
  · have hscratch := Plan.scratchVolume_mem hplan
    exact PodSpec.volumesNamed_injected hvolumes hdistinct hplanned hfresh hscratch _ _
  · intro hclaim
    obtain ⟨path, hparse, hmem, -⟩ := Plan.claimVolume_mem hplan hclaim
    have hnamed := PodSpec.volumesNamed_injected hvolumes hdistinct hplanned hfresh hmem
      i.settings index
    exact ⟨path, hparse, hnamed⟩

end Injector

/-- A pod with volumes and mounts under the reserved names that mean something else. -/
def Sample.stale : PodSpec where
  containers := some
    [{ name := "proxy", volumeMounts := some [⟨"data", "/data", some true, none⟩] },
     { name := Reserved.userContainerName
       volumeMounts := some [⟨Reserved.scratchVolumeName, "/tmp", none, none⟩] }]
  initContainers := none
  volumes := some
    [{ name := Reserved.scratchVolumeName, source := some (.hostPath "/scratch" none) },
     { name := "data", source := some (.configMap (some "data")) },
     { name := Reserved.claimVolumeName, source := some (.claim "old" none) }]
  serviceAccountName := none

theorem Injector.inject_keeps_volumes_stale :
    ∃ after, ((Sample.injector Sample.attached).inject (Sample.deployment Sample.stale) .configured
        Sample.claimUri none).deployment.pod = some after ∧
      after.volumeNames.Nodup ∧
      ∃ path, ClaimPath.parse Sample.claimUri = .ok path ∧
        after.volumesNamed Reserved.claimVolumeName =
          [{ name := Reserved.claimVolumeName, source := some (.claim path.claim none) }] := by
  have hdistinct : Sample.stale.volumeNames.Nodup := by decide
  have htarget : (.configured : Target (Sample.deployment Sample.stale).containers).InPod := trivial
  have hresult : ((Sample.injector Sample.attached).inject (Sample.deployment Sample.stale)
      .configured Sample.claimUri none).result = .ok true := rfl
  have hbuilder : ∀ request ∈ ((Sample.injector Sample.attached).inject
      (Sample.deployment Sample.stale) .configured Sample.claimUri none).requests,
      ((Sample.injector Sample.attached).builder request).AddsVolumes request.volumes
        [{ name := "credentials", source := some (.secret (some "s3")) }] :=
    List.forall_mem_singleton.mpr ⟨rfl, by decide, by decide⟩
  obtain ⟨plan, after, -, hafter, hnames, -, -, -, hclaim⟩ :=
    inject_keeps_volumes (Sample.injector Sample.attached) rfl hdistinct htarget hbuilder hresult
  exact ⟨after, hafter, hnames, hclaim (by decide)⟩

end ModelProvision
