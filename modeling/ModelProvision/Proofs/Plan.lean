import ModelProvision.Proofs.Source

/-!
# What a plan holds

A plan comes from a source, and there are two kinds of these (`Plan.ofUri_cases`). Which volumes are
planned is a matter of the kind alone (`Plan.map_name_volumes`): two sources of one kind are planned
under the same names. The init container mounts what is planned, volume by volume
(`Plan.map_name_initMounts`).
-/

namespace ModelProvision.Plan

variable {paths : MountPaths} {uri : Text} {plan : Plan}

/-- The two kinds of plans. What is proved about plans splits here. -/
theorem ofUri_cases (h : Plan.ofUri paths uri = .ok plan) :
    (ClaimPath.isClaimUri uri = false ∧ plan = ofSource paths (.direct uri)) ∨
      ∃ path, ClaimPath.isClaimUri uri = true ∧ ClaimPath.parse uri = .ok path ∧
        plan = ofSource paths (.claim uri path) := by
  rw [ofUri_eq_map, Source.ofUri] at h
  cases hclaim : ClaimPath.isClaimUri uri with
  | false =>
    rw [hclaim] at h
    exact .inl ⟨rfl, (Except.ok.inj h).symm⟩
  | true =>
    rw [hclaim] at h
    cases hparse : ClaimPath.parse uri with
    | error fault =>
      rw [hparse] at h
      exact absurd h (by simp [Except.map, bind, Except.bind])
    | ok path =>
      rw [hparse] at h
      exact .inr ⟨path, rfl, rfl, (Except.ok.inj h).symm⟩

/-- Two sources of one kind are planned under the same names. -/
theorem map_name_volumes (h : Plan.ofUri paths uri = .ok plan) :
    plan.volumes.map Volume.name =
      if ClaimPath.isClaimUri uri then [Reserved.claimVolumeName, Reserved.scratchVolumeName]
      else [Reserved.scratchVolumeName] := by
  rcases ofUri_cases h with ⟨hclaim, rfl⟩ | ⟨path, hclaim, -, rfl⟩
  · rw [hclaim]
    rfl
  · rw [hclaim]
    rfl

/-- No two planned volumes have one name. -/
theorem nodup_map_name_volumes (h : Plan.ofUri paths uri = .ok plan) :
    (plan.volumes.map Volume.name).Nodup := by
  rw [map_name_volumes h]
  split <;> decide

theorem scratchVolume_mem (h : Plan.ofUri paths uri = .ok plan) : scratchVolume ∈ plan.volumes := by
  rcases ofUri_cases h with ⟨-, rfl⟩ | ⟨path, -, -, rfl⟩
  · exact List.mem_singleton_self _
  · exact List.mem_cons_of_mem _ (List.mem_singleton_self _)

/-- The volume of the claim that a URI names is planned and mounted in the init container. -/
theorem claimVolume_mem (h : Plan.ofUri paths uri = .ok plan)
    (hclaim : ClaimPath.isClaimUri uri = true) :
    ∃ path, ClaimPath.parse uri = .ok path ∧ claimVolume path.claim ∈ plan.volumes ∧
      claimMount paths ∈ plan.initMounts := by
  rcases ofUri_cases h with ⟨hdirect, -⟩ | ⟨path, -, hparse, rfl⟩
  · exact absurd (hdirect.symm.trans hclaim) (by simp)
  · exact ⟨path, hparse, List.mem_cons_self, List.mem_cons_self⟩

/-- The init container mounts each planned volume once. -/
theorem map_name_initMounts (h : Plan.ofUri paths uri = .ok plan) :
    plan.initMounts.map VolumeMount.name = plan.volumes.map Volume.name := by
  rcases ofUri_cases h with ⟨-, rfl⟩ | ⟨path, -, -, rfl⟩ <;> rfl

/-- The init container may write to the scratch volume. -/
theorem scratchMount_mem (h : Plan.ofUri paths uri = .ok plan) :
    scratchMount paths false ∈ plan.initMounts := by
  rcases ofUri_cases h with ⟨-, rfl⟩ | ⟨path, -, -, rfl⟩
  · exact List.mem_singleton_self _
  · exact List.mem_cons_of_mem _ (List.mem_singleton_self _)

end ModelProvision.Plan
