import ModelProvision.Injection.Inject
import ModelProvision.Proofs.Merge

/-!
# What a credential builder may touch

A builder works on the init container and on the staged list. The staged list is its own, but some
of the volumes in it are the pod's, and an edit of one of these shows in the deployment even when
the attempt fails. So there are two promises that theorems about injection ask for:

* **`Builder.SparesPod`**: the pod's volumes that are handed over come back as they were. What
  becomes of the list, of the container and of the plan's volumes is left open.
* **`Builder.KeepsName`**: the init container keeps its name.

The first promise is turned into an equation about pods by **`ownAfter_eq_self`**, which rests on
where staged volumes come from (`map_snd_stage`, `own_of_mem_stage`). The last section shows which
scripts keep the promises, by one invariant lemma for runs of a script
(`Workbench.run_invariant`).
-/

namespace ModelProvision

/-! ## The two promises -/

/-- Of the staged volumes, those of the pod are among the ones that were handed over, each in its
place and as it was. -/
def Spared (staged : List (Origin × Volume)) (handed : List Volume) : Prop :=
  ∀ (k i : Nat) (v : Volume), staged[k]? = some (Origin.own i, v) → handed[k]? = some v

/-- Asked to attach credentials for a plan with these volumes, the builder leaves every volume of
the pod as it was, whatever the pod had. -/
def Builder.SparesPod (b : Builder) (planned : List Volume) : Prop :=
  ∀ (own : List Volume) (request : AttachRequest),
    request.volumes = (stage own planned).map Prod.snd → Spared (stage own planned) (b request).handed

/-- The builder never renames the init container. -/
def Builder.KeepsName (b : Builder) : Prop :=
  ∀ request, (b request).container.name = request.container.name

/-- A builder that edits no volume in place spares every pod. -/
theorem Builder.sparesPod_of_handed_eq {b : Builder}
    (h : ∀ request, (b request).handed = request.volumes) (planned : List Volume) :
    b.SparesPod planned := by
  intro own request hrequest k i v hk
  rw [h, hrequest, List.getElem?_map, hk, Option.map_some]

/-! ## Where staged volumes come from

Staging tags each volume with its origin before it merges, and the tags do not take part in the
merge: stripped of them, the staged list is the plain merge by name. -/

/-- Without the tags the staged volumes are the pod's merged with the planned ones. -/
theorem map_snd_stage (own planned : List Volume) :
    (stage own planned).map Prod.snd = Keyed.merge Volume.name own planned := by
  have hstrip : ∀ (tag : Nat → Origin) (volumes : List Volume),
      (volumes.mapIdx fun i v => (tag i, v)).map Prod.snd = volumes := by
    intro tag volumes
    refine List.ext_getElem? fun j => ?_
    rw [List.getElem?_map, List.getElem?_mapIdx]
    cases volumes[j]? <;> rfl
  -- merging looks at the names only, which the tags do not change
  have hmap : ∀ existing additions : List (Origin × Volume),
      (Keyed.merge (fun staged => staged.2.name) existing additions).map Prod.snd =
        Keyed.merge Volume.name (existing.map Prod.snd) (additions.map Prod.snd) :=
    Keyed.map_merge Prod.snd fun _ => rfl
  rw [stage, hmap, hstrip, hstrip]

/-- A staged volume that is tagged as the pod's stands in the pod at the place of its tag. -/
theorem own_of_mem_stage {own planned : List Volume} {i : Nat} {v : Volume}
    (h : (Origin.own i, v) ∈ stage own planned) : own[i]? = some v := by
  -- a staged volume was there before or was added, and only the former have such a tag
  rcases Keyed.mem_merge h with hmem | hmem
  · obtain ⟨j, hj, heq⟩ := List.mem_mapIdx.mp hmem
    obtain ⟨htag, rfl⟩ := Prod.mk.inj heq
    obtain rfl := Origin.own.inj htag
    exact List.getElem?_eq_getElem hj
  · -- additions are tagged as the plan's
    obtain ⟨j, hj, heq⟩ := List.mem_mapIdx.mp hmem
    exact absurd (congrArg Prod.fst heq) (by simp)

/-- When every volume of the pod came back as it was, looking the pod's volumes up among those that
were handed over changes nothing. -/
theorem afterBuilder_eq_self {own planned handed : List Volume}
    (h : Spared (stage own planned) handed) :
    afterBuilder ((stage own planned).map Prod.fst) handed .own own = own := by
  refine List.ext_getElem? fun i => ?_
  rw [afterBuilder, List.getElem?_mapIdx]
  cases hown : own[i]? with
  | none => rfl
  | some w =>
    rw [Option.map_some]
    congr 1
    rw [Keyed.lookup?]
    cases hfind : (((stage own planned).map Prod.fst).zip handed).find? fun p => p.1 = .own i with
    | none => rfl
    | some p =>
      obtain ⟨origin, v⟩ := p
      have horigin : origin = .own i := by simpa using List.find?_some hfind
      -- the pair that is found stands at some place `k` of both lists
      obtain ⟨k, hk⟩ := List.getElem?_of_mem (List.mem_of_find?_eq_some hfind)
      obtain ⟨hstaged, hhanded⟩ := List.getElem?_zip_eq_some.mp hk
      rw [List.getElem?_map, Option.map_eq_some_iff] at hstaged
      obtain ⟨⟨tag, u⟩, hstaged, htag⟩ := hstaged
      have htag : tag = .own i := htag.trans horigin
      subst htag
      have hu : own[i]? = some u := own_of_mem_stage (List.mem_of_getElem? hstaged)
      have hv : handed[k]? = some u := h k i u hstaged
      have hvu : v = u := Option.some.inj (hhanded.symm.trans hv)
      have huw : u = w := Option.some.inj (hu.symm.trans hown)
      exact hvu.trans huw

/-- **A builder that spares the pod leaves no trace in it.** -/
theorem PodSpec.ownAfter_eq_self {b : Builder} {planned : List Volume} (hb : b.SparesPod planned)
    (pod : PodSpec) {request : AttachRequest}
    (hrequest : request.volumes = (stage (pod.volumes.getD []) planned).map Prod.snd) :
    pod.ownAfter ((stage (pod.volumes.getD []) planned).map Prod.fst) (b request).handed = pod := by
  have hspared := hb (pod.volumes.getD []) request hrequest
  rw [PodSpec.ownAfter]
  -- a pod without a list of volumes has none that could come back changed
  cases hvolumes : pod.volumes with
  | none => rw [Option.map_none, ← hvolumes]
  | some own =>
    rw [hvolumes, Option.getD_some] at hspared
    rw [Option.map_some, Option.getD_some, afterBuilder_eq_self hspared, ← hvolumes]

/-! ## Scripts that keep the promises

Only one action edits a volume in place, and only one renames the container. A script without the
first spares every pod (`Script.sparesPod`), one without the second keeps the name
(`Script.keepsName`). -/

def Action.LeavesVolumes : Action → Prop
  | .renameVolume .. => False
  | _ => True

def Action.LeavesName : Action → Prop
  | .renameContainer _ => False
  | _ => True

namespace Script

/-- What every action of a script keeps is kept by its run, wherever it stops. -/
theorem Workbench.run_invariant {P : Workbench → Prop} {script : Script}
    (hstep : ∀ action ∈ script, ∀ w w' : Workbench, P w → w.step action = .ok w' → P w')
    {w : Workbench} (hw : P w) : ∃ w' fault, P w' ∧ w.run script = w'.attachment fault := by
  -- on the script, for every workbench: each action works on what the one before left
  induction script generalizing w with
  | nil => exact ⟨w, none, hw, rfl⟩
  | cons action rest ih =>
    rw [run]
    cases haction : w.step action with
    | ok next =>
      have hnext : P next := hstep action List.mem_cons_self w next hw haction
      exact ih (fun a ha => hstep a (List.mem_cons_of_mem action ha)) hnext
    | error fault => exact ⟨w, some fault, hw, rfl⟩

/-- A step that edits no volume in place leaves those that were handed over as they were … -/
theorem Workbench.handed_of_step {w w' : Workbench} {action : Action} (h : w.step action = .ok w')
    (haction : action.LeavesVolumes) : w'.handed = w.handed := by
  cases action with
  | renameVolume => exact absurd haction id
  | fail => simp [step] at h
  | _ => simp only [step, Except.ok.injEq] at h; rw [← h]

/-- … and one that does not rename the container leaves its name. -/
theorem Workbench.name_of_step {w w' : Workbench} {action : Action} (h : w.step action = .ok w')
    (haction : action.LeavesName) : w'.container.name = w.container.name := by
  cases action with
  | renameContainer => exact absurd haction id
  | fail => simp [step] at h
  | renameVolume place name =>
    rw [step] at h
    split at h
    · simp at h
    · obtain rfl := Except.ok.inj h
      rfl
  | _ => simp only [step, Except.ok.injEq] at h; rw [← h]

theorem sparesPod {script : Script} (h : ∀ action ∈ script, action.LeavesVolumes)
    (planned : List Volume) : script.builder.SparesPod planned := by
  refine Builder.sparesPod_of_handed_eq (fun request => ?_) planned
  obtain ⟨w, fault, hw, hrun⟩ :=
    Workbench.run_invariant (P := fun w => w.handed = request.volumes)
      (fun action ha w w' hw hstep => (Workbench.handed_of_step hstep (h action ha)).trans hw)
      (w := Workbench.ofRequest request) rfl
  rw [builder, hrun]
  exact hw

theorem keepsName {script : Script} (h : ∀ action ∈ script, action.LeavesName) :
    script.builder.KeepsName := by
  intro request
  obtain ⟨w, fault, hw, hrun⟩ :=
    Workbench.run_invariant (P := fun w => w.container.name = request.container.name)
      (fun action ha w w' hw hstep => (Workbench.name_of_step hstep (h action ha)).trans hw)
      (w := Workbench.ofRequest request) rfl
  rw [builder, hrun]
  exact hw

end Script

end ModelProvision
