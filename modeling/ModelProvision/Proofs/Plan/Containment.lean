import Mathlib.Data.List.Basic
import ModelProvision.Proofs.Plan.EffectiveUri

/-!
# Whether an effective URI stays inside its mount

A path in a claim may hold dot segments, and a plan hands them on. Where such a path leads is found by
walking along its segments (`resolve`): `.` stays in place, and `..` goes back to the directory above.

* **`Walk`** is what a path does by itself, wherever it starts: it climbs some directories up and then
  goes down into others. **`foldl_enter`** says that a path leads from any place to where its walk
  does.
* So a path leads into the mount exactly when its walk goes down again into the directories of the
  mount that it climbs out of (**`sourceUri_inside_iff`**). A walk that goes elsewhere leaves the
  mount (`sourceUri_leaves_mount`).
-/

namespace ModelProvision

open Slash (slash segments)

namespace Slash

/-- The segment that stays in its directory. -/
def here : Text := "."

/-- The segment that goes back to the directory above. -/
def above : Text := ".."

/-- Where a segment leads from a directory. Nothing is above the root. -/
def enter (place : List Text) (segment : Text) : List Text :=
  if segment = here then place
  else if segment = above then place.dropLast
  else place ++ [segment]

/-- Where the segments of an absolute path lead. -/
def resolve (segments : List Text) : List Text := segments.foldl enter []

/-- The path is absolute and leads to the mount or to a place below it. -/
structure PointsInside (mountPath path : Text) : Prop where
  absolute : path.head? = some slash
  inside : segments mountPath <+: resolve (segments path)

/-- Without dot segments a path leads where it says. -/
theorem resolve_eq_self {segments : List Text} (h : ∀ s ∈ segments, s ≠ here ∧ s ≠ above) :
    resolve segments = segments := by
  unfold resolve
  induction segments using List.reverseRecOn with
  | nil => rfl
  | append_singleton before s ih =>
    rw [List.forall_mem_append, List.forall_mem_singleton] at h
    rw [List.foldl_append, ih h.1, List.foldl_cons, List.foldl_nil]
    unfold enter
    rw [if_neg h.2.1, if_neg h.2.2]

/-! ## Walks -/

/-- A way through directories: so many up, and then down into these. -/
structure Walk where
  up : Nat
  down : List Text
  deriving DecidableEq

namespace Walk

/-- The way continued by one more segment. Going back undoes the last step down before it climbs. -/
def step (w : Walk) (segment : Text) : Walk :=
  if segment = here then w
  else if segment = above then
    if w.down = [] then { w with up := w.up + 1 } else { w with down := w.down.dropLast }
  else { w with down := w.down ++ [segment] }

def ofSegments (segments : List Text) : Walk := segments.foldl step ⟨0, []⟩

/-- Where the way leads from a directory. -/
def arrive (start : List Text) (w : Walk) : List Text :=
  start.take (start.length - w.up) ++ w.down

/-- The way goes down again into the directories that it climbs out of. -/
def Returns (start : List Text) (w : Walk) : Prop :=
  start.drop (start.length - w.up) <+: w.down

instance (start : List Text) (w : Walk) : Decidable (w.Returns start) := by
  unfold Returns
  infer_instance

/-- One more segment, taken by the walk or from where the walk led. Climbing is the case to look at:
a step down that has not been undone yet is undone before a directory of the start is left. -/
theorem arrive_step (start : List Text) (w : Walk) (segment : Text) :
    arrive start (w.step segment) = enter (arrive start w) segment := by
  unfold step enter
  split
  · rfl
  · split
    · unfold arrive
      by_cases hdown : w.down = []
      · -- there is no step down to undo
        rw [if_pos hdown, hdown, List.append_nil, List.append_nil, List.dropLast_eq_take,
          List.take_take, List.length_take]
        show start.take (start.length - (w.up + 1)) = _
        congr 1
        omega
      · rw [if_neg hdown, List.dropLast_append_of_ne_nil hdown]
    · unfold arrive
      rw [List.append_assoc]

/-- A walk ends below its start exactly when it returns. -/
theorem prefix_arrive_iff (start : List Text) (w : Walk) :
    start <+: arrive start w ↔ w.Returns start := by
  have hcut : start.take (start.length - w.up) ++ start.drop (start.length - w.up) <+:
      start.take (start.length - w.up) ++ w.down ↔ start.drop (start.length - w.up) <+: w.down :=
    List.prefix_append_right_inj _
  rwa [List.take_append_drop] at hcut

end Walk

/-- Induction on the path from its end: each segment continues the walk. -/
theorem foldl_enter (start path : List Text) :
    path.foldl enter start = Walk.arrive start (Walk.ofSegments path) := by
  induction path using List.reverseRecOn with
  | nil => simp [Walk.ofSegments, Walk.arrive]
  | append_singleton before s ih =>
    unfold Walk.ofSegments
    rw [List.foldl_append, List.foldl_append, ih]
    exact (Walk.arrive_step start (Walk.ofSegments before) s).symm

/-- Below a mount without dot segments all that counts is the path that is joined to it. -/
theorem pointsInside_join_iff {mountPath : Text} (habsolute : mountPath.head? = some slash)
    (hplain : ∀ s ∈ segments mountPath, s ≠ here ∧ s ≠ above) (below : Text) :
    PointsInside mountPath (join mountPath below) ↔
      (Walk.ofSegments (segments below)).Returns (segments mountPath) := by
  have hresolve : resolve (segments (join mountPath below)) =
      Walk.arrive (segments mountPath) (Walk.ofSegments (segments below)) := by
    rw [segments_join, resolve, List.foldl_append, ← foldl_enter]
    congr 1
    exact resolve_eq_self hplain
  have hjoin : (join mountPath below).head? = some slash := by
    obtain ⟨⟨n, hmount⟩, -⟩ := withoutTrailing_iff.mpr (rfl : stripTrailing mountPath = _)
    unfold join
    cases hbase : stripTrailing mountPath with
    | nil => rfl
    | cons p base =>
      rw [hmount, hbase] at habsolute
      exact habsolute
  rw [← Walk.prefix_arrive_iff, ← hresolve]
  exact ⟨PointsInside.inside, fun h => ⟨hjoin, h⟩⟩

end Slash

namespace Plan

open Slash (here above PointsInside Walk)

variable {uri claimPath : Text} {path : ClaimPath}

/-- **The effective URI stays inside the mount exactly when the path in the claim returns there.** -/
theorem sourceUri_inside_iff (habsolute : claimPath.head? = some slash)
    (hplain : ∀ s ∈ segments claimPath, s ≠ here ∧ s ≠ above)
    (hlocates : ClaimPath.Locates uri path) (localPath : Text) :
    ∃ plan, ofValues uri localPath claimPath = .ok plan ∧
      (PointsInside claimPath plan.sourceUri ↔
        (Walk.ofSegments (segments path.subPath)).Returns (segments claimPath)) := by
  refine ⟨_, ofValues_of_locates hlocates localPath claimPath, ?_⟩
  exact Slash.pointsInside_join_iff habsolute hplain path.subPath

/-- A path that climbs out of the mount and returns. -/
theorem sourceUri_inside_returning :
    ∃ plan, ofValues (.string "pvc://models/v1/../../pvc/v2") Reserved.localMountPath
        Reserved.claimMountPath = .ok plan ∧
      PointsInside Reserved.claimMountPath plan.sourceUri := by
  have habsolute : Reserved.claimMountPath.head? = some slash := rfl
  have hplain : ∀ s ∈ segments Reserved.claimMountPath, s ≠ here ∧ s ≠ above := by decide
  have hlocates : ClaimPath.Locates "pvc://models/v1/../../pvc/v2" ⟨"models", "v1/../../pvc/v2"⟩ :=
    ⟨("models" : Text) ++ slash :: ("v1/../../pvc/v2" : Text), rfl,
      ClaimPath.cuts_below (by decide) (by decide) _⟩
  obtain ⟨plan, hplan, hinside⟩ :=
    sourceUri_inside_iff habsolute hplain hlocates Reserved.localMountPath
  exact ⟨plan, hplan, hinside.mpr (by decide)⟩

/-- A path that climbs out of the mount to somewhere else. -/
theorem sourceUri_leaves_mount :
    Reserved.claimMountPath.head? = some slash ∧
      (∀ s ∈ segments Reserved.claimMountPath, s ≠ here ∧ s ≠ above) ∧
      (∃ path, ClaimPath.Locates "pvc://models/../models" path) ∧
      ∃ plan, ofValues (.string "pvc://models/../models") Reserved.localMountPath
          Reserved.claimMountPath = .ok plan ∧
        ¬ PointsInside Reserved.claimMountPath plan.sourceUri := by
  have hlocates : ClaimPath.Locates "pvc://models/../models" ⟨"models", "../models"⟩ :=
    ⟨("models" : Text) ++ slash :: ("../models" : Text), rfl,
      ClaimPath.cuts_below (by decide) (by decide) _⟩
  refine ⟨rfl, by decide, ⟨_, hlocates⟩, _, rfl, fun h => ?_⟩
  -- the walk ends in `/mnt/models`
  have hinside := h.inside
  revert hinside
  decide

end Plan

end ModelProvision
