import ModelProvision.Pod.Basic
import ModelProvision.Source

/-!
# Provisioning plans

What a model source adds to a pod. The scratch volume is always there: the init container mounts it
for writing and the user container for reading, at the same path. A claim adds a second volume,
which the init container mounts for reading, and the source becomes a path below that mount.
-/

namespace ModelProvision

/-- Where a plan mounts things. -/
structure MountPaths where
  localPath : Text := Reserved.localMountPath
  claimPath : Text := Reserved.claimMountPath
  deriving DecidableEq, Repr

/-- What is to be added to a pod. -/
structure Plan where
  /-- The source as the init container gets it. -/
  sourceUri : Text
  /-- The user container's mount of the scratch volume. -/
  userMount : VolumeMount
  volumes : List Volume
  initMounts : List VolumeMount
  deriving DecidableEq, Repr

/-- The empty volume that the init container fills. -/
def scratchVolume : Volume := ⟨Reserved.scratchVolumeName, some (.emptyDir none none)⟩

/-- The volume that refers to a claim. -/
def claimVolume (claimName : Text) : Volume :=
  ⟨Reserved.claimVolumeName, some (.claim claimName none)⟩

/-- A mount of the scratch volume. -/
def scratchMount (paths : MountPaths) (readOnly : Bool) : VolumeMount :=
  { name := Reserved.scratchVolumeName, mountPath := paths.localPath, readOnly := some readOnly }

/-- The init container's mount of a claim. -/
def claimMount (paths : MountPaths) : VolumeMount :=
  { name := Reserved.claimVolumeName, mountPath := paths.claimPath, readOnly := some true }

namespace Plan

/-- The plan of a source: the claim's volume and mount come before those of the scratch volume. -/
def ofSource (paths : MountPaths) : Source → Plan
  | .direct uri =>
    { sourceUri := uri
      userMount := scratchMount paths true
      volumes := [scratchVolume]
      initMounts := [scratchMount paths false] }
  | .claim _ path =>
    { sourceUri := rewriteBelow paths.claimPath path.subPath
      userMount := scratchMount paths true
      volumes := [claimVolume path.claim, scratchVolume]
      initMounts := [claimMount paths, scratchMount paths false] }

/-- The plan of a source URI. -/
def ofUri (paths : MountPaths) (uri : Text) : Except Fault Plan := do
  return ofSource paths (← Source.ofUri uri)

/-- The path of a mount, which may not be absent and is stripped of its trailing slashes where
something is put below it. -/
def mountPath (path : Json) : Except Fault Text :=
  match path with
  | .null => .error (.missingValue "mount_path")
  | path => path.asText "rstrip"

/-- The plan of a source and of mount paths that are handed over as values. The path of the claim's
mount is looked at only for a claim, and before the local path. -/
def ofValues (uri localPath claimPath : Json) : Except Fault Plan := do
  let source ← Source.ofValue uri
  let claimPath ← match source with
    | .direct _ => pure Reserved.claimMountPath
    | .claim .. => mountPath claimPath
  let localPath ← mountPath localPath
  return ofSource { localPath, claimPath } source

end Plan

end ModelProvision
