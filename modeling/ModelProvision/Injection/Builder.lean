import ModelProvision.Fault
import ModelProvision.Place
import ModelProvision.Pod.Basic

/-!
# Credential builders

A builder attaches credentials to the init container before anything is written to the pod. It is
given a request and works on two things: the container, and the list of staged volumes.

The staged list is new, but the volumes in it are the pod's own and the plan's. A builder that edits
such a volume edits it wherever it stands, so an attachment tells two things about volumes: the list
as the builder left it, and what became of each volume that was handed over.

A `Script` is a builder that carries out a list of actions.
-/

namespace ModelProvision

/-- What a builder is asked to attach credentials to. -/
structure AttachRequest where
  namespaceName : Option Text
  serviceAccountName : Option Text
  container : Container
  /-- The staged volumes. -/
  volumes : List Volume
  deriving DecidableEq, Repr

/-- What a builder left behind. -/
structure Attachment where
  container : Container
  /-- The staged list. -/
  volumes : List Volume
  /-- The volumes of the request, each in its place there, as they are now. -/
  handed : List Volume
  /-- What the builder raised in the end, if anything. -/
  fault : Option Fault := none

abbrev Builder := AttachRequest → Attachment

/-- One action of a script. -/
inductive Action where
  | addVolume (volume : Volume)
  /-- Take every volume of that name off the list. -/
  | removeVolume (name : Text)
  | renameVolume (place : Place) (name : Text)
  | reverseVolumes
  | addMount (volumeMount : VolumeMount)
  | setEnv (entries : List EnvVar)
  | setImage (image : Option Text)
  | setArgs (args : List Text)
  | renameContainer (name : Text)
  | fail (fault : Fault)

/-- A list of actions. -/
abbrev Script := List Action

namespace Script

/-- The state of a script: the attachment so far, with the place in the request of each volume that
was handed over. -/
structure Workbench where
  container : Container
  volumes : List (Option Nat × Volume)
  handed : List Volume

namespace Workbench

/-- The state before the first action. -/
def ofRequest (request : AttachRequest) : Workbench where
  container := request.container
  volumes := request.volumes.mapIdx fun i v => (some i, v)
  handed := request.volumes

/-- What a builder that stops here has left behind. -/
def attachment (w : Workbench) (fault : Option Fault) : Attachment where
  container := w.container
  volumes := w.volumes.map Prod.snd
  handed := w.handed
  fault := fault

/-- Rename the volume at an index of the list, and with it the one that was handed over. -/
def rename (w : Workbench) (index : Fin w.volumes.length) (name : Text) : Workbench :=
  let (origin, v) := w.volumes[index]
  let renamed := { v with name }
  -- a volume that was handed over is the same one in the list and in the request
  { w with
    volumes := w.volumes.set index (origin, renamed)
    handed := match origin with
      | none => w.handed
      | some i => w.handed.set i renamed }

/-- Carry out one action. -/
def step (w : Workbench) : Action → Except Fault Workbench
  | .addVolume v => .ok { w with volumes := w.volumes ++ [(none, v)] }
  | .removeVolume name => .ok { w with volumes := w.volumes.filter fun v => v.2.name ≠ name }
  | .renameVolume place name =>
    match place.index? w.volumes.length with
    | none => .error .outOfRange
    | some index => .ok (w.rename index name)
  | .reverseVolumes => .ok { w with volumes := w.volumes.reverse }
  | .addMount m =>
    .ok { w with container := { w.container with
      volumeMounts := some (w.container.volumeMounts.getD [] ++ [m]) } }
  | .setEnv entries =>
    .ok { w with container := { w.container with env := some entries } }
  | .setImage image => .ok { w with container := { w.container with image } }
  | .setArgs args => .ok { w with container := { w.container with args := some args } }
  | .renameContainer name => .ok { w with container := { w.container with name } }
  | .fail fault => .error fault

/-- Carry out actions until one fails. -/
def run (w : Workbench) : Script → Attachment
  | [] => w.attachment none
  | action :: rest =>
    match w.step action with
    | .ok w => w.run rest
    | .error fault => w.attachment (some fault)

end Workbench

/-- The builder that carries out a script. -/
def builder (script : Script) : Builder := fun request =>
  (Workbench.ofRequest request).run script

end Script

end ModelProvision
