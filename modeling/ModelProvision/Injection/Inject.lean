import ModelProvision.Injection.Builder
import ModelProvision.Logging
import ModelProvision.Metrics.Collector
import ModelProvision.Pod.Lookup

/-!
# Injecting the model initializer

Injection adds an init container that fetches the model into a scratch volume before the user
container starts. It goes through four stages:

* a pod that is provisioned already is left alone;
* the user container is selected and the plan of the source is made, either of which may fail;
* the plan's volumes are merged with the pod's into a staged list, and the builder attaches
  credentials, which may fail too;
* only then the staged list, the init container and the user container's mount are written to the
  pod (`commit`).

So a failed attempt writes nothing and can be repeated. What a builder does to volumes of the pod
itself is not undone: `ownAfter` carries it into the deployment in every case.
-/

namespace ModelProvision

/-- The container that is to receive the model, for a deployment with these containers. -/
inductive Target (containers : List Container) where
  /-- The first container with the configured name. -/
  | configured
  /-- The container at an index of the deployment. -/
  | own (index : Fin containers.length)
  /-- A container that lives elsewhere. -/
  | elsewhere (container : Container)
  deriving DecidableEq, Repr

/-- A user container, with its index if it is one of the pod. -/
structure Selection where
  index : Option Nat
  container : Container
  deriving DecidableEq, Repr

/-- What one attempt did. -/
structure Report where
  /-- Whether the pod was changed; `false` when it was provisioned already. -/
  result : Except Fault Bool
  deployment : Deployment
  /-- The container that was given from elsewhere, as it is now. -/
  elsewhere : Option Container
  /-- What the builder was asked. -/
  requests : List AttachRequest := []
  entries : List LogEntry := []
  /-- How the attempt is counted, if it is. -/
  outcome : Option Outcome

/-- An injector: what attaches the credentials, and the settings. -/
structure Injector where
  builder : Builder
  settings : Settings

/-! ### Selecting and planning -/

/-- The init container that fetches a source into the local mount path. -/
def Settings.initContainer (s : Settings) (sourceUri : Text) (mounts : List VolumeMount) :
    Container :=
  { name := Reserved.initContainerName
    image := some s.imageRef
    args := some [sourceUri, s.value .localMountPath]
    volumeMounts := some mounts }

namespace Target

variable {containers : List Container}

/-- The container that lives elsewhere, if the target is one. -/
def elsewhere? : Target containers → Option Container
  | elsewhere c => some c
  | _ => none

/-- The user container that a target means. Only a name can fail to lead to one. -/
def select (target : Target containers) (name : Text) : Except Fault Selection :=
  match target with
  | .elsewhere c => .ok ⟨none, c⟩
  | .own index => .ok ⟨some index, containers[index]⟩
  | .configured =>
    match findContainer? (some containers) name with
    | some found => .ok ⟨some found.index, found.container⟩
    | none => .error (.userContainerNotFound name)

end Target

/-! ### Staging volumes -/

/-- Where a staged volume comes from, with its index there. -/
inductive Origin where
  | own (index : Nat)
  | planned (index : Nat)
  deriving DecidableEq, Repr

/-- The pod's volumes with those of the plan, merged by name. -/
def stage (own planned : List Volume) : List (Origin × Volume) :=
  Keyed.merge (fun staged => staged.2.name)
    (own.mapIdx fun i v => (Origin.own i, v)) (planned.mapIdx fun i v => (Origin.planned i, v))

/-- Volumes after a builder had them: one that was handed over is as the builder left it. -/
def afterBuilder (origins : List Origin) (handed : List Volume) (origin : Nat → Origin)
    (volumes : List Volume) : List Volume :=
  volumes.mapIdx fun i v => (Keyed.lookup? (origin i) (origins.zip handed)).getD v

/-- The pod with its own volumes as a builder left them. -/
def PodSpec.ownAfter (pod : PodSpec) (origins : List Origin) (handed : List Volume) : PodSpec :=
  { pod with volumes := pod.volumes.map (afterBuilder origins handed .own) }

/-! ### Writing to the pod -/

/-- A container with a mount added, which takes the place of the last mount of the same volume. -/
def Container.withMount (c : Container) (m : VolumeMount) : Container :=
  let mounts := Keyed.merge VolumeMount.name (c.volumeMounts.getD []) [m]
  { c with volumeMounts := some mounts }

/-- Write the staged volumes, the init container and the user container to the pod. -/
def PodSpec.commit (pod : PodSpec) (volumes : List Volume) (initContainer : Container)
    (user : Selection) : PodSpec :=
  let containers := match user.index with
    | none => pod.containers
    | some index => pod.containers.map fun cs => cs.set index user.container
  { pod with
    containers
    volumes := some volumes
    initContainers := some (pod.initContainers.getD [] ++ [initContainer]) }

/-! ### What is said -/

/-- A claim source is replaced by a path below the claim's mount. -/
def rewriteEntries (source : Source) (plan : Plan) : List LogEntry :=
  match source with
  | .direct _ => []
  | .claim uri path =>
    [{ speaker := .volumes
       level := .debug
       event := "Rewrote claim source URI"
       fields := [("source_uri", uri), ("claim", path.claim), ("rewritten", plan.sourceUri)] }]

/-- An entry with a reserved name is replaced. -/
def replacingEntry (name : Text) : LogEntry where
  speaker := .volumes
  level := .warning
  event := "Replacing entry with reserved name"
  fields := [("name", name)]

/-- One entry for each addition that takes the place of another entry. -/
def replacingEntries {α : Type} (name : α → Text) (existing additions : List α) :
    List LogEntry :=
  (Keyed.displacing name existing additions).map fun x => replacingEntry (name x)

def skippedEntry (bound : Fields) : LogEntry where
  speaker := .injector
  level := .debug
  event := "Model initializer already injected"
  fields := bound

def failedEntry (bound : Fields) (fault : Fault) : LogEntry where
  speaker := .injector
  level := .error
  event := "Failed to inject model initializer"
  fields := bound ++ ([("error", fault.message), ("error_type", fault.kind)] : Fields)

def injectedEntry (bound : Fields) (plan : Plan) (serviceAccount : Option Text)
    (volumes : List Volume) : LogEntry where
  speaker := .injector
  level := .info
  event := "Injected model initializer"
  fields :=
    let told : Fields := [("effective_uri", plan.sourceUri),
      ("service_account", .ofText? serviceAccount),
      ("volumes", .array (volumes.map fun v => v.name))]
    bound ++ told

/-! ### Attempts -/

/-- An attempt that failed, after some entries. An interrupt is neither reported nor counted. -/
def Report.failed (fault : Fault) (deployment : Deployment) (elsewhere : Option Container)
    (requests : List AttachRequest) (said : List LogEntry) (bound : Fields) :
    Report :=
  { result := .error fault
    deployment
    elsewhere
    requests
    entries := if fault.isInterrupt then said else said ++ [failedEntry bound fault]
    outcome := if fault.isInterrupt then none else some .failed }

namespace Injector

/-- The service account whose credentials are attached: an override that is not empty, else the
pod's. -/
def serviceAccount (given : Option Text) (pod : PodSpec) : Option Text :=
  match given with
  | none => pod.serviceAccountName
  | some name => if name.isEmpty then pod.serviceAccountName else some name

/-- What the builder is asked for a plan. -/
def request (i : Injector) (d : Deployment) (pod : PodSpec) (given : Option Text) (plan : Plan) :
    AttachRequest where
  namespaceName := d.namespaceName?
  serviceAccountName := serviceAccount given pod
  container := i.settings.initContainer plan.sourceUri plan.initMounts
  volumes := (stage (pod.volumes.getD []) plan.volumes).map Prod.snd

/-- Attach the credentials of a plan and write it to the pod. -/
def carryOut (i : Injector) (d : Deployment) (pod : PodSpec) (elsewhere : Option Container)
    (user : Selection) (source : Source) (given : Option Text) (bound : Fields) : Report :=
  let plan := Plan.ofSource i.settings.mountPaths source
  let own := pod.volumes.getD []
  let origins := (stage own plan.volumes).map Prod.fst
  let request := i.request d pod given plan
  let left := i.builder request
  let pod := pod.ownAfter origins left.handed
  let said := rewriteEntries source plan ++ replacingEntries Volume.name own plan.volumes
  -- up to here the pod's lists are as they were
  match left.fault with
  | some fault => .failed fault { d with pod := some pod } elsewhere [request] said bound
  | none =>
    let mounts := user.container.volumeMounts.getD []
    let user := { user with container := user.container.withMount plan.userMount }
    let planned := afterBuilder origins left.handed .planned plan.volumes
    { result := .ok true
      deployment := { d with pod := some (pod.commit left.volumes left.container user) }
      elsewhere := elsewhere.map fun _ => user.container
      requests := [request]
      entries := said ++ replacingEntries VolumeMount.name mounts [plan.userMount] ++
        [injectedEntry bound plan request.serviceAccountName planned]
      outcome := some .injected }

/-- Try to inject the model initializer into a deployment. -/
def inject (i : Injector) (d : Deployment) (target : Target d.containers) (uri : Json)
    (serviceAccount : Option Text) : Report :=
  let bound : Fields := [("namespace", .ofText? d.namespaceName?), ("source_uri", uri)]
  let elsewhere := target.elsewhere?
  match d.pod with
  | none =>
    { result := .error (missingPod ContainerList.initial.member)
      deployment := d
      elsewhere
      outcome := none }
  | some pod =>
    if pod.isProvisioned then
      { result := .ok false
        deployment := d
        elsewhere
        entries := [skippedEntry bound]
        outcome := some .skipped }
    else
      match target.select (i.settings.value .userContainerName) with
      | .error fault => .failed fault d elsewhere [] [] bound
      | .ok user =>
        let bound := bound ++ ([("container", user.container.name)] : Fields)
        match Source.ofValue uri with
        | .error fault => .failed fault d elsewhere [] [] bound
        | .ok source => i.carryOut d pod elsewhere user source serviceAccount bound

end Injector

end ModelProvision
