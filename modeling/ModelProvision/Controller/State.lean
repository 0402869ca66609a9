import ModelProvision.Injection.Startup
import ModelProvision.Place

/-!
# The state of a controller

A controller looks after deployments and provisions them through injectors. Deployments, containers
that belong to no deployment, injectors and collectors are all found by a key. Logging, the
environment and the environment file are shared by all of them.
-/

namespace ModelProvision.Controller

/-- An injector of the controller: its script, its settings and the key of its collector. -/
structure Member where
  script : Script
  settings : Settings
  collector : Option Text

structure State where
  /-- Environment and environment file. -/
  sources : Sources := {}
  deployments : List (Text × Deployment) := []
  /-- Containers that belong to no deployment. -/
  detached : List (Text × Container) := []
  injectors : List (Text × Member) := []
  collectors : List (Text × Collector) := []
  logging : Logging := {}
  /-- The seconds that the clock measures for an attempt. -/
  elapsed : Float := 0

/-- A container, by the deployment and its place there or by its own key. -/
inductive ContainerRef where
  | deployed (deployment : Text) (place : Place)
  | detached (key : Text)
  deriving DecidableEq, Repr

/-- The value under a key. -/
def find {α : Type} (key : Text) (entries : List (Text × α)) : Except Fault α :=
  match Keyed.lookup? key entries with
  | some found => .ok found
  | none => .error (.unknownKey key)

/-- Put a value under a key, in the place of the one that is there. -/
def put {α : Type} (key : Text) (value : α) (entries : List (Text × α)) : List (Text × α) :=
  Keyed.place Prod.fst (key, value) entries

/-- The index of the container at a place of a deployment's pod. -/
def indexAt (d : Deployment) (place : Place) : Except Fault (Fin d.containers.length) :=
  match d.pod with
  | none => .error (missingPod ContainerList.regular.member)
  | some _ =>
    match place.index? d.containers.length with
    | none => .error .outOfRange
    | some i => .ok i

/-- A deployment with another container at a place of its pod. -/
def withContainerAt (d : Deployment) (place : Place) (c : Container) : Deployment :=
  { d with pod := d.pod.map fun pod =>
    { pod with containers := pod.containers.map fun list =>
      match place.index? list.length with
      | none => list
      | some i => list.set i c } }

namespace State

/-- The settings of a scope for a caller's arguments. -/
def settings (s : State) (scope : Scope) (arguments : List (Text × Json)) :
    Except Fault Settings :=
  Settings.load scope { s.sources with arguments }

/-- The target that a reference means for an attempt on `d`, the deployment under `key`. -/
def target (s : State) (key : Text) (d : Deployment) :
    Option ContainerRef → Except Fault (Target d.containers)
  | none => .ok .configured
  | some (.detached key) => do return .elsewhere (← find key s.detached)
  | some (.deployed owner place) =>
    if owner = key then do return .own (← indexAt d place)
    else do
      let other ← find owner s.deployments
      return .elsewhere (other.containers.get (← indexAt other place))

/-- Store a container where a reference found it. -/
def storeContainer (s : State) (ref : Option ContainerRef) (c : Container) : State :=
  match ref with
  | some (.detached key) => { s with detached := put key c s.detached }
  | some (.deployed key place) =>
    match Keyed.lookup? key s.deployments with
    | some d => { s with deployments := put key (withContainerAt d place c) s.deployments }
    | none => s
  | none => s

/-- The collector under a key; a new one when the key is new. -/
def collector (s : State) (key : Text) : Collector :=
  (Keyed.lookup? key s.collectors).getD {}

/-- Record the outcome of an attempt, if it is counted and there is a collector. -/
def count (s : State) (key : Option Text) (outcome : Option Outcome) : State :=
  match key, outcome with
  | some key, some outcome =>
    let counted := (s.collector key).recordMeasured outcome s.elapsed
    { s with collectors := put key counted s.collectors }
  | _, _ => s

end State

end ModelProvision.Controller
