import ModelProvision.Fault
import ModelProvision.Pod.Basic
import ModelProvision.Reserved

/-!
# Finding containers

Containers are found by name, the first one of that name counting. A pod is provisioned already when
one of its init containers carries the reserved name; the regular containers are not looked at
(`PodSpec.isProvisioned_iff`).
-/

namespace ModelProvision

/-- A container found in a list, with its index there. -/
structure FoundContainer where
  index : Nat
  container : Container
  deriving DecidableEq, Repr

/-- The first container called `name`. An absent list holds none. -/
def findContainer? (containers : Option (List Container)) (name : Text) :
    Option FoundContainer :=
  let list := containers.getD []
  match list.findFinIdx? fun c => c.name = name with
  | none => none
  | some i => some { index := i.val, container := list[i] }

/-- Nothing is found exactly when no container has the name. -/
theorem findContainer?_eq_none_iff (containers : Option (List Container)) (name : Text) :
    findContainer? containers name = none ↔ ∀ c ∈ containers.getD [], c.name ≠ name := by
  rw [findContainer?]
  split
  · next h => simpa [List.findFinIdx?_eq_none_iff] using h
  · next i h =>
    have hname : ((containers.getD [])[i]).name = name := by
      simpa using (List.findFinIdx?_eq_some_iff.1 h).1
    simpa using ⟨_, List.getElem_mem i.isLt, hname⟩

/-- What is found stands at its index, has the name, and is the first to have it. -/
theorem findContainer?_eq_some {containers : Option (List Container)} {name : Text}
    {found : FoundContainer} (h : findContainer? containers name = some found) :
    (containers.getD [])[found.index]? = some found.container ∧ found.container.name = name ∧
      ∀ j < found.index, ∀ c, (containers.getD [])[j]? = some c → c.name ≠ name := by
  rw [findContainer?] at h
  split at h
  · simp at h
  · next i hi =>
    obtain rfl := Option.some.inj h
    obtain ⟨hname, hfirst⟩ := List.findFinIdx?_eq_some_iff.1 hi
    refine ⟨by simp, by simpa using hname, fun j hj c hc => ?_⟩
    obtain ⟨hlen, rfl⟩ := List.getElem?_eq_some_iff.1 hc
    simpa using hfirst ⟨j, hlen⟩ hj

/-! ### Provisioned pods -/

/-- Whether the model initializer is among the init containers already. -/
def PodSpec.isProvisioned (pod : PodSpec) : Bool :=
  (findContainer? pod.initContainers Reserved.initContainerName).isSome

theorem PodSpec.isProvisioned_iff (pod : PodSpec) :
    pod.isProvisioned ↔
      ∃ c ∈ pod.initContainers.getD [], c.name = Reserved.initContainerName := by
  rw [PodSpec.isProvisioned, Option.isSome_iff_ne_none, Ne, findContainer?_eq_none_iff]
  simp

/-! ### Deployments

A deployment may lack the pod specification altogether; asking for one of its lists is a fault
then. -/

/-- The two lists of containers of a pod. -/
inductive ContainerList where
  | regular
  | initial
  deriving DecidableEq, Repr

/-- What faults call a list of containers. -/
def ContainerList.member : ContainerList → String
  | regular => "containers"
  | initial => "init_containers"

def PodSpec.containerList (pod : PodSpec) : ContainerList → Option (List Container)
  | .regular => pod.containers
  | .initial => pod.initContainers

/-- The fault of asking a deployment without a pod specification for one of its members. -/
def missingPod (member : String) : Fault := .missingMember Json.null.typeName member

/-- The first container called `name` in one of the lists. -/
def Deployment.findContainer (d : Deployment) (list : ContainerList) (name : Text) :
    Except Fault (Option FoundContainer) :=
  match d.pod with
  | none => .error (missingPod list.member)
  | some pod => .ok (findContainer? (pod.containerList list) name)

/-- Whether a deployment is provisioned already. -/
def Deployment.isProvisioned (d : Deployment) : Except Fault Bool :=
  (d.findContainer .initial Reserved.initContainerName).map Option.isSome

/-- The regular container called `name`, which has to be there. -/
def Deployment.userContainer (d : Deployment) (name : Text) : Except Fault FoundContainer :=
  match d.findContainer .regular name with
  | .error fault => .error fault
  | .ok none => .error (.userContainerNotFound name)
  | .ok (some found) => .ok found

end ModelProvision
