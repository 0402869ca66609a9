import ModelProvision.Text.CodePoint

/-!
# Deployments and their pods

The part of a Kubernetes deployment that provisioning reads or writes. An absent field and an empty
one are different: a pod without a list of volumes is not a pod with an empty one, and what nobody
changes stays as it was.
-/

namespace ModelProvision

/-- Where the files of a volume come from. -/
inductive VolumeSource where
  | emptyDir (medium sizeLimit : Option Text)
  | claim (claimName : Text) (readOnly : Option Bool)
  | secret (secretName : Option Text)
  | configMap (name : Option Text)
  | hostPath (path : Text) (type : Option Text)
  deriving DecidableEq, Repr

/-- A volume of a pod. -/
structure Volume where
  name : Text
  source : Option VolumeSource
  deriving DecidableEq, Repr

/-- A volume made visible to one container, found by the volume's name. -/
structure VolumeMount where
  name : Text
  mountPath : Text
  readOnly : Option Bool
  subPath : Option Text := none
  deriving DecidableEq, Repr

/-- A variable of a container's environment. -/
structure EnvVar where
  name : Text
  value : Option Text
  deriving DecidableEq, Repr

structure Container where
  name : Text
  image : Option Text := none
  args : Option (List Text) := none
  env : Option (List EnvVar) := none
  volumeMounts : Option (List VolumeMount) := none
  deriving DecidableEq, Repr

/-- The specification of a pod. -/
structure PodSpec where
  containers : Option (List Container)
  initContainers : Option (List Container)
  volumes : Option (List Volume)
  serviceAccountName : Option Text
  deriving DecidableEq, Repr

/-- The labels of a selector or of a pod, by name. -/
abbrev Labels := List (Text × Text)

structure Metadata where
  name : Option Text
  namespaceName : Option Text
  deriving DecidableEq, Repr

/-- What tells the pods of a deployment: the labels that they match. A deployment cannot do without
a selector, but a selector need not name labels. -/
abbrev Selector := Option Labels

structure PodMetadata where
  labels : Option Labels
  deriving DecidableEq, Repr

/-- A deployment; `podMetadata` and `pod` describe the pods it runs. -/
structure Deployment where
  metadata : Option Metadata
  selector : Selector
  podMetadata : Option PodMetadata
  pod : Option PodSpec
  deriving DecidableEq, Repr

/-- The namespace a deployment lives in, if its metadata names one. -/
def Deployment.namespaceName? (d : Deployment) : Option Text :=
  d.metadata.bind Metadata.namespaceName

/-- The regular containers of a deployment. One without a pod specification has none, like a pod
without the list. -/
def Deployment.containers (d : Deployment) : List Container :=
  (d.pod.bind PodSpec.containers).getD []

theorem Deployment.containers_of_pod {d : Deployment} {pod : PodSpec} (h : d.pod = some pod) :
    d.containers = pod.containers.getD [] := by
  rw [containers, h]
  rfl

end ModelProvision
