import ModelProvision.Reserved

/-!
# Fields of the settings

Every setting is a text with a default. It is given under its own name; the controller's namespace
may also be given as `pod_namespace`, which counts only where its own name is not given.
-/

namespace ModelProvision

/-- A setting. -/
inductive Field where
  | environment
  | logLevel
  | logFormat
  | controllerNamespace
  | configMapName
  | initializerImage
  | initializerVersion
  | localMountPath
  | claimMountPath
  | userContainerName
  deriving DecidableEq, Repr

namespace Field

/-- The name of a setting. -/
def name : Field → Text
  | environment => "mi_env"
  | logLevel => "mi_log_level"
  | logFormat => "mi_log_format"
  | controllerNamespace => "mi_controller_namespace"
  | configMapName => "mi_config_map_name"
  | initializerImage => "mi_initializer_image"
  | initializerVersion => "mi_initializer_version"
  | localMountPath => "mi_local_mount_path"
  | claimMountPath => "mi_pvc_source_mount_path"
  | userContainerName => "mi_user_container_name"

/-- The names a setting may be given under, the preferred one first. -/
def names : Field → List Text
  | controllerNamespace => ["mi_controller_namespace", "pod_namespace"]
  | f => [f.name]

/-- What a setting is when nobody gives it. -/
def default : Field → Text
  | environment => "local"
  | logLevel => "INFO"
  | logFormat => "json"
  | controllerNamespace => Reserved.controllerNamespace
  | configMapName => Reserved.configMapName
  | initializerImage => Reserved.initContainerImage
  | initializerVersion => Reserved.initContainerVersion
  | localMountPath => Reserved.localMountPath
  | claimMountPath => Reserved.claimMountPath
  | userContainerName => Reserved.userContainerName

end Field

/-- Which settings a component has. -/
inductive Scope where
  /-- Those that every component of the controller has. -/
  | base
  /-- Those of the component that provisions pods. -/
  | injector
  deriving DecidableEq, Repr

/-- The settings of a scope, in the order in which they are reported. -/
def Scope.fields : Scope → List Field
  | base => [.environment, .logLevel, .logFormat]
  | injector =>
    [.environment, .logLevel, .logFormat, .controllerNamespace, .configMapName, .initializerImage,
      .initializerVersion, .localMountPath, .claimMountPath, .userContainerName]

theorem Scope.mem_fields_injector (f : Field) : f ∈ Scope.injector.fields := by
  cases f <;> decide

end ModelProvision
