import ModelProvision.Json.Value
import ModelProvision.Pod.Basic

/-!
# Manifests

Deployments and their parts as JSON objects, in the form the cluster exchanges them. On reading, a
field that is null counts as absent; on writing, absent fields are left out, while empty lists,
empty objects and empty strings stay. The selector of a deployment is never left out.
-/

namespace ModelProvision.Manifest

/-! ### Fields -/

/-- A field that is there and not null. -/
def field? (name : Text) (manifest : Json) : Option Json :=
  match manifest.member? name with
  | some .null => none
  | found => found

def string? : Json → Option Text
  | .string t => some t
  | _ => none

def bool? : Json → Option Bool
  | .bool b => some b
  | _ => none

def stringField? (name : Text) (manifest : Json) : Option Text :=
  (field? name manifest).bind string?

def boolField? (name : Text) (manifest : Json) : Option Bool :=
  (field? name manifest).bind bool?

/-- The items of a list field, each read by `read`. -/
def listField? {α : Type} (name : Text) (read : Json → α) (manifest : Json) : Option (List α) :=
  match field? name manifest with
  | some (.array items) => some (items.map read)
  | _ => none

def labelsField? (name : Text) (manifest : Json) : Option Labels :=
  match field? name manifest with
  | some (.object members) =>
    some (members.filterMap fun m => (string? m.2).map fun value => (m.1, value))
  | _ => none

/-- An object of those fields that are present. -/
def ofFields (fields : List (Text × Option Json)) : Json :=
  .object (fields.filterMap fun f => f.2.map fun value => (f.1, value))

def ofList {α : Type} (write : α → Json) (items : List α) : Json := .array (items.map write)

def ofLabels (labels : Labels) : Json :=
  .object (labels.map fun l => (l.1, .string l.2))

/-! ### Reading -/

def readVolumeSource? (manifest : Json) : Option VolumeSource :=
  (field? "emptyDir" manifest).map (fun source =>
    .emptyDir (stringField? "medium" source) (stringField? "sizeLimit" source))
  <|> (field? "persistentVolumeClaim" manifest).map (fun source =>
    .claim ((stringField? "claimName" source).getD "") (boolField? "readOnly" source))
  <|> (field? "secret" manifest).map (fun source => .secret (stringField? "secretName" source))
  <|> (field? "configMap" manifest).map (fun source => .configMap (stringField? "name" source))
  <|> (field? "hostPath" manifest).map (fun source =>
    .hostPath ((stringField? "path" source).getD "") (stringField? "type" source))

def readVolume (manifest : Json) : Volume where
  name := (stringField? "name" manifest).getD ""
  source := readVolumeSource? manifest

def readVolumeMount (manifest : Json) : VolumeMount where
  name := (stringField? "name" manifest).getD ""
  mountPath := (stringField? "mountPath" manifest).getD ""
  readOnly := boolField? "readOnly" manifest
  subPath := stringField? "subPath" manifest

def readEnvVar (manifest : Json) : EnvVar where
  name := (stringField? "name" manifest).getD ""
  value := stringField? "value" manifest

def readContainer (manifest : Json) : Container where
  name := (stringField? "name" manifest).getD ""
  image := stringField? "image" manifest
  args := listField? "args" (fun item => (string? item).getD "") manifest
  env := listField? "env" readEnvVar manifest
  volumeMounts := listField? "volumeMounts" readVolumeMount manifest

def readPodSpec (manifest : Json) : PodSpec where
  containers := listField? "containers" readContainer manifest
  initContainers := listField? "initContainers" readContainer manifest
  volumes := listField? "volumes" readVolume manifest
  serviceAccountName := stringField? "serviceAccountName" manifest

def readDeployment (manifest : Json) : Deployment :=
  let spec := field? "spec" manifest
  let template := spec.bind (field? "template")
  { metadata := (field? "metadata" manifest).map fun m =>
      { name := stringField? "name" m, namespaceName := stringField? "namespace" m }
    selector := (spec.bind (field? "selector")).bind (labelsField? "matchLabels")
    podMetadata := (template.bind (field? "metadata")).map fun m =>
      { labels := labelsField? "labels" m }
    pod := (template.bind (field? "spec")).map readPodSpec }

/-! ### Writing -/

/-- The name of the field that holds a volume source, and its value. -/
def writeVolumeSource : VolumeSource → Text × Json
  | .emptyDir medium sizeLimit =>
    ("emptyDir",
      ofFields [("medium", medium.map .string), ("sizeLimit", sizeLimit.map .string)])
  | .claim claimName readOnly =>
    ("persistentVolumeClaim",
      ofFields [("claimName", some (.string claimName)), ("readOnly", readOnly.map .bool)])
  | .secret secretName => ("secret", ofFields [("secretName", secretName.map .string)])
  | .configMap name => ("configMap", ofFields [("name", name.map .string)])
  | .hostPath path type =>
    ("hostPath", ofFields [("path", some (.string path)), ("type", type.map .string)])

def writeVolume (v : Volume) : Json :=
  .object (("name", .string v.name) :: (v.source.map writeVolumeSource).toList)

def writeVolumeMount (m : VolumeMount) : Json :=
  ofFields [("name", some (.string m.name)), ("mountPath", some (.string m.mountPath)),
    ("readOnly", m.readOnly.map .bool), ("subPath", m.subPath.map .string)]

def writeEnvVar (e : EnvVar) : Json :=
  ofFields [("name", some (.string e.name)), ("value", e.value.map .string)]

def writeContainer (c : Container) : Json :=
  ofFields [("name", some (.string c.name)), ("image", c.image.map .string),
    ("args", c.args.map (ofList .string)), ("env", c.env.map (ofList writeEnvVar)),
    ("volumeMounts", c.volumeMounts.map (ofList writeVolumeMount))]

def writePodSpec (pod : PodSpec) : Json :=
  ofFields [("containers", pod.containers.map (ofList writeContainer)),
    ("initContainers", pod.initContainers.map (ofList writeContainer)),
    ("volumes", pod.volumes.map (ofList writeVolume)),
    ("serviceAccountName", pod.serviceAccountName.map .string)]

def writeMetadata (m : Metadata) : Json :=
  ofFields [("name", m.name.map .string), ("namespace", m.namespaceName.map .string)]

def writeDeployment (d : Deployment) : Json :=
  let template := ofFields
    [("metadata", d.podMetadata.map fun m => ofFields [("labels", m.labels.map ofLabels)]),
      ("spec", d.pod.map writePodSpec)]
  let spec := ofFields
    [("selector", some (ofFields [("matchLabels", d.selector.map ofLabels)])),
      ("template", some template)]
  ofFields [("metadata", d.metadata.map writeMetadata), ("spec", some spec)]

end ModelProvision.Manifest
