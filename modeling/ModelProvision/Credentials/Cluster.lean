import ModelProvision.Fault

/-!
# Looking up config maps

A cluster answers one question: what is the config map of this name in this namespace. It may also
refuse, with a status and a reason, or fail in a way of its own.
-/

namespace ModelProvision

/-- A config map; its data may be absent. -/
structure ConfigMap where
  namespaceName : Text
  name : Text
  data : Option (List (Text × Text))
  deriving DecidableEq, Repr

/-- A cluster as far as lookups can tell. -/
inductive Cluster where
  | holding (maps : List ConfigMap)
  /-- Every lookup is refused. -/
  | refusing (status reason : Json)
  /-- Every lookup fails. -/
  | failing (fault : Fault)

/-- Why there is no config map. -/
inductive LookupFailure where
  | refused (status reason : Json)
  | failed (fault : Fault)

namespace Cluster

/-- The first config map of that namespace and name. -/
def lookup (cluster : Cluster) (namespaceName name : Text) : Except LookupFailure ConfigMap :=
  match cluster with
  | holding maps =>
    match maps.find? fun m => m.namespaceName = namespaceName ∧ m.name = name with
    | some m => .ok m
    | none => .error (.refused (.int 404) "Not Found")
  | refusing status reason => .error (.refused status reason)
  | failing fault => .error (.failed fault)

end Cluster

/-- The entry of a config map under a key. -/
def ConfigMap.entry? (m : ConfigMap) (key : Text) : Option Text :=
  Keyed.lookup? key (Keyed.ofPairs (m.data.getD []))

end ModelProvision
