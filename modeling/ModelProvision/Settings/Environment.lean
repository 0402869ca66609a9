import ModelProvision.Keyed
import ModelProvision.Text.Bytes

/-!
# The environment

The variables of the environment stand in the order in which their names were first assigned to,
each with the value assigned last. Names and values are texts as they are read back.
-/

namespace ModelProvision

/-- The variables of an environment, by name. -/
abbrev Environment := List (Text × Text)

/-- The environment after these values were assigned to these names, in order. -/
def Environment.ofAssignments (assignments : List (Text × Text)) : Environment :=
  Keyed.ofPairs (assignments.map fun (name, value) => (name.settled, value.settled))

end ModelProvision
