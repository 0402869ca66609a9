import ModelProvision.Credentials.Load
import ModelProvision.Injection.Inject

/-!
# Starting an injector from the cluster

The controller sets logging up from the injector's settings, reads the credentials document and has
a factory make the credential builder. Each step is taken only when the ones before it succeeded;
logging that has been set up stays so when a later step fails.
-/

namespace ModelProvision

/-- Make an injector whose builder comes from the credentials document. -/
def Injector.fromCluster (cluster : Cluster) (factory : Factory Builder) (s : Settings)
    (configureLogs : Bool) (log : Logging) : Trace Injector × Logging :=
  let (ready, begun, log) : Except Fault Unit × List Effect × Logging :=
    if configureLogs then
      let (ready, log) := log.setUp s Logging.defaultService
      (ready, [.setUpLogging], log)
    else (.ok (), [], log)
  match ready with
  | .error fault => ({ result := .error fault, effects := begun, entries := [] }, log)
  | .ok () =>
    let loading := Credentials.load cluster factory s
    ({ result := loading.result.map fun builder => { builder, settings := s }
       effects := begun ++ loading.effects
       entries := loading.entries }, log.sayAll loading.entries)

end ModelProvision
