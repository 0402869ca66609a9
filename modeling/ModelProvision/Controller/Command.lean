import ModelProvision.Controller.State

/-!
# Commands to a controller

Each command changes the state and has an answer: a result or a fault, the log lines written
meanwhile, and for an attempt at injection what became of the deployment. Commands are carried out
one after another by `runAll`.

An attempt shares what it is given with the state: the user container may belong to the deployment,
to another one or to none, and is changed where it lives.
-/

namespace ModelProvision.Controller

/-- A change of a pod specification. -/
inductive PodEdit where
  | containers (value : Option (List Container))
  | initContainers (value : Option (List Container))
  | volumes (value : Option (List Volume))
  | serviceAccountName (value : Option Text)

def PodEdit.apply (edit : PodEdit) (pod : PodSpec) : PodSpec :=
  match edit with
  | containers value => { pod with containers := value }
  | initContainers value => { pod with initContainers := value }
  | volumes value => { pod with volumes := value }
  | serviceAccountName value => { pod with serviceAccountName := value }

/-- The member of a pod specification that an edit sets. -/
def PodEdit.member : PodEdit → String
  | containers _ => ContainerList.regular.member
  | initContainers _ => ContainerList.initial.member
  | volumes _ => "volumes"
  | serviceAccountName _ => "service_account_name"

/-- What an attempt at injection is about. -/
structure Attempt where
  deployment : Text
  sourceUri : Json
  userContainer : Option ContainerRef
  serviceAccountName : Option Text

inductive Command where
  /-- Make an injector. -/
  | create (key : Text) (arguments : List (Text × Json)) (script : Script)
      (collector : Option Text)
  /-- Make an injector from the credentials document of a cluster. -/
  | start (key : Text) (cluster : Cluster) (arguments : List (Text × Json))
      (configureLogs : Bool) (script : Script) (collector : Option Text)
      (factoryFault : Option Fault)
  /-- Inject through an injector, whose script may be replaced first. -/
  | inject (injector : Text) (attempt : Attempt) (script : Option Script)
  /-- Inject through an injector made for this attempt. -/
  | injectOnce (arguments : List (Text × Json)) (attempt : Attempt) (script : Script)
  | initContainer (injector sourceUri : Text) (mounts : List VolumeMount)
  | userContainer (injector deployment : Text)
  | isProvisioned (deployment : Text)
  | inspect (deployment : Text)
  | edit (deployment : Text) (edit : PodEdit)
  | setUpLogging (scope : Scope) (arguments : List (Text × Json)) (service : Json)
  | log (entry : LogEntry)

/-- What a command yields. -/
inductive Result where
  | nothing
  | truth (b : Bool)
  | text (s : Text)
  | index (n : Nat)
  | container (c : Container)
  | deployment (d : Deployment)
  | started (effects : List Effect) (context : Fields)
  | logging (threshold : Nat) (context : Fields)

/-- What became of the deployment of an attempt or of an edit. -/
structure Aftermath where
  deployment : Deployment
  requests : List AttachRequest
  /-- The user container, when it belongs to no deployment. -/
  detached : Option Container
  /-- The collector of the injector, if it has one. -/
  collector : Option Collector

/-- What became of a deployment that nobody attempted to provision. -/
def Aftermath.ofDeployment (d : Deployment) : Aftermath :=
  { deployment := d, requests := [], detached := none, collector := none }

structure Answer where
  result : Except Fault Result
  /-- The lines written, once logging is set up. -/
  lines : Option (List LogLine)
  aftermath : Option Aftermath

namespace State

/-! ### Attempts -/

/-- The deployment of an attempt, and the target among its containers. -/
def aim (s : State) (a : Attempt) : Except Fault ((d : Deployment) × Target d.containers) := do
  let d ← find a.deployment s.deployments
  return ⟨d, ← s.target a.deployment d a.userContainer⟩

/-- Carry out an attempt on a deployment and a target of it through an injector. -/
def attempt (s : State) (m : Member) (a : Attempt) (d : Deployment)
    (target : Target d.containers) : Report × State :=
  let injector : Injector := { builder := m.script.builder, settings := m.settings }
  let report := injector.inject d target a.sourceUri a.serviceAccountName
  -- every attempt uses the injector's logger, also one that has nothing to say
  let s := { s with
    deployments := put a.deployment report.deployment s.deployments
    logging := (s.logging.use .injector).sayAll report.entries }
  let s := match report.elsewhere with
    | some c => s.storeContainer a.userContainer c
    | none => s
  (report, s.count m.collector report.outcome)

/-- What became of an attempt that left the state `s`. -/
def aftermath (s : State) (a : Attempt) (requests : List AttachRequest)
    (collector : Option Text) : Option Aftermath :=
  (Keyed.lookup? a.deployment s.deployments).map fun deployment =>
    { deployment
      requests
      detached := match a.userContainer with
        | some (.detached key) => Keyed.lookup? key s.detached
        | _ => none
      collector := collector.map s.collector }

/-- The answer to an attempt that is not carried out, but for its lines. -/
def refused (s : State) (a : Attempt) (collector : Option Text) (fault : Fault) : Answer × State :=
  ({ result := .error fault, lines := none, aftermath := s.aftermath a [] collector }, s)

/-- Carry out an attempt through an injector; the answer is still without its lines. -/
def answerAttempt (s : State) (m : Member) (a : Attempt) (d : Deployment)
    (target : Target d.containers) : Answer × State :=
  let (report, s) := s.attempt m a d target
  ({ result := report.result.map .truth, lines := none,
     aftermath := s.aftermath a report.requests m.collector }, s)

/-! ### Single commands -/

/-- An answer with a result and nothing else. -/
def plain (result : Except Fault Result) : Answer :=
  { result, lines := none, aftermath := none }

/-- Carry out a command; the answer is still without its lines. -/
def perform (s : State) : Command → Answer × State
  | .create key arguments script collector =>
    match s.settings .injector arguments with
    | .error fault => (plain (.error fault), s)
    | .ok settings =>
      let s := { s with injectors := put key { script, settings, collector } s.injectors }
      (plain (.ok (.text settings.imageRef)), s)
  | .start key cluster arguments configureLogs script collector factoryFault =>
    match s.settings .injector arguments with
    | .error fault => (plain (.error fault), s)
    | .ok settings =>
      let factory : Factory Builder := fun _ _ =>
        match factoryFault with
        | some fault => .error fault
        | none => .ok script.builder
      let (trace, logging) :=
        Injector.fromCluster cluster factory settings configureLogs s.logging
      let s := { s with logging }
      match trace.result with
      | .error fault => (plain (.error fault), s)
      | .ok _ =>
        let s := { s with injectors := put key { script, settings, collector } s.injectors }
        (plain (.ok (.started trace.effects logging.context)), s)
  | .inject key a script =>
    match find key s.injectors with
    | .error fault => (plain (.error fault), s)
    | .ok m =>
      let m := { m with script := script.getD m.script }
      let s := { s with injectors := put key m s.injectors }
      match s.aim a with
      | .error fault => s.refused a m.collector fault
      | .ok ⟨d, target⟩ => s.answerAttempt m a d target
  | .injectOnce arguments a script =>
    let ready := do
      -- what the attempt is about is looked up before an injector is made for it
      let aimed ← s.aim a
      return (aimed, ← s.settings .injector arguments)
    match ready with
    | .error fault => s.refused a none fault
    | .ok (⟨d, target⟩, settings) =>
      s.answerAttempt { script, settings, collector := none } a d target
  | .initContainer key sourceUri mounts =>
    (plain ((find key s.injectors).map fun m =>
      .container (m.settings.initContainer sourceUri mounts)), s)
  | .userContainer key deployment =>
    let result := do
      let d ← find deployment s.deployments
      let m ← find key s.injectors
      return Result.index (← d.userContainer (m.settings.value .userContainerName)).index
    (plain result, s)
  | .isProvisioned deployment =>
    let result := do
      let d ← find deployment s.deployments
      return Result.truth (← d.isProvisioned)
    (plain result, s)
  | .inspect deployment => (plain ((find deployment s.deployments).map .deployment), s)
  | .edit deployment edit =>
    match find deployment s.deployments with
    | .error fault => (plain (.error fault), s)
    | .ok d =>
      match d.pod with
      | none =>
        ({ plain (.error (missingPod edit.member)) with
          aftermath := some (.ofDeployment d) }, s)
      | some pod =>
        let d := { d with pod := some (edit.apply pod) }
        ({ plain (.ok .nothing) with aftermath := some (.ofDeployment d) },
          { s with deployments := put deployment d s.deployments })
  | .setUpLogging scope arguments service =>
    match s.settings scope arguments with
    | .error fault => (plain (.error fault), s)
    | .ok settings =>
      let (result, logging) := s.logging.setUp settings service
      (plain (result.map fun _ => .logging logging.threshold logging.context), { s with logging })
  | .log entry =>
    let (result, logging) := s.logging.submit entry
    (plain (result.map fun _ => .nothing), { s with logging })

/-- Carry out a command and hand over the lines written meanwhile. -/
def step (s : State) (command : Command) : Answer × State :=
  let (answer, s) := s.perform command
  let lines := s.logging.setup.map fun _ => s.logging.lines
  ({ answer with lines }, { s with logging := { s.logging with lines := [] } })

/-- Carry out commands in order. -/
def runAll (s : State) : List Command → List Answer × State
  | [] => ([], s)
  | command :: rest =>
    let (answer, s) := s.step command
    let (answers, s) := s.runAll rest
    (answer :: answers, s)

end State

end ModelProvision.Controller
