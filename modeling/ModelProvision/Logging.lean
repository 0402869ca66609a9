import ModelProvision.Settings.Load

/-!
# Structured logging

A log entry is an event with named fields, said by one of the library's own loggers or by a logger
of any other name. Once logging is set up, entries at or above the threshold become lines, in the
form that was set up: as a record of all fields, or as a line for the console.

Setting up can fail twice: the level is looked up and put in force before the form is looked at, so
an unknown form leaves the new threshold behind and nothing else (`Logging.setUp`).

The library's own loggers are made once. Each takes the form in force when it is first used after
logging was set up, and keeps it; a logger asked for by name is made anew each time.

Some field names mean something to the loggers themselves. The library's own entries use none of
them; an entry from elsewhere may be refused for them (`LogEntry.refusal?`), whatever its level.
-/

namespace ModelProvision

/-- How severe an entry is. -/
inductive Level where
  | debug
  | info
  | warning
  | error
  | critical
  deriving DecidableEq, Repr

namespace Level

def name : Level → String
  | debug => "debug"
  | info => "info"
  | warning => "warning"
  | error => "error"
  | critical => "critical"

/-- The rank that a threshold is compared with. -/
def rank : Level → Nat
  | debug => 10
  | info => 20
  | warning => 30
  | error => 40
  | critical => 50

end Level

/-- The form in which lines are written. -/
inductive LogFormat where
  | json
  | console
  deriving DecidableEq, Repr

/-- Who says an entry. -/
inductive Speaker where
  | injector
  | volumes
  | credentials
  /-- A logger asked for by name. -/
  | named (name : Text)
  /-- A logger asked for by a value that is no name. -/
  | nameless
  deriving DecidableEq, Repr

namespace Speaker

/-- The name a speaker goes by; a logger without a name is the root of all loggers. -/
def name : Speaker → Text
  | injector => "model_initializer.injector"
  | volumes => "model_initializer.volumes"
  | credentials => "model_initializer.credentials"
  | named name => if name.isEmpty then "root" else name
  | nameless => ""

/-- The logger that is asked for by a value; one that counts as left out asks for the root. -/
def ofValue : Json → Speaker
  | .string name => named name
  | value => if value.isGiven then nameless else named ""

/-- Whether a logger is made once and kept. -/
def isKept : Speaker → Bool
  | named _ | nameless => false
  | _ => true

end Speaker

/-- Named values, in order. -/
abbrev Fields := List (Text × Json)

/-- The operations that an entry goes through, as messages name them. -/
structure Intake where
  /-- The one that the entry is said with. -/
  saying : String
  /-- The one that passes it on. -/
  passing : String

/-- The operations of a logger before logging is set up. -/
def Intake.early : Intake where
  saying := "_make_filtering_bound_logger.<locals>.make_method.<locals>.meth"
  passing := "BoundLoggerBase._proxy_to_logger"

/-- The operations of a logger once logging is set up. -/
def Intake.settled (level : Level) : Intake where
  saying := "BoundLogger." ++ level.name
  passing := "BoundLogger._proxy_to_logger"

/-- Something that is said. -/
structure LogEntry where
  speaker : Speaker
  level : Level
  event : Json
  fields : Fields

namespace LogEntry

/-- The first field called `name`. -/
def field? (e : LogEntry) (name : Text) : Option Json := Keyed.lookup? name e.fields

/-- There is no logger for a value that is no name. -/
def unaddressed? (e : LogEntry) : Option Fault :=
  if e.speaker = .nameless then some .unusableLoggerName else none

/-- A field that repeats what a logger is given anyway: itself and the event, and then, where the
entry is passed on, the name of the level. -/
def repeated? (e : LogEntry) (intake : Intake) : Option Fault :=
  let given : List (Text × String) := [("self", "self"), ("event", "event")]
  match e.fields.findSome? fun f => Keyed.lookup? f.1 given with
  | some argument => some (.repeatedArgument intake.saying argument)
  | none =>
    (e.field? "method_name").map fun _ => .repeatedArgument intake.passing "method_name"

/-- A field `_record` stands for a record that names the logger, which no value does. -/
def misnamed? (e : LogEntry) : Option Fault :=
  match e.field? "_record" with
  | none | some .null => none
  | some value => some (.missingMember value.typeName "name")

/-- The fault of appending a value that is no text. -/
def unusable? : Option Json → Option Fault
  | none | some .null | some (.string _) => none
  | some value => some (.unusableText value.typeName)

/-- The console appends the fields `stack` and `exception`. -/
def unshown? (e : LogEntry) : Option Fault :=
  unusable? (e.field? "stack") <|> unusable? (e.field? "exception")

/-- An entry that asks for the place it comes from: `stack` is that place then, whatever was given
under the name. -/
def placed (e : LogEntry) : LogEntry :=
  if (e.field? "stack_info").any Json.isGiven then
    { e with fields := ("stack", .null) :: e.fields }
  else e

/-- Why an entry is refused by a logger that writes in a form. Before logging is set up there is
none: all entries go to the same console, and those that ask for their place get it. -/
def refusal? (e : LogEntry) : Option LogFormat → Option Fault
  | none => e.repeated? .early <|> e.placed.unshown?
  | some form =>
    e.unaddressed? <|> e.repeated? (.settled e.level) <|> e.misnamed? <|>
      match form with
      | .json => none
      | .console => e.unshown?

end LogEntry

/-- What every record says about the component that logs. -/
structure LogContext where
  /-- The name of the service, as whoever set logging up gave it. -/
  service : Json
  environment : Text
  /-- Namespace and name of the config map that holds the credentials, for a component that reads
  it. -/
  configMap : Option (Text × Text)

/-- A written line; records are without their time. -/
inductive LogLine where
  | record (members : Fields)
  | console (level event logger : Text)

namespace LogContext

def fields (c : LogContext) : Fields :=
  ("service", c.service) :: ("env", c.environment) ::
    match c.configMap with
    | none => []
    | some (namespaceName, mapName) =>
      [("controller_namespace", namespaceName), ("config_map", mapName)]

/-- The context of a component with these settings. -/
def ofSettings (s : Settings) (service : Json) : LogContext where
  service := service
  environment := s.value .environment
  configMap := match s.scope with
    | .base => none
    | .injector => some (s.value .controllerNamespace, s.value .configMapName)

/-- The record of an entry. Its own fields hide those of the context, and level, logger and event
hide fields of those names; a field called `timestamp` gives way to the time. An entry without an
event has none in its record. -/
def record (c : LogContext) (e : LogEntry) : Fields :=
  let event : Fields := match e.event with
    | .null => []
    | event => [("event", event)]
  let last : Fields := ("level", e.level.name) :: ("logger", e.speaker.name) :: event
  -- the last value of a name stays, so what comes later hides what comes before
  let members := Keyed.ofPairs (c.fields ++ e.fields ++ last)
  members.filter fun m => m.1 ≠ .ofString "timestamp"

end LogContext

/-- The state of logging. -/
structure Logging where
  /-- Entries of a lower rank are not written. -/
  threshold : Nat := Level.warning.rank
  /-- The form and the context, once logging is set up. -/
  setup : Option (LogFormat × LogContext) := none
  /-- The forms that the library's own loggers have taken. -/
  kept : List (Speaker × LogFormat) := []
  /-- The lines written so far. -/
  lines : List LogLine := []

namespace Logging

/-- The service name of the injector. -/
def defaultService : Json := "model-initializer-injector"

/-- The names of thresholds. -/
def thresholds : List (Text × Nat) :=
  [("CRITICAL", 50), ("FATAL", 50), ("ERROR", 40), ("WARNING", 30), ("WARN", 30), ("INFO", 20),
    ("DEBUG", 10), ("NOTSET", 0)]

/-- The threshold of a name in any case. -/
def threshold? (name : Text) : Option Nat :=
  Keyed.lookup? (LetterCase.toCapital name) thresholds

/-- The form of a name. -/
def format? (name : Text) : Option LogFormat :=
  Keyed.lookup? name [("json", .json), ("console", .console)]

/-- The steps that a form takes a record through. -/
def stages : LogFormat → List String
  | .json =>
    ["merge_contextvars", "add_log_level", "TimeStamper", "add_logger_name", "JSONRenderer"]
  | .console =>
    ["merge_contextvars", "add_log_level", "TimeStamper", "add_logger_name", "ConsoleRenderer"]

/-- The form that settings ask for. -/
def formatOf (name : Text) : Except Fault LogFormat :=
  match format? name with
  | some format => .ok format
  | none => .error (.unsupportedLogFormat name)

/-- Set logging up as the settings ask. -/
def setUp (s : Settings) (service : Json) (log : Logging) : Except Fault Unit × Logging :=
  match threshold? (s.value .logLevel) with
  | none => (.error (.unsupportedLogLevel (s.value .logLevel)), log)
  | some threshold =>
    -- the threshold is in force from here on, whatever becomes of the form
    let log := { log with threshold }
    match formatOf (s.value .logFormat) with
    | .error fault => (.error fault, log)
    | .ok format => (.ok (), { log with setup := some (format, .ofSettings s service) })

/-- The fields that every record has now. -/
def context (log : Logging) : Fields :=
  match log.setup with
  | none => []
  | some (_, context) => context.fields

/-- The form in which a speaker writes while `current` is in force. -/
def formFor (log : Logging) (speaker : Speaker) (current : LogFormat) : LogFormat :=
  if speaker.isKept then (Keyed.lookup? speaker log.kept).getD current else current

/-- Use a logger, so that one of the library's own takes its form. -/
def use (speaker : Speaker) (log : Logging) : Logging :=
  match log.setup with
  | none => log
  | some (current, _) =>
    if speaker.isKept ∧ speaker ∉ log.kept.map Prod.fst then
      { log with kept := log.kept ++ [(speaker, current)] }
    else log

/-- Say one thing. -/
def say (log : Logging) (e : LogEntry) : Logging :=
  match log.setup with
  | none => log
  | some (current, context) =>
    let log := log.use e.speaker
    if e.level.rank < log.threshold then log
    else
      let line := match log.formFor e.speaker current with
        | .json => LogLine.record (context.record e)
        | .console => LogLine.console e.level.name e.event.display e.speaker.name
      { log with lines := log.lines ++ [line] }

/-- Say something that may be refused. -/
def submit (log : Logging) (e : LogEntry) : Except Fault Unit × Logging :=
  let form := log.setup.map fun (current, _) => log.formFor e.speaker current
  match e.refusal? form with
  | some fault => (.error fault, log.use e.speaker)
  | none => (.ok (), log.say e)

/-- Saying something changes neither the threshold nor what was set up. -/
theorem say_threshold_setup (log : Logging) (e : LogEntry) :
    (log.say e).threshold = log.threshold ∧ (log.say e).setup = log.setup := by
  have huse : (log.use e.speaker).threshold = log.threshold ∧
      (log.use e.speaker).setup = log.setup := by
    rw [use]
    split
    · exact ⟨rfl, rfl⟩
    · split <;> exact ⟨rfl, rfl⟩
  rw [say]
  split
  · exact ⟨rfl, rfl⟩
  · dsimp only
    split <;> exact huse

/-- Say several things in order. -/
def sayAll (log : Logging) (entries : List LogEntry) : Logging := entries.foldl say log

end Logging

end ModelProvision
