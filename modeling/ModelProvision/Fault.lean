import ModelProvision.Fault.Coding
import ModelProvision.Fault.Group
import ModelProvision.Fault.Parse
import ModelProvision.Fault.System
import ModelProvision.Json.Reader

/-!
# Faults

Everything that can go wrong while a model is wired into a pod, as causes. A fault that a credential
builder, a factory or the cluster raises on its own account passes through unchanged as
`Fault.foreign`. `Fault.kind` and `Fault.message` are the two texts that callers and log records
see.

Attributes are kept as they were given, since a builder may raise one of the named faults itself
with whatever it has at hand. A fault that is raised with arguments that its kind does not take
becomes a fault about these (`Fault.raised`).
-/

namespace ModelProvision

/-- What a credential configuration fault was raised in answer to. -/
inductive Cause where
  /-- The cluster refused the lookup. -/
  | lookup
  /-- The entry is not a JSON document. -/
  | decoding
  deriving DecidableEq, Repr

inductive Fault where
  /-- A claim URI without a claim name; `wording` replaces the usual message when it is given. -/
  | invalidUri (uri wording : Json)
  /-- The credentials document cannot be found or read. -/
  | credentialConfiguration (mapName namespaceName reason : Json) (cause : Option Cause)
  /-- The pod has no container to receive the model. -/
  | userContainerNotFound (name : Json)
  /-- Injection failed for a reason that only its arguments tell. -/
  | provisioning (arguments : List Json)
  /-- Credentials could not be attached to the init container. -/
  | credentialInjection (arguments : List Json)
  /-- A value of this type was used where one with this member is needed. -/
  | missingMember (typeName member : String)
  | unsupportedLogLevel (level : Text)
  | unsupportedLogFormat (format : Text)
  | unknownOutcome (outcome : Json)
  /-- A duration that cannot be added to the seconds observed so far. -/
  | unusableDuration (typeName : String)
  /-- A whole duration beyond the range of seconds. -/
  | oversizedDuration
  /-- A registry that has these metrics already. -/
  | duplicateMetrics
  /-- The credentials document holds an integer of more digits than are converted. -/
  | oversizedInteger (digits : Nat)
  /-- Settings whose argument, under each of these keys, is no string. -/
  | invalidSettings (keys : List Text)
  /-- The credentials document nests more values of these than are read. -/
  | nestedTooDeep (compound : Json.Compound)
  /-- A key that nothing is found by. -/
  | unknownKey (key : Json)
  /-- A value of this type was used where entries are told apart. -/
  | unusableKey (typeName : String)
  /-- An index that a list does not have. -/
  | outOfRange
  /-- A fault was raised with arguments that its kind does not take. -/
  | misraised (fault : ArgumentFault)
  /-- An operation was given an argument of this name twice. -/
  | repeatedArgument (operation argument : String)
  /-- A value of this type was used where a text is appended. -/
  | unusableText (typeName : String)
  /-- A logger was asked for by a value that is no name. -/
  | unusableLoggerName
  /-- A value that may not be absent, called so. -/
  | missingValue (name : String)
  /-- A fault of the operating system. -/
  | system (fault : SystemFault)
  | parsing (fault : ParseFault)
  | coding (fault : CodingFault)
  /-- A fault of another component. Its kind may lie outside of what counts as a failure: then it
  `interrupts`, and passes through whatever handles failures. -/
  | foreign (kind : String) (arguments : List Json) (interrupts : Bool)

namespace Fault

/-- The signatures of the kinds of faults that have named arguments. -/
def signatures : List (String × Signature) :=
  [("InvalidURIError", ⟨["uri"], 1⟩),
    ("CredentialConfigurationError", ⟨["name", "namespace", "reason"], 0⟩),
    ("UserContainerNotFoundError", ⟨["name"], 0⟩)]

/-- The fault about arguments that do not match the named ones of a kind. -/
def mismatched? (kind : String) (arguments : List Json) : Option ArgumentFault :=
  match Keyed.lookup? kind signatures with
  | none => none
  | some signature =>
    if signature.admits arguments.length then none
    else some (.mismatched kind signature arguments.length)

/-- A fault of a kind that looks at its arguments. -/
def inspected? (kind : String) (arguments : List Json) : Option (Except ArgumentFault Fault) :=
  if kind ∈ ParseFault.kinds then some ((ParseFault.ofArguments kind arguments).map .parsing)
  else if kind ∈ CodingFault.kinds then some ((CodingFault.ofArguments kind arguments).map .coding)
  else if kind ∈ FaultGroup.kinds then some (.error (FaultGroup.argumentFault arguments))
  else
    match mismatched? kind arguments with
    | some fault => some (.error fault)
    | none => (SystemFault.ofArguments? kind arguments).map fun made => made.map .system

/-- The built-in kinds that lie outside of `Exception`. An exception group can be one too, but not
with the arguments that faults are raised with here. -/
def interruptKinds : List String :=
  ["BaseException", "KeyboardInterrupt", "SystemExit", "GeneratorExit"]

/-- A fault by its kind and the arguments it was raised with. -/
def raised (kind : String) (arguments : List Json) : Fault :=
  match kind, arguments with
  | "InvalidURIError", [uri] => .invalidUri uri .null
  | "InvalidURIError", [uri, wording] => .invalidUri uri wording
  | "CredentialConfigurationError", [mapName, namespaceName, reason] =>
    .credentialConfiguration mapName namespaceName reason none
  | "UserContainerNotFoundError", [name] => .userContainerNotFound name
  | "ModelInitializerError", _ => .provisioning arguments
  | "CredentialInjectionError", _ => .credentialInjection arguments
  | "KeyError", [key] => .unknownKey key
  | _, _ =>
    match inspected? kind arguments with
    | some (.ok fault) => fault
    | some (.error fault) => .misraised fault
    | none => .foreign (SystemFault.presentKind kind) arguments (kind ∈ interruptKinds)

/-- The kind of a fault, as log records name it. -/
def kind : Fault → String
  | invalidUri .. => "InvalidURIError"
  | credentialConfiguration .. => "CredentialConfigurationError"
  | userContainerNotFound .. => "UserContainerNotFoundError"
  | provisioning .. => "ModelInitializerError"
  | credentialInjection .. => "CredentialInjectionError"
  | missingMember .. => "AttributeError"
  | unsupportedLogLevel .. => "ValueError"
  | unsupportedLogFormat .. => "ValueError"
  | unknownOutcome .. => "ValueError"
  | unusableDuration .. => "TypeError"
  | oversizedDuration => "OverflowError"
  | duplicateMetrics => "ValueError"
  | oversizedInteger .. => "ValueError"
  | nestedTooDeep .. => "RecursionError"
  | invalidSettings .. => "ValidationError"
  | unknownKey _ => "KeyError"
  | unusableKey .. => "TypeError"
  | outOfRange => "IndexError"
  | misraised fault => fault.kind
  | repeatedArgument .. => "TypeError"
  | unusableText .. => "TypeError"
  | unusableLoggerName => "TypeError"
  | missingValue .. => "ValueError"
  | system fault => fault.kind
  | parsing fault => fault.kind
  | coding fault => fault.kind
  | foreign kind .. => kind

/-- What is wrong with one setting. -/
def settingMessage : String := "Input should be a valid string"

/-- The wording of a fault. -/
def message : Fault → Text
  | invalidUri uri wording =>
    if wording.isGiven then wording.display
    else "Invalid URI must be pvc://<pvcname>/[path]: " ++ uri.display
  | credentialConfiguration mapName namespaceName reason _ =>
    "Credential config map " ++ namespaceName.display ++ "/" ++ mapName.display ++ ": " ++
      reason.display
  | userContainerNotFound name => "User container " ++ name.inspect ++ " not found in pod spec"
  | provisioning arguments => Json.displayArguments arguments
  | credentialInjection arguments => Json.displayArguments arguments
  | missingMember typeName member =>
    "'" ++ typeName ++ "' object has no attribute '" ++ member ++ "'"
  | unsupportedLogLevel level => "Unsupported log level: " ++ level
  | unsupportedLogFormat format => "Unsupported log format: " ++ format
  | unknownOutcome outcome => "Unknown injection outcome: " ++ outcome.display
  | unusableDuration typeName =>
    "unsupported operand type(s) for +=: 'float' and '" ++ typeName ++ "'"
  | oversizedDuration => "int too large to convert to float"
  | duplicateMetrics => "Duplicated timeseries in the registry"
  | oversizedInteger digits =>
    s!"Exceeds the limit ({Json.maxIntegerDigits} digits) for integer string conversion: " ++
      s!"value has {digits} digits; use sys.set_int_max_str_digits() to increase the limit"
  | nestedTooDeep compound =>
    s!"maximum recursion depth exceeded while decoding a JSON {compound.name} from a unicode string"
  | invalidSettings keys => Json.separated (keys.map fun key => key ++ ": " ++ settingMessage)
  | unknownKey key => key.inspect
  | unusableKey typeName => "unhashable type: '" ++ typeName ++ "'"
  | outOfRange => "list index out of range"
  | misraised fault => fault.message
  | repeatedArgument operation argument =>
    operation ++ "() got multiple values for argument '" ++ argument ++ "'"
  | unusableText typeName => "can only concatenate str (not \"" ++ typeName ++ "\") to str"
  | unusableLoggerName => "A logger name must be a string"
  | missingValue name => "Invalid value for `" ++ name ++ "`, must not be `None`"
  | system fault => fault.message
  | parsing fault => fault.message
  | coding fault => fault.message
  | foreign _ arguments _ => Json.displayArguments arguments

/-- The named attributes of a fault of this library. -/
def attributes : Fault → List (Text × Json)
  | invalidUri uri _ => [("uri", uri)]
  | credentialConfiguration mapName namespaceName reason _ =>
    [("name", mapName), ("namespace", namespaceName), ("reason", reason)]
  | userContainerNotFound name => [("name", name)]
  | _ => []

/-- Whether a fault is one that provisioning a model raises on its own account. -/
def isProvisioning : Fault → Bool
  | invalidUri .. | credentialConfiguration .. | userContainerNotFound .. => true
  | provisioning .. | credentialInjection .. => true
  | _ => false

/-- What the fault was raised in answer to. -/
def cause? : Fault → Option Cause
  | credentialConfiguration _ _ _ cause => cause
  | _ => none

/-- Whether the class of a fault lies outside of `Exception`: a request to stop the program or a
task, an exception group of such requests, or a fault of no narrower kind. It passes through
injection without being reported. Every other constructor is of a class below `Exception`. -/
def isInterrupt : Fault → Bool
  | foreign _ _ interrupts => interrupts
  | _ => false

end Fault

/-- The text of a value on which a text operation is used; any other value lacks the operation. -/
def Json.asText (value : Json) (operation : String) : Except Fault Text :=
  match value with
  | .string t => .ok t
  | other => .error (.missingMember other.typeName operation)

end ModelProvision
