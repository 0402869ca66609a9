import ModelProvision.Credentials.Cluster
import ModelProvision.Logging

/-!
# Reading the credentials document

The controller's config map holds a JSON object that says how credentials are found. Reading it
takes one lookup; loading then hands the object to a factory, which makes a credential builder of
it. Log entries name the top-level keys at most, never what stands under them.

Both are described by a `Trace`: what came out, what was done, and what was said, each in order.
-/

namespace ModelProvision

/-- The members of a credentials document. -/
abbrev CredentialsDocument := List (Text × Json)

/-- What makes something of a credentials document, with the cluster at hand. -/
abbrev Factory (α : Type) := Cluster → CredentialsDocument → Except Fault α

/-- A step that others can see, whether it succeeds or not. -/
inductive Effect where
  | setUpLogging
  /-- The cluster is asked for the config map of this namespace and name. -/
  | lookup (namespaceName name : Text)
  /-- A factory is given the cluster that was asked, and this document. -/
  | factoryCall (document : CredentialsDocument)

/-- What reading or loading did. -/
structure Trace (α : Type) where
  result : Except Fault α
  effects : List Effect
  entries : List LogEntry

namespace Credentials

/-- A fault of the document in the config map of these settings. -/
def faultAt (s : Settings) (reason : Text) (cause : Option Cause) : Fault :=
  .credentialConfiguration (s.value .configMapName) (s.value .controllerNamespace) reason cause

/-- How messages name the entry. -/
def quotedEntry : Text := "'" ++ Reserved.credentialsEntry ++ "'"

/-- The document in the text of an entry. -/
def decode (s : Settings) (text : Text) : Except Fault CredentialsDocument :=
  match Json.read text with
  | .error (.malformed complaint rest) =>
    .error (faultAt s (quotedEntry ++ " is not valid JSON: " ++
      Json.malformedMessage complaint text rest) (some .decoding))
  | .error (.oversizedInteger digits) => .error (.oversizedInteger digits)
  | .error (.tooDeep compound) => .error (.nestedTooDeep compound)
  | .ok (.object members) => .ok members
  | .ok _ => .error (faultAt s (quotedEntry ++ " must be a JSON object") none)

/-- The document of a config map. -/
def ofConfigMap (s : Settings) (m : ConfigMap) : Except Fault CredentialsDocument :=
  match m.entry? Reserved.credentialsEntry with
  | none => .error (faultAt s ("missing " ++ quotedEntry ++ " entry") none)
  | some text => decode s text

/-- What is said when the cluster refuses the lookup. -/
def refusedEntry (s : Settings) (status : Json) : LogEntry where
  speaker := .credentials
  level := .error
  event := "Failed to find config map"
  fields := [("name", s.value .configMapName), ("namespace", s.value .controllerNamespace),
    ("status", status)]

/-- The top-level keys of a document, in order of their code points. -/
def backends (document : CredentialsDocument) : List Text :=
  (document.map Prod.fst).mergeSort Text.le

/-- What is said when a document has been read. -/
def loadedEntry (s : Settings) (document : CredentialsDocument) : LogEntry where
  speaker := .credentials
  level := .debug
  event := "Loaded credentials config"
  fields := [("name", s.value .configMapName), ("namespace", s.value .controllerNamespace),
    ("backends", .array ((backends document).map .string))]

/-- Look the config map up and read its document. -/
def read (cluster : Cluster) (s : Settings) : Trace CredentialsDocument :=
  let namespaceName := s.value .controllerNamespace
  let name := s.value .configMapName
  let asked := [Effect.lookup namespaceName name]
  match cluster.lookup namespaceName name with
  | .error (.refused status reason) =>
    { result := .error (faultAt s
        ("lookup failed (" ++ status.display ++ " " ++ reason.display ++ ")") (some .lookup))
      effects := asked
      entries := [refusedEntry s status] }
  | .error (.failed fault) => { result := .error fault, effects := asked, entries := [] }
  | .ok m => { result := ofConfigMap s m, effects := asked, entries := [] }

/-- Read the document and hand it to a factory. -/
def load {α : Type} (cluster : Cluster) (factory : Factory α) (s : Settings) : Trace α :=
  let reading := read cluster s
  match reading.result with
  | .error fault => { reading with result := .error fault }
  | .ok document =>
    { result := factory cluster document
      effects := reading.effects ++ [.factoryCall document]
      entries := reading.entries ++ [loadedEntry s document] }

end Credentials

end ModelProvision
